import ThreeAddress.Command.Help
import ThreeAddress.Insights
import ThreeAddress.Syntax.Dump
import ThreeAddress.Syntax.Print

/-!
# Running a command

What a command line makes of the files and the environment it finds. The settings are
loaded before the source is read, and a command that fails writes nothing but its error.
-/

namespace ThreeAddress

/-- What a run leaves behind. -/
structure Output where
  exit : Nat
  stdout : Text
  stderr : Text
  deriving DecidableEq, Repr

/-- What a run finds. -/
structure World where
  stored : Text → Stored
  environment : Key → Option Text

inductive CommandError where
  | settings (e : SettingsError)
  | scopeFlag (e : ValueError)
  | noFile (c : Command)
  | file (e : FileError)
  | compile (e : CompileError)
  deriving DecidableEq, Repr

def CommandError.message : CommandError → Text
  | settings e => e.message
  | scopeFlag e => e.message
  | noFile c => "usage: " ++ programName ++ " " ++ c.name ++ " <file>"
  | file e => "reading file: " ++ e.message
  | compile e => e.message

/-- The settings with the flags before the command on top of them. -/
def Globals.override (g : Globals) (s : Settings) : Except ValueError Settings :=
  let s := if g.strict = some true then { s with policy := .reject } else s
  match g.scope with
  | none => .ok s
  | some name =>
    match ScopeMode.parse name with
    | .ok scope => .ok { s with scope }
    | .error e => .error e

/-- The settings that a run has. -/
def World.settings (w : World) (g : Globals) : Except CommandError Settings :=
  let path := Settings.path g.env
  match Settings.load g.env ((w.stored path).bindings path) w.environment with
  | .error e => .error (.settings e)
  | .ok s =>
    match g.override s with
    | .error e => .error (.scopeFlag e)
    | .ok s => .ok s

/-- The source that a command works on. -/
def World.source (w : World) (c : Command) : Option Text → Except CommandError Text
  | none => .error (.noFile c)
  | some path =>
    match (w.stored path).read path with
    | .error e => .error (.file e)
    | .ok content => .ok content

/-- What a command writes. -/
structure Written where
  stdout : Text
  stderr : Text
  deriving DecidableEq, Repr

namespace Command

def passedSyntax : Text := "Syntax Analysis: Passed."

def runText (showTokens : Bool) (c : Compiled) : Text :=
  (if showTokens then Text.line "Lexical Tokens:" ++ Token.listing c.tokens else []) ++
    Text.lines [passedSyntax, "Semantic Analysis: Passed.", [], "Intermediate Code:"] ++
    c.code.text

def skippedText (t : Token) : Text :=
  Text.line ("skipped " ++ Text.quoted t.lexeme ++ " at " ++ Text.ofInt t.line ++ ":" ++
    Text.ofInt t.column)

/-- What a command writes about a source. `on` is the state of its own switch. -/
def write (c : Command) (on : Bool) (s : Settings) (source : Text) :
    Except CompileError Written :=
  match c with
  | run =>
    match ThreeAddress.compile s.options source with
    | .error e => .error e
    | .ok r => .ok ⟨runText s.showTokens r, []⟩
  | tokens =>
    match readTokens s.policy source with
    | .error e => .error (.lexical e)
    | .ok (ts, skipped) =>
      .ok ⟨Token.listing ts ++ (if on then skipped.flatMap skippedText else []), []⟩
  | check =>
    match readProgram s.policy source with
    | .error e => .error e
    | .ok _ => .ok ⟨Text.line passedSyntax, []⟩
  | ast =>
    match readProgram s.policy source with
    | .error e => .error e
    | .ok r =>
      .ok ⟨if on then Text.line (Node.program r.program).dump else Program.source r.program, []⟩
  | ir =>
    match ThreeAddress.compile s.options source with
    | .error e => .error e
    | .ok r =>
      .ok ⟨r.code.text ++ (if on then Text.line ("digest: " ++ r.code.digest) else []),
        Text.lines (r.code.omissions.map fun o => "note: " ++ o.text)⟩
  | inspect =>
    match ThreeAddress.compile s.options source with
    | .error e => .error e
    | .ok r => .ok ⟨(Insights.ofCompiled r).text, []⟩

end Command

/-- What a command makes of the world. -/
def World.run (w : World) (g : Globals) (c : Command) (on : Bool) (file : Option Text) :
    Except CommandError Written := do
  let settings ← w.settings g
  let source ← w.source c file
  match c.write on settings source with
  | .error e => throw (.compile e)
  | .ok written => return written

namespace Request

def perform (w : World) : Request → Output
  | run globals command on file =>
    match w.run globals command on file with
    | .ok written => ⟨0, written.stdout, written.stderr⟩
    | .error e => ⟨1, [], Text.line e.message⟩
  | version => ⟨0, Text.line (programName ++ " version " ++ versionNumber), []⟩
  | help topic => ⟨0, topic.help, []⟩
  | fullHelp topic => ⟨0, topic.fullHelp, []⟩
  | unknownTopic name asCommand =>
    ⟨if asCommand then 3 else 1, [], Text.line ("No help topic for '" ++ name ++ "'")⟩
  | misuse e topic =>
    ⟨1, Text.lines ["Incorrect Usage: " ++ e.message, []] ++ topic.fullHelp, Text.line e.message⟩

/-- The paths that a request may read. -/
def paths : Request → List Text
  | run globals _ _ file => Settings.path globals.env :: file.toList
  | _ => []

end Request

/-- Runs the program on its arguments. -/
def runProgram (w : World) (arguments : List Text) : Output :=
  (Request.ofArguments arguments).perform w

end ThreeAddress
