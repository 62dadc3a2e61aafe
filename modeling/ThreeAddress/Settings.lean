import ThreeAddress.Compile
import ThreeAddress.Settings.EnvFile

/-!
# Settings

Three keys control a run. Their values come from the environment, else from a file of
settings, else from defaults. The file is the one that is named, or `.env`, which need not
exist.
-/

namespace ThreeAddress

inductive Key where
  | lexPolicy
  | scopeMode
  | showTokens
  deriving DecidableEq, Repr

namespace Key

def all : List Key := [lexPolicy, scopeMode, showTokens]

def name : Key → Text
  | lexPolicy => "MINILANG_LEX_POLICY"
  | scopeMode => "MINILANG_SCOPE_MODE"
  | showTokens => "MINILANG_SHOW_TOKENS"

end Key

/-- A value that does not fit its key. -/
inductive ValueError where
  | policy (text : Text)
  | scope (text : Text)
  | switch (text : Text)
  deriving DecidableEq, Repr

def ValueError.message : ValueError → Text
  | policy t => "unknown lexer policy " ++ t.quoted ++ " (want skip or reject)"
  | scope t => "unknown scope mode " ++ t.quoted ++ " (want \"tree\" or \"tokens\")"
  | switch t => "strconv.ParseBool: parsing " ++ t.quoted ++ ": invalid syntax"

/-- Neither letter case nor white space around the name matters. -/
def Policy.parse (t : Text) : Except ValueError Policy :=
  let name := (t.trim isWhiteSpace).lower
  if name = utf8 "skip" then .ok .skip
  else if name = utf8 "reject" then .ok .reject
  else .error (.policy t)

def ScopeMode.parse (t : Text) : Except ValueError ScopeMode :=
  match ofName? t with
  | some mode => .ok mode
  | none => .error (.scope t)

/-- The spellings of true and false. -/
def switch? (t : Text) : Option Bool :=
  if (["1", "t", "T", "TRUE", "true", "True"] : List Text).contains t then some true
  else if (["0", "f", "F", "FALSE", "false", "False"] : List Text).contains t then some false
  else none

def parseSwitch (t : Text) : Except ValueError Bool :=
  match switch? t with
  | some b => .ok b
  | none => .error (.switch t)

/-- What is found under a path. -/
inductive Stored where
  | file (content : Text)
  | directory
  | missing
  /-- Something that cannot be opened, and why. -/
  | closed (reason : Text)
  deriving DecidableEq, Repr

/-- Why a path cannot be read. -/
inductive FileError where
  | missing (path : Text)
  | directory (path : Text)
  | closed (path reason : Text)
  deriving DecidableEq, Repr

def FileError.message : FileError → Text
  | missing path => "open " ++ path ++ ": no such file or directory"
  | directory path => "read " ++ path ++ ": is a directory"
  | closed path reason => "open " ++ path ++ ": " ++ reason

/-- The content of a file. -/
def Stored.read (path : Text) : Stored → Except FileError Text
  | file content => .ok content
  | directory => .error (.directory path)
  | missing => .error (.missing path)
  | closed reason => .error (.closed path reason)

/-- Why a file of settings cannot be used. -/
inductive BindingsError where
  | file (e : FileError)
  | entry (e : EnvFile.Error)
  deriving DecidableEq, Repr

def BindingsError.message : BindingsError → Text
  | file e => e.message
  | entry e => e.message

/-- What is bound by the file of settings under a path. -/
def Stored.bindings (path : Text) (s : Stored) : Except BindingsError EnvFile.Bindings :=
  match s.read path with
  | .error e => .error (.file e)
  | .ok content =>
    match EnvFile.read content with
    | .error e => .error (.entry e)
    | .ok bindings => .ok bindings

inductive SettingsError where
  | unusable (path : Text) (e : BindingsError)
  | invalid (key : Key) (e : ValueError)
  deriving DecidableEq, Repr

def SettingsError.message : SettingsError → Text
  | unusable path e => "reading " ++ path ++ ": " ++ e.message
  | invalid key e => key.name ++ ": " ++ e.message

structure Settings where
  policy : Policy
  scope : ScopeMode
  showTokens : Bool
  deriving DecidableEq, Repr

namespace Settings

def default : Settings := ⟨.skip, .tree, true⟩

def options (s : Settings) : Options := ⟨s.policy, s.scope⟩

/-- The value of a key, or its default if the key has none. -/
def valueOf {α : Type} (key : Key) (default : α) (parse : Text → Except ValueError α) :
    Option Text → Except SettingsError α
  | none => .ok default
  | some t =>
    match parse t with
    | .ok a => .ok a
    | .error e => .error (.invalid key e)

/-- The settings that the values of the keys make. -/
def ofValues (value : Key → Option Text) : Except SettingsError Settings := do
  let policy ← valueOf .lexPolicy default.policy Policy.parse (value .lexPolicy)
  let scope ← valueOf .scopeMode default.scope
    (fun t => ScopeMode.parse (t.trim isWhiteSpace)) (value .scopeMode)
  let showTokens ← valueOf .showTokens default.showTokens
    (fun t => parseSwitch (t.trim isWhiteSpace)) (value .showTokens)
  return { policy, scope, showTokens }

/-- The file of settings to read if `named` is given, or the default one if it is empty. -/
def path (named : Text) : Text := if named.isEmpty then ".env" else named

/-- What the file of settings binds, given the outcome of reading it. The default file need
not exist. -/
def fileBindings (named : Text) (outcome : Except BindingsError EnvFile.Bindings) :
    Except SettingsError EnvFile.Bindings :=
  match outcome with
  | .ok bindings => .ok bindings
  | .error e =>
    match named, e with
    | [], .file (.missing _) => .ok []
    | _, _ => .error (.unusable (path named) e)

/-- The settings of the environment on top of those of a file. -/
def load (named : Text) (outcome : Except BindingsError EnvFile.Bindings)
    (environment : Key → Option Text) : Except SettingsError Settings :=
  match fileBindings named outcome with
  | .error e => .error e
  | .ok bindings => ofValues fun key => (environment key).or (bindings.lookup key.name)

end Settings
end ThreeAddress
