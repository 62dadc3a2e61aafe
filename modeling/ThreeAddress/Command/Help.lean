import ThreeAddress.Command.Arguments

/-!
# Help texts

A help text has sections with an empty line between them, and the lines of a section are
set in from its title.
-/

namespace ThreeAddress

structure HelpSection where
  title : Text
  lines : List Text
  deriving DecidableEq, Repr

def helpText (sections : List HelpSection) : Text :=
  List.intercalate [Text.newline]
    (sections.map fun s => Text.line s.title ++ Text.lines (s.lines.map fun l => "   " ++ l))

def programName : Text := "minilang"

def versionNumber : Text := "0.1.0"

/-- What a command does, in one line. -/
def Command.summary : Command → Text
  | run => "Run every stage and print tokens, results and IR"
  | tokens => "Print the token sequence"
  | check => "Validate the grammar without building IR"
  | ast => "Print the syntax tree"
  | ir => "Print the three-address code"
  | inspect => "Summarize symbols, statements and temporaries"

def helpCommandSummary : Text := "Shows a list of commands or help for one command"

/-- The line on the switch of a command. -/
def Command.switchHelp? : Command → Option Text
  | tokens => some "--skipped   also list unrecognized characters (default: false)"
  | ast => some "--dump      structural dump instead of source form (default: false)"
  | ir => some "--digest    print the blake2b digest of the IR (default: false)"
  | _ => none

/-- The lines on the flags of a command. -/
def Command.flagHelp (c : Command) : List Text :=
  c.switchHelp?.toList ++ [utf8 "--help, -h  show help"]

def programHelp : Text :=
  helpText [
    ⟨"NAME:",
      ["minilang - MiniLang front end: tokens, syntax and scope checks, three-address code"]⟩,
    ⟨"USAGE:", ["minilang [global options] command [command options]"]⟩,
    ⟨"VERSION:", [versionNumber]⟩,
    ⟨"COMMANDS:",
      Command.all.map (fun c => Text.padRight 9 c.name ++ c.summary) ++
        [Text.padRight 9 "help, h" ++ helpCommandSummary]⟩,
    ⟨"GLOBAL OPTIONS:",
      ["--env value    configuration file (default .env if present)",
        "--strict       reject unrecognized characters instead of skipping them (default: false)",
        "--scope value  scope checking mode: tree or tokens",
        "--help, -h     show help",
        "--version, -v  print the version"]⟩]

/-- The words that lead to a topic. -/
def Topic.fullName : Topic → Text
  | program => programName
  | command c => programName ++ " " ++ c.name
  | helpCommand owner => owner.fullName ++ " help"

/-- What a topic other than the program does, the arguments it takes, and its flags. -/
structure HelpEntry where
  summary : Text
  arguments : Text
  flags : List Text

def Command.entry (c : Command) : HelpEntry := ⟨c.summary, "<file>", c.flagHelp⟩

def helpCommandEntry : HelpEntry := ⟨helpCommandSummary, "[command]", ["--help, -h  show help"]⟩

/-- Help on an entry under its full name. -/
def HelpEntry.help (e : HelpEntry) (fullName : Text) : Text :=
  helpText [
    ⟨"NAME:", [fullName ++ " - " ++ e.summary]⟩,
    ⟨"USAGE:", [fullName ++ " [command options] " ++ e.arguments]⟩,
    ⟨"OPTIONS:", e.flags⟩]

/-- Help on an entry that also lists the help command inside it. -/
def HelpEntry.fullHelp (e : HelpEntry) (fullName : Text) : Text :=
  helpText [
    ⟨"NAME:", [fullName ++ " - " ++ e.summary]⟩,
    ⟨"USAGE:", [fullName ++ " command [command options] " ++ e.arguments]⟩,
    ⟨"COMMANDS:", [Text.padRight 9 "help, h" ++ helpCommandSummary]⟩,
    ⟨"OPTIONS:", e.flags⟩]

def Topic.help (t : Topic) : Text :=
  match t with
  | program => programHelp
  | command c => c.entry.help t.fullName
  | helpCommand _ => helpCommandEntry.help t.fullName

/-- Help that also lists what is inside the topic. It follows a usage error. -/
def Topic.fullHelp (t : Topic) : Text :=
  match t with
  | program => programHelp
  | command c => c.entry.fullHelp t.fullName
  | helpCommand _ => helpCommandEntry.fullHelp t.fullName

end ThreeAddress
