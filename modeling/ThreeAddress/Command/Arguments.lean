import ThreeAddress.Settings

/-!
# Command lines

A command line names a command, with flags before it that hold for every command and
flags behind it that are its own. Flags come first on each level: they end at the first
argument that is none, or at `--`.
-/

namespace ThreeAddress

inductive Command where
  | run
  | tokens
  | check
  | ast
  | ir
  | inspect
  deriving DecidableEq, Repr

namespace Command

def all : List Command := [run, tokens, check, ast, ir, inspect]

def name : Command → Text
  | run => "run"
  | tokens => "tokens"
  | check => "check"
  | ast => "ast"
  | ir => "ir"
  | inspect => "inspect"

def switch? : Command → Option Text
  | run => none
  | tokens => some "skipped"
  | check => none
  | ast => some "dump"
  | ir => some "digest"
  | inspect => none

def ofName? (name : Text) : Option Command := all.find? fun c => c.name == name

end Command

/-- A flag by its names, the first of which is the usual one. -/
structure Flag where
  names : List Text
  /-- A switch is on or off. Any other flag takes a text. -/
  isSwitch : Bool
  deriving DecidableEq, Repr

inductive UsageError where
  | badFlag (argument : Text)
  | unknownFlag (name : Text)
  | noValue (name : Text)
  | badSwitch (name value : Text)
  | twoNames (second first : Text)
  deriving DecidableEq, Repr

def UsageError.message : UsageError → Text
  | badFlag argument => "bad flag syntax: " ++ argument
  | unknownFlag name => "flag provided but not defined: -" ++ name
  | noValue name => "flag needs an argument: -" ++ name
  | badSwitch name value =>
    "invalid boolean value " ++ value.quoted ++ " for -" ++ name ++ ": parse error"
  | twoNames second first => "Cannot use two forms of the same flag: " ++ second ++ " " ++ first

/-- A flag that was given, under one of its names. -/
inductive Given where
  | switch (name : Text) (value : Bool)
  | text (name : Text) (value : Text)
  deriving DecidableEq, Repr

namespace Given

def name : Given → Text
  | switch name _ => name
  | text name _ => name

def switchNamed (name : Text) : Given → Option Bool
  | switch n b => if n = name then some b else none
  | text .. => none

def textNamed (name : Text) : Given → Option Text
  | switch .. => none
  | text n t => if n = name then some t else none

/-- The value that a switch was last given. -/
def switchValue (name : Text) (gs : List Given) : Option Bool :=
  gs.reverse.findSome? (switchNamed name)

def textValue (name : Text) (gs : List Given) : Option Text :=
  gs.reverse.findSome? (textNamed name)

end Given

inductive Argument where
  | flag (name : Text) (value : Option Text)
  | badFlag
  /-- The sign that ends the flags. -/
  | flagsEnd
  | operand
  deriving DecidableEq, Repr

/-- A flag begins with one or two dashes and may have a value behind `=`. -/
def Argument.of (a : Text) : Argument :=
  match a with
  | 0x2D :: 0x2D :: [] => .flagsEnd
  | 0x2D :: 0x2D :: body => named body
  | 0x2D :: b :: body => named (b :: body)
  | _ => .operand
where
  named (body : Text) : Argument :=
    match body with
    | [] => .badFlag
    | b :: _ =>
      if b = 0x2D ∨ b = 0x3D then .badFlag
      else
        let (name, value) := Text.cutAt 0x3D body
        .flag name value

def Given.before (g : Given) : Except UsageError (List Given × List Text) →
    Except UsageError (List Given × List Text)
  | .ok (given, operands) => .ok (g :: given, operands)
  | .error e => .error e

/-- The flags at the front of the arguments, and the arguments behind them. -/
def readFlags (flags : List Flag) : List Text → Except UsageError (List Given × List Text)
  | [] => .ok ([], [])
  | a :: rest =>
    match Argument.of a with
    | .operand => .ok ([], a :: rest)
    | .flagsEnd => .ok ([], rest)
    | .badFlag => .error (.badFlag a)
    | .flag name value =>
      match flags.find? fun f => f.names.contains name with
      | none => .error (.unknownFlag name)
      | some f =>
        if f.isSwitch then
          match switch? (value.getD "true") with
          | none => .error (.badSwitch name (value.getD []))
          | some b => Given.before (.switch name b) (readFlags flags rest)
        else match value, rest with
          | some v, rest => Given.before (.text name v) (readFlags flags rest)
          | none, v :: rest => Given.before (.text name v) (readFlags flags rest)
          | none, [] => .error (.noValue name)

/-- The names under which a flag was given, the usual one first. -/
def Flag.usedNames (f : Flag) (given : List Given) : List Text :=
  f.names.filter fun n => given.any fun g => g.name == n

def checkNames (flags : List Flag) (given : List Given) : Except UsageError Unit :=
  match flags.findSome? fun f =>
      match f.usedNames given with
      | first :: second :: _ => some (UsageError.twoNames second first)
      | _ => none with
  | some e => .error e
  | none => .ok ()

def readLevel (flags : List Flag) (arguments : List Text) :
    Except UsageError (List Given × List Text) :=
  match readFlags flags arguments with
  | .error e => .error e
  | .ok (given, operands) =>
    match checkNames flags given with
    | .error e => .error e
    | .ok () => .ok (given, operands)

theorem Given.exists_of_before {g : Given} {read : Except UsageError (List Given × List Text)}
    {given : List Given} {operands : List Text} (h : before g read = .ok (given, operands)) :
    ∃ rest, read = .ok (rest, operands) ∧ given = g :: rest := by
  match read, h with
  | .ok (rest, _), h =>
    cases h
    exact ⟨rest, rfl, rfl⟩

theorem length_readFlags_le {flags : List Flag} {arguments operands : List Text}
    {given : List Given} (h : readFlags flags arguments = .ok (given, operands)) :
    operands.length ≤ arguments.length := by
  fun_induction readFlags flags arguments generalizing given with
  | case1 => simp_all
  | case2 => simp_all
  | case3 => simp_all
  | case4 => simp_all
  | case5 => simp_all
  | case6 => simp_all
  | case7 _ _ _ _ _ _ _ _ _ _ ih =>
    obtain ⟨_, hrest, _⟩ := Given.exists_of_before h
    exact Nat.le_succ_of_le (ih hrest)
  | case8 _ _ _ _ _ _ _ _ ih =>
    obtain ⟨_, hrest, _⟩ := Given.exists_of_before h
    exact Nat.le_succ_of_le (ih hrest)
  | case9 _ _ _ _ _ _ _ _ ih =>
    obtain ⟨_, hrest, _⟩ := Given.exists_of_before h
    exact Nat.le_succ_of_le (Nat.le_succ_of_le (ih hrest))
  | case10 => simp_all

theorem length_readLevel {flags : List Flag} {arguments rest : List Text} {first : Text}
    {given : List Given} (h : readLevel flags arguments = .ok (given, first :: rest)) :
    rest.length < arguments.length := by
  unfold readLevel at h
  split at h
  · simp at h
  next given' operands hread =>
    split at h
    · simp at h
    · simp only [Except.ok.injEq, Prod.mk.injEq] at h
      rw [h.2] at hread
      exact length_readFlags_le hread

def Flag.isOn (f : Flag) (given : List Given) : Bool :=
  f.names.any fun n => Given.switchValue n given == some true

def helpFlag : Flag := ⟨["help", "h"], true⟩
def versionFlag : Flag := ⟨["version", "v"], true⟩

def globalFlags : List Flag :=
  [⟨["env"], false⟩, ⟨["strict"], true⟩, ⟨["scope"], false⟩, helpFlag, versionFlag]

def Command.flags (c : Command) : List Flag :=
  (c.switch?.toList.map fun name => ⟨[name], true⟩) ++ [helpFlag]

structure Globals where
  /-- The file of settings, empty for the default one. -/
  env : Text
  strict : Option Bool
  scope : Option Text
  deriving DecidableEq, Repr

def Globals.ofGiven (given : List Given) : Globals :=
  { env := (Given.textValue "env" given).getD []
    strict := Given.switchValue "strict" given
    scope := Given.textValue "scope" given }

inductive Topic where
  | program
  | command (c : Command)
  /-- The help command inside a topic. -/
  | helpCommand (owner : Topic)
  deriving DecidableEq, Repr

def isHelpWord (t : Text) : Bool := t == utf8 "help" || t == utf8 "h"

/-- The topic with a name inside a topic. Each has a help command, the help command too. -/
def Topic.find? (t : Topic) (name : Text) : Option Topic :=
  if isHelpWord name then some (.helpCommand t)
  else match t with
    | program => (Command.ofName? name).map command
    | _ => none

inductive Request where
  | run (globals : Globals) (command : Command) (switch : Bool) (file : Option Text)
  | version
  | help (topic : Topic)
  /-- Help that also lists what is inside the topic. -/
  | fullHelp (topic : Topic)
  /-- A help topic that does not exist. `asCommand` tells that it stood where a command
  stands, or behind the help command. -/
  | unknownTopic (name : Text) (asCommand : Bool)
  | misuse (e : UsageError) (topic : Topic)
  deriving DecidableEq, Repr

namespace Request

/-- Help on the name inside a topic, or on the topic itself if the name is empty. -/
def helpOn (owner : Topic) (name : Text) (asCommand : Bool) : Request :=
  if name.isEmpty then help owner
  else match owner.find? name with
    | some t => help t
    | none => unknownTopic name asCommand

/-- The arguments behind the help command inside a topic. Behind its help flag, the help
command tells about itself in full. -/
def ofHelp (owner : Topic) (arguments : List Text) : Request :=
  match h : readLevel [helpFlag] arguments with
  | .error e => misuse e (.helpCommand owner)
  | .ok (_, []) => help owner
  | .ok (given, first :: rest) =>
    if helpFlag.isOn given then
      if isHelpWord first then fullHelp (.helpCommand owner) else helpOn owner first false
    else
      have := length_readLevel h
      if isHelpWord first then ofHelp (.helpCommand owner) rest else helpOn owner first true
termination_by arguments.length

def ofCommand (globals : Globals) (c : Command) (arguments : List Text) : Request :=
  match readLevel c.flags arguments with
  | .error e => misuse e (.command c)
  | .ok (given, operands) =>
    if helpFlag.isOn given then helpOn (.command c) (operands.head?.getD []) false
    else
      let on := c.switch?.any fun name => Given.switchValue name given == some true
      match operands with
      | [] => run globals c on none
      | first :: rest =>
        if isHelpWord first then ofHelp (.command c) rest else run globals c on (some first)

def ofArguments (arguments : List Text) : Request :=
  match readLevel globalFlags arguments with
  | .error e => misuse e .program
  | .ok (given, operands) =>
    if helpFlag.isOn given then helpOn .program (operands.head?.getD []) false
    else if versionFlag.isOn given then version
    else match operands with
      | [] => help .program
      | first :: rest =>
        if isHelpWord first then ofHelp .program rest
        else match Command.ofName? first with
          | some c => ofCommand (.ofGiven given) c rest
          | none => helpOn .program first true

end Request
end ThreeAddress
