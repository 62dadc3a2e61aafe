import ThreeAddress.Proofs.Blanks
import ThreeAddress.Proofs.CommandAgreement
import ThreeAddress.Proofs.WrittenFlags

/-!
# Flags and settings

A flag that is given should decide its own setting, and every other setting should be as it was
loaded (`Settings.Obeys`). A program does what such settings ask for unless the switch for
strictness is last given as off, a policy was loaded that rejects, and the source has a character
to reject (`StaysStrict`): the switch can be turned on against the settings, but not off.

Only what a program writes tells which policy was at work. So two policies are compared by the
outcomes under them, and these differ just when a source that can be read has a stray character.
-/

namespace ThreeAddress

open Given (Last)

/-- The settings that are loaded, before any flag has a say. -/
def World.loaded (w : World) (named : Text) : Except SettingsError Settings :=
  Settings.load named ((w.stored (Settings.path named)).bindings (Settings.path named))
    w.environment

/-- What a command leaves behind under some settings. -/
def World.outcome (w : World) (c : Command) (on : Bool) (file : Option Text) (s : Settings) :
    Output :=
  match w.source c file with
  | .error e => ⟨1, [], Text.line e.message⟩
  | .ok content =>
    match c.write on s content with
    | .error e => ⟨1, [], Text.line e.message⟩
    | .ok written => ⟨0, written.stdout, written.stderr⟩

section Running

variable {w : World} {arguments : List Text} {g : Globals} {c : Command} {on : Bool}
  {file : Option Text} {s : Settings}

lemma runProgram_of_settings (asks : Request.ofArguments arguments = .run g c on file)
    (settings : w.settings g = .ok s) : runProgram w arguments = w.outcome c on file s := by
  rw [runProgram, asks]
  simp only [Request.perform, World.run, World.outcome, settings, bind, Except.bind]
  cases w.source c file with
  | error e => rfl
  | ok content =>
    dsimp only
    cases c.write on s content <;> rfl

lemma runProgram_of_settings_error {e : CommandError}
    (asks : Request.ofArguments arguments = .run g c on file) (fails : w.settings g = .error e) :
    runProgram w arguments = ⟨1, [], Text.line e.message⟩ := by
  rw [runProgram, asks]
  simp only [Request.perform, World.run, fails, bind, Except.bind]

end Running

/-- Settings that give every flag its due: each flag decides its own setting if it is given, and
all else is as it was loaded. -/
structure Settings.Obeys (s : Settings) (given : List Given) (loaded : Settings) : Prop where
  strict : ∀ on, Last (.switch "strict") given on → s.policy = if on then .reject else .skip
  policy : (∀ on, .switch "strict" on ∉ given) → s.policy = loaded.policy
  named : ∀ name, Last (.text "scope") given name → s.scope.name = name
  scope : (∀ name, .text "scope" name ∉ given) → s.scope = loaded.scope
  showTokens : s.showTokens = loaded.showTokens

section Overriding

variable {given : List Given} {s loaded : Settings} {name : Text}

/-- What the flags ask for, told by the values that are read. -/
lemma Settings.obeys_iff : s.Obeys given loaded ↔
    s.policy = (Given.switchValue "strict" given).elim loaded.policy
      (fun on => if on then .reject else .skip) ∧
    s.scope.name = (Given.textValue "scope" given).getD loaded.scope.name ∧
    s.showTokens = loaded.showTokens := by
  constructor
  · intro obeys
    refine ⟨?_, ?_, obeys.showTokens⟩
    · cases strict : Given.switchValue "strict" given with
      | none => exact obeys.policy (Given.switchValue_eq_none_iff.mp strict)
      | some on => exact obeys.strict on (Given.switchValue_eq_some_iff.mp strict)
    · cases scope : Given.textValue "scope" given with
      | none => exact congrArg ScopeMode.name (obeys.scope (Given.textValue_eq_none_iff.mp scope))
      | some name => exact obeys.named name (Given.textValue_eq_some_iff.mp scope)
  · rintro ⟨policy, scope, showTokens⟩
    constructor
    · intro on last
      rwa [Given.switchValue_eq_some_iff.mpr last] at policy
    · intro none
      rwa [Given.switchValue_eq_none_iff.mpr none] at policy
    · intro name last
      rwa [Given.textValue_eq_some_iff.mpr last] at scope
    · intro none
      rw [Given.textValue_eq_none_iff.mpr none] at scope
      exact ScopeMode.name_injective scope
    · exact showTokens

instance Settings.decidableObeys (s : Settings) (given : List Given) (loaded : Settings) :
    Decidable (s.Obeys given loaded) :=
  decidable_of_iff' _ obeys_iff

/-- Flags that name a mode, or none, can be obeyed. -/
lemma Settings.exists_obeys (known : ∀ name, Last (.text "scope") given name →
    ∃ m : ScopeMode, m.name = name) (loaded : Settings) : ∃ s, Settings.Obeys s given loaded := by
  simp only [obeys_iff]
  cases scope : Given.textValue "scope" given with
  | none => exact ⟨⟨_, loaded.scope, loaded.showTokens⟩, rfl, rfl, rfl⟩
  | some name =>
    obtain ⟨m, named⟩ := known name (Given.textValue_eq_some_iff.mp scope)
    exact ⟨⟨_, m, loaded.showTokens⟩, rfl, named, rfl⟩

/-- Each flag has its own part in the settings. -/
lemma Globals.override_eq (g : Globals) (loaded : Settings) : g.override loaded =
    match g.scope.elim (.ok loaded.scope) ScopeMode.parse with
    | .ok scope => .ok ⟨if g.strict = some true then .reject else loaded.policy, scope,
        loaded.showTokens⟩
    | .error e => .error e := by
  unfold override
  cases g.scope with
  | none => by_cases strict : g.strict = some true <;> simp [strict]
  | some name =>
    dsimp only [Option.elim]
    cases ScopeMode.parse name with
    | error e => rfl
    | ok scope => by_cases strict : g.strict = some true <;> simp [strict]

/-- The flags have their way, but for a switch that is off: it leaves the policy as it was. -/
lemma Globals.override_of_obeys (obeys : s.Obeys given loaded) :
    (ofGiven given).override loaded = .ok
      { s with policy := if Given.switchValue "strict" given = some false then loaded.policy
          else s.policy } := by
  obtain ⟨policy, scope, showTokens⟩ := Settings.obeys_iff.mp obeys
  have decided : (if Given.switchValue "strict" given = some true then .reject
      else loaded.policy) = if Given.switchValue "strict" given = some false then loaded.policy
        else s.policy := by
    rw [policy]
    rcases Given.switchValue "strict" given with _ | _ | _ <;> rfl
  have mode : (Given.textValue "scope" given).elim (.ok loaded.scope) ScopeMode.parse =
      .ok s.scope := by
    have parsed := ScopeMode.parse_name s.scope
    rw [scope] at parsed
    cases named : Given.textValue "scope" given with
    | none =>
      rw [named] at parsed
      exact (ScopeMode.parse_name loaded.scope).symm.trans parsed
    | some name =>
      rw [named] at parsed
      exact parsed
  simp only [override_eq, ofGiven, mode, decided, showTokens]

lemma Globals.override_of_forall_ne (last : Last (.text "scope") given name)
    (unknown : ∀ m : ScopeMode, m.name ≠ name) (loaded : Settings) :
    (ofGiven given).override loaded = .error (.scope name) := by
  have scope : Given.textValue "scope" given = some name := Given.textValue_eq_some_iff.mpr last
  simp only [override_eq, ofGiven, scope, Option.elim, ScopeMode.parse_of_forall_ne unknown]

end Overriding

/-- Some character of the text has no meaning. -/
def Text.HasStray (t : Text) : Prop := ∃ g ∈ t.glyphs, g.IsStray

section Policies

variable {w : World} {content : Text} {c : Command} {on : Bool} {file : Option Text} {s : Settings}

lemma hasStray_iff :
    content.HasStray ↔ (Source.stream content).filter (·.kind = .unrecognized) ≠ [] := by
  have same : ((Source.stream content).filter (·.kind = .unrecognized)).map Token.lexeme =
      (content.glyphs.filter (·.IsStray)).map Glyph.bytes := Source.lexemes_strays .start content
  have empty : (Source.stream content).filter (·.kind = .unrecognized) = [] ↔
      content.glyphs.filter (·.IsStray) = [] := by
    rw [← List.map_eq_nil_iff, same, List.map_eq_nil_iff]
  rw [ne_eq, empty, List.filter_eq_nil_iff]
  simp [Text.HasStray]

lemma exists_readTokens_reject (stray : content.HasStray) :
    ∃ e, readTokens .reject content = .error e := by
  obtain ⟨t, others, strays⟩ := List.exists_cons_of_ne_nil (hasStray_iff.mp stray)
  exact ⟨_, readTokens_of_stray rfl strays⟩

/-- The policy does not matter to a source without strays, nor does a policy that rejects nothing
differ from another. -/
lemma readTokens_eq_skip {policy : Policy} (harmless : policy = .reject → ¬ content.HasStray) :
    readTokens policy content = readTokens .skip content := by
  have clean : policy.rejects → (Source.stream content).filter (·.kind = .unrecognized) = [] := by
    intro rejects
    have reject : policy = .reject := by cases policy <;> first | rfl | cases rejects
    exact Classical.not_not.mp (mt hasStray_iff.mpr (harmless reject))
  rw [readTokens_of_clean clean, readTokens_skip]

/-- A command depends on the policy through the tokens only. -/
lemma Command.write_congr {p q : Policy} (same : readTokens p content = readTokens q content) :
    c.write on { s with policy := p } content = c.write on { s with policy := q } content := by
  cases c <;> simp [write, Settings.options, compile, readProgram, same]

lemma errorWithin_ne_lexical {options : Options} {read : List Token × List Token} {n : Nat}
    {e : LexicalError} (ok : readTokens options.policy content = .ok read) :
    errorWithin options content n ≠ some (.lexical e) := by
  match n with
  | 0 => simp [errorWithin, ok]
  | 1 => cases parsed : parse read.1 <;> simp [errorWithin, readProgram, ok, parsed]
  | n + 2 =>
    cases parsed : parse read.1 with
    | error e => simp [errorWithin, compile, readProgram, ok, parsed]
    | ok program =>
      cases checked : checkScope options.scope read.1 program <;>
        simp [errorWithin, compile, readProgram, ok, parsed, checked]

lemma CompileError.head?_message (e : CompileError) : (Text.line e.message).head? =
    some (match e with
      | .lexical _ => 0x6C
      | .grammar _ => 0x73
      | .scope _ => 0x73) := by
  cases e <;> rfl

lemma World.source_eq_ok_iff : w.source c file = .ok content ↔
    ∃ path, file = some path ∧ w.stored path = .file content := by
  constructor
  · intro h
    cases file with
    | none => cases h
    | some path =>
      refine ⟨path, rfl, ?_⟩
      cases stored : w.stored path <;> simp [source, Stored.read, stored] at h
      rw [h]
  · rintro ⟨path, rfl, stored⟩
    simp [source, Stored.read, stored]

/-- A stray shows which policy is at work. -/
lemma World.outcome_reject_ne (source : w.source c file = .ok content) (stray : content.HasStray) :
    w.outcome c on file { s with policy := .reject } ≠
      w.outcome c on file { s with policy := .skip } := by
  obtain ⟨e, rejected⟩ := exists_readTokens_reject stray
  have met : errorWithin ⟨.reject, s.scope⟩ content c.reach = some (.lexical e) :=
    errorWithin_of_le (Nat.zero_le c.reach) (by simp [errorWithin, rejected])
  have fails : w.outcome c on file { s with policy := .reject } =
      ⟨1, [], Text.line (CompileError.lexical e).message⟩ := by
    rcases c.write_cases on { s with policy := .reject } content with
      ⟨e', error, written⟩ | ⟨none, -⟩
    · cases met.symm.trans error
      simp only [outcome, source, written]
    · cases met.symm.trans none
  rw [fails]
  intro same
  -- Without rejection the command succeeds or fails at a later stage, and the first letter of a
  -- message tells the stages apart.
  rcases c.write_cases on { s with policy := .skip } content with
    ⟨e', error, written⟩ | ⟨-, written, succeeds⟩
  · simp only [outcome, source, written] at same
    have head := congrArg (fun out : Output => out.stderr.head?) same
    simp only [CompileError.head?_message] at head
    cases e' with
    | lexical e' => exact errorWithin_ne_lexical (readTokens_skip content) error
    | grammar _ => cases head
    | scope _ => cases head
  · simp only [outcome, source, succeeds] at same
    cases congrArg Output.exit same

end Policies

instance decidableFlagsWritten (arguments : List Text) (given : List Given)
    (operands : List Text) : Decidable (FlagsWritten globalFlags arguments given operands) :=
  decidable_of_iff
    (∃ read, readFlags globalFlags arguments = .ok read ∧ read = (given, operands))
    (by rw [exists_eq_right, readFlags_eq_ok_iff wellNamed_globalFlags])

/-- The flags name the file of settings, or none. -/
def NamesFile (given : List Given) (named : Text) : Prop :=
  Last (.text "env") given named ∨ ((∀ t, .text "env" t ∉ given) ∧ named = [])

section Deciding

variable {w : World} {given : List Given} {named : Text} {c : Command} {on : Bool}
  {file : Option Text} {s loaded : Settings}

lemma NamesFile.env_eq (names : NamesFile given named) : (Globals.ofGiven given).env = named := by
  rcases names with last | ⟨none, rfl⟩
  · simp only [Globals.ofGiven, Given.textValue_eq_some_iff.mpr last, Option.getD_some]
  · simp only [Globals.ofGiven, Given.textValue_eq_none_iff.mpr none, Option.getD_none]

/-- The flags come on top of the settings that are loaded. -/
lemma World.settings_of_override (names : NamesFile given named)
    (loads : w.loaded named = .ok loaded) (h : (Globals.ofGiven given).override loaded = .ok s) :
    w.settings (.ofGiven given) = .ok s := by
  rw [World.loaded] at loads
  simp only [settings, names.env_eq, loads, h]

lemma World.settings_of_override_error {e : ValueError} (names : NamesFile given named)
    (loads : w.loaded named = .ok loaded)
    (h : (Globals.ofGiven given).override loaded = .error e) :
    w.settings (.ofGiven given) = .error (.scopeFlag e) := by
  rw [World.loaded] at loads
  simp only [settings, names.env_eq, loads, h]

/-- A switch that is off leaves a policy in force that rejects a character of the source. -/
structure StaysStrict (w : World) (given : List Given) (loaded : Settings) (file : Option Text) :
    Prop where
  off : Last (.switch "strict") given false
  rejects : loaded.policy = .reject
  stray : ∃ path content, file = some path ∧ w.stored path = .file content ∧ content.HasStray

/-- A switch that is off should have every character skipped. That the loaded policy stays in
force is seen if and only if it rejects one. -/
lemma World.outcome_eq_iff (obeys : s.Obeys given loaded)
    (off : Last (.switch "strict") given false) :
    w.outcome c on file { s with policy := loaded.policy } = w.outcome c on file s ↔
      ¬ StaysStrict w given loaded file := by
  have lenient : s = { s with policy := .skip } := by
    cases s
    cases obeys.strict false off
    rfl
  constructor
  · rintro same ⟨_, rejects, path, content, rfl, stored, stray⟩
    rw [lenient, rejects] at same
    exact outcome_reject_ne (source_eq_ok_iff.mpr ⟨path, rfl, stored⟩) stray same
  · intro shows
    cases source : w.source c file with
    | error e => simp only [outcome, source]
    | ok content =>
      obtain ⟨path, rfl, stored⟩ := source_eq_ok_iff.mp source
      have harmless : loaded.policy = .reject → ¬ content.HasStray := fun rejects stray =>
        shows ⟨off, rejects, path, content, rfl, stored, stray⟩
      have written : c.write on { s with policy := loaded.policy } content =
          c.write on s content := by
        rw [lenient]
        exact Command.write_congr (readTokens_eq_skip harmless)
      simp only [outcome, source, written]

end Deciding

/-- A command whose settings can be loaded has its flags written in just one way. It fails if they
name no mode for scopes. Otherwise some settings obey the flags, and the command does what these ask
for if and only if no switch is off in vain; one that is off leaves the loaded policy in force. -/
theorem program_obeys_flags_iff {w : World} {arguments : List Text} {g : Globals} {c : Command}
    {on : Bool} {file : Option Text} (asks : Request.ofArguments arguments = .run g c on file) :
    (∃ given operands, FlagsWritten globalFlags arguments given operands) ∧
    ∀ given operands named loaded, FlagsWritten globalFlags arguments given operands →
      NamesFile given named → w.loaded named = .ok loaded →
      (∀ name, Last (.text "scope") given name → (∀ m : ScopeMode, m.name ≠ name) →
        runProgram w arguments = ⟨1, [], Text.line (ValueError.scope name).message⟩) ∧
      ((∀ name, Last (.text "scope") given name → ∃ m : ScopeMode, m.name = name) →
        ∃ s, Settings.Obeys s given loaded) ∧
      ∀ s, Settings.Obeys s given loaded →
        (Last (.switch "strict") given false →
          runProgram w arguments = w.outcome c on file { s with policy := loaded.policy }) ∧
        (runProgram w arguments = w.outcome c on file s ↔ ¬ StaysStrict w given loaded file) := by
  obtain ⟨given, operands, read, rfl⟩ := Request.globals_of_ofArguments asks
  refine ⟨⟨given, operands, (readFlags_eq_ok_iff wellNamed_globalFlags).mp read⟩, ?_⟩
  intro given' operands' named loaded written names loads
  -- The flags that are written are those that were read.
  cases read.symm.trans ((readFlags_eq_ok_iff wellNamed_globalFlags).mpr written)
  refine ⟨?_, fun known => Settings.exists_obeys known loaded, ?_⟩
  · intro name last unknown
    have fails := Globals.override_of_forall_ne last unknown loaded
    exact runProgram_of_settings_error asks (World.settings_of_override_error names loads fails)
  · intro s obeys
    have runs := runProgram_of_settings asks
      (World.settings_of_override names loads (Globals.override_of_obeys obeys))
    by_cases off : Last (.switch "strict") given false
    · rw [if_pos (Given.switchValue_eq_some_iff.mpr off)] at runs
      refine ⟨fun _ => runs, ?_⟩
      rw [runs]
      exact World.outcome_eq_iff obeys off
    · rw [if_neg (mt Given.switchValue_eq_some_iff.mp off)] at runs
      refine ⟨fun last => absurd last off, ?_⟩
      exact iff_of_true runs fun stays => off stays.off

/-- A world with one source, whose environment sets a policy. -/
def World.underPolicy (policy content : Text) : World where
  stored path := if path = "a" then .file content else .missing
  environment k := if k = .lexPolicy then some policy else none

/-- Flags win over the environment, and the last of two switches over the first. -/
theorem program_obeys_flags_iff_strict :
    (World.underPolicy "skip" "int x; @").loaded [] = .ok ⟨.skip, .tree, true⟩ ∧
    runProgram (.underPolicy "skip" "int x; @")
        ["--strict=0", "--scope", "tokens", "-strict", "ir", "a"] =
      (World.underPolicy "skip" "int x; @").outcome .ir false (some "a")
        ⟨.reject, .tokens, true⟩ := by
  have asks : Request.ofArguments ["--strict=0", "--scope", "tokens", "-strict", "ir", "a"] =
      .run ⟨[], some true, some "tokens"⟩ .ir false (some "a") := by decide +kernel
  have written : FlagsWritten globalFlags
      ["--strict=0", "--scope", "tokens", "-strict", "ir", "a"]
      [.switch "strict" false, .text "scope" "tokens", .switch "strict" true] ["ir", "a"] := by
    decide +kernel
  have names : NamesFile
      [.switch "strict" false, .text "scope" "tokens", .switch "strict" true] [] :=
    .inr ⟨Given.textValue_eq_none_iff.mp (by decide), rfl⟩
  have loads : (World.underPolicy "skip" "int x; @").loaded [] = .ok ⟨.skip, .tree, true⟩ := rfl
  have obeys : Settings.Obeys ⟨.reject, .tokens, true⟩
      [.switch "strict" false, .text "scope" "tokens", .switch "strict" true]
      ⟨.skip, .tree, true⟩ := by
    decide +kernel
  obtain ⟨-, -, decides⟩ := (program_obeys_flags_iff asks).2 _ _ _ _ written names loads
  exact ⟨loads, (decides _ obeys).2.mpr fun stays => nomatch stays.rejects⟩

/-- A switch that is off does not keep a policy of the environment from rejecting a character. -/
theorem strict_off_still_rejects :
    Request.ofArguments ["--strict=false", "ir", "a"] =
      .run ⟨[], some false, none⟩ .ir false (some "a") ∧
    FlagsWritten globalFlags ["--strict=false", "ir", "a"] [.switch "strict" false] ["ir", "a"] ∧
    NamesFile [.switch "strict" false] [] ∧
    (World.underPolicy "reject" "int x; x = 1 @ + 2;").loaded [] = .ok ⟨.reject, .tree, true⟩ ∧
    Settings.Obeys ⟨.skip, .tree, true⟩ [.switch "strict" false] ⟨.reject, .tree, true⟩ ∧
    (World.underPolicy "reject" "int x; x = 1 @ + 2;").outcome .ir false (some "a")
        ⟨.skip, .tree, true⟩ = ⟨0, "t0 = 1 + 2\nx = t0\n", []⟩ ∧
    runProgram (.underPolicy "reject" "int x; x = 1 @ + 2;") ["--strict=false", "ir", "a"] =
      ⟨1, [], "lexical error: unrecognized character \"@\" at 1:14\n"⟩ := by
  refine ⟨by decide +kernel, by decide +kernel, ?_, rfl, by decide +kernel, by decide +kernel,
    by decide +kernel⟩
  exact .inr ⟨Given.textValue_eq_none_iff.mp (by decide), rfl⟩

end ThreeAddress
