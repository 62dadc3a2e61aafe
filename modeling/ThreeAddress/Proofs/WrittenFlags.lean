import Mathlib.Data.List.TakeWhile
import ThreeAddress.Command.Arguments
import ThreeAddress.Proofs.Precedence

/-!
# Flags as they are written

The flags before a command stand in a list of arguments. `FlagsWritten` tells how, without regard
to how they are read, and reading finds just the flags that are written (`readFlags_eq_ok_iff`).
A flag may be written more than once. The last time counts (`Given.Last`).
-/

namespace ThreeAddress

/-- The dashes before the name of a flag. -/
def dashes : List Text := ["-", "--"]

/-- A flag as it is written, with or without a value. -/
def Flag.written (dash name : Text) (value : Option Text) : Text :=
  dash ++ name ++ value.elim [] (0x3D :: ·)

section Names

/-- A name that can be told from the dashes before it and from a value behind it. -/
structure PlainName (name : Text) : Prop where
  ne_nil : name ≠ []
  head?_ne : name.head? ≠ some 0x2D
  notMem : 0x3D ∉ name

variable {a name t : Text} {b : UInt8} {value : Option Text}

lemma Text.cutAt_eq_iff :
    cutAt b t = (name, value) ↔ b ∉ name ∧ t = name ++ value.elim [] (b :: ·) := by
  constructor
  · intro h
    obtain ⟨rfl, rfl⟩ := Prod.mk.inj h
    refine ⟨fun mem => ?_, ?_⟩
    · simpa using List.mem_takeWhile_imp mem
    · have split := List.takeWhile_append_dropWhile (p := (· != b)) (l := t)
      cases rest : t.dropWhile (· != b) with
      | nil =>
        rw [rest] at split
        exact split.symm
      | cons c v =>
        have ends : t.dropWhile (· != b) ≠ [] := by simp [rest]
        have same : c = b := by simpa [rest] using List.head_dropWhile_not (· != b) ends
        rw [rest, same] at split
        exact split.symm
  · rintro ⟨notMem, rfl⟩
    have all : ∀ a ∈ name, a != b := fun a ha => bne_iff_ne.mpr fun same => notMem (same ▸ ha)
    rw [cutAt, List.takeWhile_append_of_pos all, List.dropWhile_append_of_pos all]
    cases value <;> simp

lemma Argument.named_eq_flag_iff {body : Text} : of.named body = .flag name value ↔
    PlainName name ∧ body = name ++ value.elim [] (0x3D :: ·) := by
  constructor
  · intro h
    cases body with
    | nil => cases h
    | cons c r =>
      rw [of.named] at h
      split at h
      · cases h
      next other =>
        have cut : Text.cutAt 0x3D (c :: r) = (name, value) :=
          Prod.ext (flag.inj h).1 (flag.inj h).2
        obtain ⟨notMem, whole⟩ := Text.cutAt_eq_iff.mp cut
        refine ⟨?_, whole⟩
        cases name with
        | nil => cases value <;> simp_all
        | cons d n =>
          cases whole
          exact ⟨by simp, by simpa using fun dash => other (Or.inl dash), notMem⟩
  · rintro ⟨plain, rfl⟩
    have cut : Text.cutAt 0x3D (name ++ value.elim [] (0x3D :: ·)) = (name, value) :=
      Text.cutAt_eq_iff.mpr ⟨plain.notMem, rfl⟩
    cases name with
    | nil => exact absurd rfl plain.ne_nil
    | cons c n =>
      have other : ¬ (c = 0x2D ∨ c = 0x3D) := by
        rintro (dash | sign)
        · exact plain.head?_ne (congrArg some dash)
        · exact plain.notMem (sign ▸ List.mem_cons_self)
      rw [List.cons_append, of.named, if_neg other]
      exact congrArg (fun p : Text × Option Text => flag p.1 p.2) cut

/-- Dashes lead to a name. -/
lemma Argument.of_dash {dash : Text} {c : UInt8} {r : Text} (dashed : dash ∈ dashes)
    (other : c ≠ 0x2D) : of (dash ++ c :: r) = of.named (c :: r) := by
  simp only [dashes, List.mem_cons, List.not_mem_nil, or_false] at dashed
  rcases dashed with rfl | rfl
  · show of (0x2D :: c :: r) = _
    unfold of
    split <;> simp_all
  · rfl

lemma Argument.of_eq_flag_iff : of a = .flag name value ↔
    PlainName name ∧ ∃ dash ∈ dashes, a = Flag.written dash name value := by
  constructor
  · intro h
    unfold of at h
    split at h
    · cases h
    next body _ =>
      obtain ⟨plain, rfl⟩ := named_eq_flag_iff.mp h
      exact ⟨plain, utf8 "--", by simp [dashes], rfl⟩
    next c body _ =>
      obtain ⟨plain, whole⟩ := named_eq_flag_iff.mp h
      rw [whole]
      exact ⟨plain, utf8 "-", by simp [dashes], rfl⟩
    · cases h
  · rintro ⟨plain, dash, dashed, rfl⟩
    have read : of.named (name ++ value.elim [] (0x3D :: ·)) = .flag name value :=
      named_eq_flag_iff.mpr ⟨plain, rfl⟩
    cases name with
    | nil => exact absurd rfl plain.ne_nil
    | cons c n =>
      rw [Flag.written, List.append_assoc, List.cons_append,
        of_dash dashed fun dash => plain.head?_ne (congrArg some dash)]
      exact read

lemma Argument.named_cases (body : Text) :
    of.named body = .badFlag ∨ ∃ name value, of.named body = .flag name value := by
  cases body with
  | nil => exact Or.inl rfl
  | cons c r =>
    rw [of.named]
    split
    · exact Or.inl rfl
    · exact Or.inr ⟨_, _, rfl⟩

/-- An argument that begins with a dash is no operand, unless it is the dash alone. -/
lemma Argument.of_cases (a : Text) :
    ((a = utf8 "-" ∨ a.head? ≠ some 0x2D) ∧ of a = .operand) ∨
    (¬ (a = utf8 "-" ∨ a.head? ≠ some 0x2D) ∧ ((a = utf8 "--" ∧ of a = .flagsEnd) ∨
      of a = .badFlag ∨ ∃ name value, of a = .flag name value)) := by
  match a with
  | [] => exact Or.inl ⟨Or.inr (by simp), rfl⟩
  | [c] =>
    by_cases dash : c = 0x2D
    · subst dash
      exact Or.inl ⟨Or.inl rfl, rfl⟩
    · exact Or.inl ⟨Or.inr (by simpa using dash), by simp [of]⟩
  | c :: d :: r =>
    by_cases dash : c = 0x2D
    · subst dash
      have dashed : ¬ (0x2D :: d :: r = [0x2D] ∨ (0x2D :: d :: r).head? ≠ some 0x2D) := by simp
      refine Or.inr ⟨dashed, ?_⟩
      by_cases second : d = 0x2D
      · subst second
        cases r with
        | nil => exact Or.inl ⟨rfl, rfl⟩
        | cons e r => exact Or.inr (named_cases (e :: r))
      · have named : of (0x2D :: d :: r) = of.named (d :: r) :=
          of_dash (List.mem_cons_self : utf8 "-" ∈ dashes) second
        rw [named]
        exact Or.inr (named_cases (d :: r))
    · refine Or.inl ⟨Or.inr (by simpa using dash), ?_⟩
      unfold of
      split <;> simp_all

lemma Argument.of_eq_operand_iff : of a = .operand ↔ a = utf8 "-" ∨ a.head? ≠ some 0x2D := by
  rcases of_cases a with ⟨plain, operand⟩ | ⟨dashed, ⟨-, other⟩ | other | ⟨name, value, other⟩⟩
  · exact ⟨fun _ => plain, fun _ => operand⟩
  all_goals simp [other, dashed]

lemma Argument.of_eq_flagsEnd_iff : of a = .flagsEnd ↔ a = utf8 "--" := by
  constructor
  · intro flagsEnd
    rcases of_cases a with ⟨-, other⟩ | ⟨-, ⟨same, -⟩ | other | ⟨name, value, other⟩⟩
    · cases flagsEnd.symm.trans other
    · exact same
    all_goals cases flagsEnd.symm.trans other
  · rintro rfl
    rfl

end Names

/-- Some flag has the name and takes that kind of value. -/
def HasFlag (flags : List Flag) (name : Text) (isSwitch : Bool) : Prop :=
  ∃ f ∈ flags, f.isSwitch = isSwitch ∧ name ∈ f.names

/-- The arguments begin with the given flags, and the operands follow. A switch stands alone or has
its value behind an equals sign, and any other flag has its value there or in the next argument. The
flags end before the first operand, or at two dashes, which belong to neither. -/
inductive FlagsWritten (flags : List Flag) : List Text → List Given → List Text → Prop where
  | nothing : FlagsWritten flags [] [] []
  | operand {a : Text} {rest : List Text} (plain : a = utf8 "-" ∨ a.head? ≠ some 0x2D) :
      FlagsWritten flags (a :: rest) [] (a :: rest)
  | flagsEnd {rest : List Text} : FlagsWritten flags (utf8 "--" :: rest) [] rest
  | switchOn {dash name : Text} {rest operands : List Text} {given : List Given}
      (dashed : dash ∈ dashes) (known : HasFlag flags name true)
      (behind : FlagsWritten flags rest given operands) :
      FlagsWritten flags (Flag.written dash name none :: rest) (.switch name true :: given) operands
  | switchSet {dash name value : Text} {b : Bool} {rest operands : List Text} {given : List Given}
      (dashed : dash ∈ dashes) (known : HasFlag flags name true) (spelled : value ∈ switchNames b)
      (behind : FlagsWritten flags rest given operands) :
      FlagsWritten flags (Flag.written dash name (some value) :: rest) (.switch name b :: given)
        operands
  | textSet {dash name value : Text} {rest operands : List Text} {given : List Given}
      (dashed : dash ∈ dashes) (known : HasFlag flags name false)
      (behind : FlagsWritten flags rest given operands) :
      FlagsWritten flags (Flag.written dash name (some value) :: rest) (.text name value :: given)
        operands
  | textNext {dash name value : Text} {rest operands : List Text} {given : List Given}
      (dashed : dash ∈ dashes) (known : HasFlag flags name false)
      (behind : FlagsWritten flags rest given operands) :
      FlagsWritten flags (Flag.written dash name none :: value :: rest)
        (.text name value :: given) operands

section Reading

variable {flags : List Flag} {arguments operands : List Text} {given : List Given}

lemma hasFlag_of_find? {name : Text} {f : Flag} {isSwitch : Bool}
    (found : flags.find? (fun f => f.names.contains name) = some f)
    (kind : f.isSwitch = isSwitch) : HasFlag flags name isSwitch :=
  ⟨f, List.mem_of_find?_eq_some found, kind, by simpa using List.find?_some found⟩

/-- What is read is written in the arguments. -/
lemma written_of_readFlags (h : readFlags flags arguments = .ok (given, operands)) :
    FlagsWritten flags arguments given operands := by
  fun_induction readFlags flags arguments generalizing given with
  | case1 =>
    cases h
    exact .nothing
  | case2 a rest operand =>
    cases h
    exact .operand (Argument.of_eq_operand_iff.mp operand)
  | case3 a rest flagsEnd =>
    cases h
    rw [Argument.of_eq_flagsEnd_iff.mp flagsEnd]
    exact .flagsEnd
  | case4 => cases h
  | case5 => cases h
  | case6 => cases h
  | case7 a rest name value flag f found isSwitch b on ih =>
    obtain ⟨rest', read, rfl⟩ := Given.exists_of_before h
    obtain ⟨plain, dash, dashed, rfl⟩ := Argument.of_eq_flag_iff.mp flag
    have known := hasFlag_of_find? found isSwitch
    cases value with
    | none =>
      cases on
      exact .switchOn dashed known (ih read)
    | some value => exact .switchSet dashed known (switch?_eq_some_iff.mp on) (ih read)
  | case8 a name f found isText value rest flag ih =>
    obtain ⟨rest', read, rfl⟩ := Given.exists_of_before h
    obtain ⟨plain, dash, dashed, rfl⟩ := Argument.of_eq_flag_iff.mp flag
    have known := hasFlag_of_find? found (Bool.eq_false_iff.mpr isText)
    exact .textSet dashed known (ih read)
  | case9 a name f found isText value rest flag ih =>
    obtain ⟨rest', read, rfl⟩ := Given.exists_of_before h
    obtain ⟨plain, dash, dashed, rfl⟩ := Argument.of_eq_flag_iff.mp flag
    have known := hasFlag_of_find? found (Bool.eq_false_iff.mpr isText)
    exact .textNext dashed known (ih read)
  | case10 => cases h

/-- No flag has a name that dashes or a value could be part of, and no two have the same. -/
structure WellNamed (flags : List Flag) : Prop where
  plain : ∀ f ∈ flags, ∀ name ∈ f.names, PlainName name
  find? : ∀ f ∈ flags, ∀ name ∈ f.names, flags.find? (fun f => f.names.contains name) = some f

lemma wellNamed_globalFlags : WellNamed globalFlags := by
  constructor
  · have plain : ∀ f ∈ globalFlags, ∀ name ∈ f.names,
        name ≠ [] ∧ name.head? ≠ some 0x2D ∧ 0x3D ∉ name := by decide
    intro f mem name named
    exact ⟨(plain f mem name named).1, (plain f mem name named).2.1, (plain f mem name named).2.2⟩
  · decide

lemma WellNamed.of_written (wellNamed : WellNamed flags) {dash name : Text} {isSwitch : Bool}
    (dashed : dash ∈ dashes) (known : HasFlag flags name isSwitch) (value : Option Text) :
    Argument.of (Flag.written dash name value) = .flag name value ∧
    ∃ f, flags.find? (fun f => f.names.contains name) = some f ∧ f.isSwitch = isSwitch := by
  obtain ⟨f, mem, same, named⟩ := known
  have plain := wellNamed.plain f mem name named
  exact ⟨Argument.of_eq_flag_iff.mpr ⟨plain, dash, dashed, rfl⟩, f,
    wellNamed.find? f mem name named, same⟩

/-- What is written in the arguments is read. -/
lemma FlagsWritten.readFlags_eq (wellNamed : WellNamed flags)
    (h : FlagsWritten flags arguments given operands) :
    readFlags flags arguments = .ok (given, operands) := by
  induction h with
  | nothing => rfl
  | operand plain => rw [readFlags, Argument.of_eq_operand_iff.mpr plain]
  | flagsEnd => rfl
  | switchOn dashed known _ ih =>
    obtain ⟨flag, f, found, isSwitch⟩ := wellNamed.of_written dashed known none
    have on : switch? ((none : Option Text).getD (utf8 "true")) = some true := by decide
    simp only [readFlags, flag, found, isSwitch, if_true, on, ih, Given.before]
  | @switchSet _ _ value _ _ _ _ dashed known spelled _ ih =>
    obtain ⟨flag, f, found, isSwitch⟩ := wellNamed.of_written dashed known (some value)
    have on := switch?_eq_some_iff.mpr spelled
    simp only [readFlags, flag, found, isSwitch, if_true, Option.getD_some, on, ih, Given.before]
  | @textSet _ _ value _ _ _ dashed known _ ih =>
    obtain ⟨flag, f, found, isText⟩ := wellNamed.of_written dashed known (some value)
    simp only [readFlags, flag, found, isText, Bool.false_eq_true, if_false, ih, Given.before]
  | textNext dashed known _ ih =>
    obtain ⟨flag, f, found, isText⟩ := wellNamed.of_written dashed known none
    rw [readFlags]
    simp only [flag, found, isText, Bool.false_eq_true, if_false, ih, Given.before]

lemma readFlags_of_readLevel (h : readLevel flags arguments = .ok (given, operands)) :
    readFlags flags arguments = .ok (given, operands) := by
  unfold readLevel at h
  split at h
  · cases h
  next read =>
    split at h
    · cases h
    · cases h
      exact read

lemma readFlags_eq_ok_iff (wellNamed : WellNamed flags) :
    readFlags flags arguments = .ok (given, operands) ↔
      FlagsWritten flags arguments given operands :=
  ⟨written_of_readFlags, fun written => written.readFlags_eq wellNamed⟩

end Reading

namespace Given

section Last

variable {α : Type} {flag : α → Given} {given : List Given} {a : α}

/-- A flag with a value was given, and not given again behind that. -/
def Last (flag : α → Given) (given : List Given) (a : α) : Prop :=
  ∃ before after, given = before ++ flag a :: after ∧ ∀ b, flag b ∉ after

/-- The last value is the first one from behind. -/
lemma findSome?_reverse_eq_some_iff {value : Given → Option α}
    (spec : ∀ g a, value g = some a ↔ g = flag a) :
    given.reverse.findSome? value = some a ↔ Last flag given a := by
  rw [List.findSome?_eq_some_iff]
  constructor
  · rintro ⟨after, g, before, whole, found, none⟩
    refine ⟨before.reverse, after.reverse, ?_, ?_⟩
    · rw [← (spec g a).mp found]
      simpa using congrArg List.reverse whole
    · intro b mem
      have later := none (flag b) (List.mem_reverse.mp mem)
      rw [(spec _ b).mpr rfl] at later
      cases later
  · rintro ⟨before, after, rfl, none⟩
    refine ⟨after.reverse, flag a, before.reverse, by simp, (spec _ a).mpr rfl, ?_⟩
    intro g mem
    refine Option.eq_none_iff_forall_ne_some.mpr fun b found => none b ?_
    rw [← (spec g b).mp found]
    exact List.mem_reverse.mp mem

lemma findSome?_reverse_eq_none_iff {value : Given → Option α}
    (spec : ∀ g a, value g = some a ↔ g = flag a) :
    given.reverse.findSome? value = none ↔ ∀ a, flag a ∉ given := by
  rw [List.findSome?_eq_none_iff]
  constructor
  · intro none a mem
    have here := none (flag a) (List.mem_reverse.mpr mem)
    rw [(spec _ a).mpr rfl] at here
    cases here
  · intro none g mem
    refine Option.eq_none_iff_forall_ne_some.mpr fun a found => none a ?_
    rw [← (spec g a).mp found]
    exact List.mem_reverse.mp mem

end Last

variable {name value : Text} {given : List Given} {b : Bool}

lemma switchNamed_eq_some_iff (g : Given) (b : Bool) :
    switchNamed name g = some b ↔ g = switch name b := by
  cases g <;> simp [switchNamed]

lemma textNamed_eq_some_iff (g : Given) (t : Text) :
    textNamed name g = some t ↔ g = text name t := by
  cases g <;> simp [textNamed]

lemma switchValue_eq_some_iff : switchValue name given = some b ↔ Last (switch name) given b :=
  findSome?_reverse_eq_some_iff switchNamed_eq_some_iff

lemma switchValue_eq_none_iff : switchValue name given = none ↔ ∀ b, switch name b ∉ given :=
  findSome?_reverse_eq_none_iff switchNamed_eq_some_iff

lemma textValue_eq_some_iff : textValue name given = some value ↔ Last (text name) given value :=
  findSome?_reverse_eq_some_iff textNamed_eq_some_iff

lemma textValue_eq_none_iff : textValue name given = none ↔ ∀ t, text name t ∉ given :=
  findSome?_reverse_eq_none_iff textNamed_eq_some_iff

end Given

namespace Request

variable {arguments : List Text} {g : Globals} {c : Command} {on : Bool} {file : Option Text}

lemma helpOn_ne_run (owner : Topic) (name : Text) (asCommand : Bool) :
    helpOn owner name asCommand ≠ run g c on file := by
  unfold helpOn
  split
  · exact nofun
  · split <;> exact nofun

lemma ofHelp_ne_run (owner : Topic) (arguments : List Text) :
    ofHelp owner arguments ≠ run g c on file := by
  fun_induction ofHelp owner arguments with
  | case1 => exact nofun
  | case2 => exact nofun
  | case3 => exact nofun
  | case4 => exact helpOn_ne_run _ _ _
  | case5 _ _ _ _ _ _ _ _ _ ih => exact ih
  | case6 => exact helpOn_ne_run _ _ _

lemma globals_of_ofCommand {globals : Globals} {command : Command}
    (h : ofCommand globals command arguments = run g c on file) : g = globals := by
  unfold ofCommand at h
  split at h
  · cases h
  · split at h
    · exact absurd h (helpOn_ne_run _ _ _)
    · dsimp only at h
      split at h
      · cases h
        rfl
      · split at h
        · exact absurd h (ofHelp_ne_run _ _)
        · cases h
          rfl

/-- A command runs under the flags that are read before it. -/
lemma globals_of_ofArguments (asks : ofArguments arguments = run g c on file) :
    ∃ given operands, readFlags globalFlags arguments = .ok (given, operands) ∧
      g = .ofGiven given := by
  unfold ofArguments at asks
  split at asks
  · cases asks
  next given operands level =>
    refine ⟨given, operands, readFlags_of_readLevel level, ?_⟩
    split at asks
    · exact absurd asks (helpOn_ne_run _ _ _)
    · split at asks
      · cases asks
      · split at asks
        · cases asks
        · split at asks
          · exact absurd asks (ofHelp_ne_run _ _)
          · split at asks
            · exact globals_of_ofCommand asks
            · exact absurd asks (helpOn_ne_run _ _ _)

end Request

end ThreeAddress
