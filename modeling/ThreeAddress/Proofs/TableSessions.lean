import Mathlib.Data.List.Induction
import Mathlib.Data.List.Nodup
import ThreeAddress.Proofs.ScopeOrder

/-!
# Tables over a session

One table serves a whole session: trees are checked against it, some with a violation, and
in between names are defined and looked up. In whatever order this happens, a name has at
most one symbol and the symbols are numbered upwards (`Table.Filed`), so their order can be
told from the symbols alone. A check only adds to the table. A definition may also replace a
symbol, and from then on the count is ahead of the symbols.
-/

namespace ThreeAddress

/-- The events of a node in source order. -/
def Node.events : Node → List ScopeEvent
  | program p => Stmt.eventsAll p
  | stmt s => s.events
  | expr e => e.events

lemma Node.check_eq_replay (n : Node) (t : Table) : n.check t = t.replay n.events := by
  cases n with
  | program p => exact Stmt.checkAll_eq_replay t p
  | stmt s => exact Stmt.check_eq_replay t s
  | expr e => exact (e.replay_events t).symm

namespace Table

inductive Step where
  /-- Checks a node, which may end in a violation. -/
  | check (n : Node)
  | define (name : Text) (token : Token)
  | resolve (name : Text)
  deriving Repr

/-- The table after one step. -/
def step (t : Table) : Step → Table
  | .check n => (n.check t).table
  | .define name token => (t.define name token).2
  | .resolve _ => t

/-- The table after a session that begins with nothing defined. -/
def after (steps : List Step) : Table := steps.foldl step .empty

lemma after_concat (steps : List Step) (st : Step) :
    after (steps ++ [st]) = (after steps).step st := by
  rw [after, List.foldl_concat, after]

/-- No name has two symbols, and the symbols are numbered upwards below the count. -/
structure Filed (t : Table) : Prop where
  names : (t.symbols.map Symbol.name).Nodup
  upwards : t.symbols.Pairwise (·.index < ·.index)
  below : ∀ s ∈ t.symbols, s.index < t.count

/-- The list holds each symbol that can be looked up once, in any order. -/
structure Enumerates (t : Table) (listed : List Symbol) : Prop where
  once : listed.Nodup
  mem_iff : ∀ s, s ∈ listed ↔ ∃ name, t.resolve name = some s

/-- No step defines a name that is in the table by then. -/
def NeverReplaces (steps : List Step) : Prop :=
  ∀ before name token rest, steps = before ++ .define name token :: rest →
    (after before).resolve name = none

/-- Whatever holds of a table and is kept when a new name is defined holds after any
replay. -/
lemma replay_keeps {P : Table → Prop} {t : Table} (start : P t)
    (define : ∀ (u : Table) (id : Ident), P u → u.resolve id.name = none →
      P (u.define id.name id.token).2) (es : List ScopeEvent) : P (t.replay es).table := by
  induction es generalizing t with
  | nil => exact start
  | cons e es ih =>
    rw [replay_cons]
    cases e with
    | declare id =>
      cases found : t.resolve id.name with
      | some s => simpa [meet, declare, found, Verdict.andThen] using start
      | none =>
        simpa [meet, declare, found, Verdict.andThen] using ih (define t id start found)
    | use id =>
      cases found : t.resolve id.name with
      | some s => simpa [meet, use, found, Verdict.andThen] using ih start
      | none => simpa [meet, use, found, Verdict.andThen] using start

lemma filed_empty : empty.Filed := ⟨List.nodup_nil, .nil, by simp [empty]⟩

/-- A definition puts its symbol behind all the others. -/
lemma Filed.define {t : Table} (h : t.Filed) (name : Text) (token : Token) :
    (t.define name token).2.Filed := by
  have kept : (t.symbols.filter (·.name ≠ name)).Sublist t.symbols := List.filter_sublist
  refine ⟨?_, ?_, ?_⟩
  · simp only [Table.define, List.map_append, List.map_cons, List.map_nil]
    rw [List.nodup_append]
    refine ⟨h.names.sublist (kept.map _), List.nodup_singleton name, ?_⟩
    intro a ha b hb
    obtain ⟨s, hs, rfl⟩ := List.mem_map.mp ha
    rw [List.mem_singleton.mp hb]
    simpa using (List.mem_filter.mp hs).2
  · simp only [Table.define]
    rw [List.pairwise_append]
    refine ⟨h.upwards.sublist kept, List.pairwise_singleton _ _, ?_⟩
    intro a ha b hb
    rw [List.mem_singleton.mp hb]
    exact h.below a (kept.subset ha)
  · intro s hs
    rcases List.mem_append.mp hs with old | new
    · exact Nat.lt_succ_of_lt (h.below s (kept.subset old))
    · rw [List.mem_singleton.mp new]
      exact Nat.lt_succ_self t.count

lemma Filed.step {t : Table} (h : t.Filed) (st : Step) : (t.step st).Filed := by
  cases st with
  | check n =>
    rw [Table.step, n.check_eq_replay]
    exact replay_keeps h (fun u id hu _ => hu.define id.name id.token) n.events
  | define name token => exact h.define name token
  | resolve name => exact h

lemma filed_after (steps : List Step) : (after steps).Filed := by
  induction steps using List.reverseRecOn with
  | nil => exact filed_empty
  | append_singleton steps st ih =>
    rw [after_concat]
    exact ih.step st

/-! What can be looked up. -/

/-- The symbols of the table are those that are found under their own names. -/
lemma Filed.resolve_eq_some_iff {t : Table} (h : t.Filed) (name : Text) (s : Symbol) :
    t.resolve name = some s ↔ s ∈ t.symbols ∧ s.name = name := by
  constructor
  · intro found
    exact ⟨List.mem_of_find?_eq_some found, by simpa using List.find?_some found⟩
  · rintro ⟨mem, rfl⟩
    cases found : t.resolve s.name with
    | none => simpa using List.find?_eq_none.mp found s mem
    | some other =>
      have same : other.name = s.name := by simpa using List.find?_some found
      rw [List.inj_on_of_nodup_map h.names (List.mem_of_find?_eq_some found) mem same]

lemma Filed.eq_of_index_eq {t : Table} (h : t.Filed) {a b : Symbol} (ha : a ∈ t.symbols)
    (hb : b ∈ t.symbols) (same : a.index = b.index) : a = b := by
  have distinct : (t.symbols.map Symbol.index).Nodup :=
    (List.pairwise_map.mpr h.upwards).imp Nat.ne_of_lt
  exact List.inj_on_of_nodup_map distinct ha hb same

/-- The enumerations of the table are the rearrangements of its symbols. -/
lemma Filed.enumerates_iff {t : Table} (h : t.Filed) (listed : List Symbol) :
    t.Enumerates listed ↔ listed.Perm t.symbols := by
  have once : t.symbols.Nodup := List.Nodup.of_map _ h.names
  have found (s : Symbol) : s ∈ t.symbols ↔ ∃ name, t.resolve name = some s := by
    simp [h.resolve_eq_some_iff]
  constructor
  · intro all
    rw [List.perm_ext_iff_of_nodup all.once once]
    intro s
    rw [all.mem_iff, found]
  · intro perm
    refine ⟨perm.nodup_iff.mpr once, ?_⟩
    intro s
    rw [perm.mem_iff, found]

/-- Putting the symbols in the order of their indices gives the same list, however they were
enumerated. No two indices are equal, so it does not matter how such would be sorted. -/
lemma Filed.eq_symbols {t : Table} (h : t.Filed) {listed sorted : List Symbol}
    (all : t.Enumerates listed) (perm : sorted.Perm listed)
    (ordered : sorted.Pairwise (·.index ≤ ·.index)) : sorted = t.symbols := by
  have same : sorted.Perm t.symbols := perm.trans ((h.enumerates_iff listed).mp all)
  refine List.Perm.eq_of_pairwise ?_ ordered (h.upwards.imp Nat.le_of_lt) same
  intro a b ha hb le ge
  exact h.eq_of_index_eq (same.subset ha) hb (Nat.le_antisymm le ge)

/-- A check finds what it found before under every name that was there. -/
lemma resolve_check {t : Table} {name : Text} {s : Symbol} (h : t.resolve name = some s)
    (n : Node) : (n.check t).table.resolve name = some s := by
  rw [n.check_eq_replay]
  refine replay_keeps (P := fun u => u.resolve name = some s) h ?_ n.events
  intro u id hu new
  have other : name ≠ id.name := by
    rintro rfl
    cases hu.symm.trans new
  rw [resolve_define_of_ne u id.token other]
  exact hu

lemma isSome_resolve_step {t : Table} {name : Text} (h : (t.resolve name).isSome) (st : Step) :
    ((t.step st).resolve name).isSome := by
  cases st with
  | check n =>
    obtain ⟨s, hs⟩ := Option.isSome_iff_exists.mp h
    exact Option.isSome_iff_exists.mpr ⟨s, resolve_check hs n⟩
  | define other token =>
    by_cases same : name = other
    · subst same
      simp [step, resolve_define_self]
    · rw [step, resolve_define_of_ne t token same]
      exact h
  | resolve other => exact h

/-! How many symbols there are. -/

/-- A check counts what it adds. -/
lemma count_check (t : Table) (n : Node) : (n.check t).table.count + t.symbols.length =
    t.count + (n.check t).table.symbols.length := by
  rw [n.check_eq_replay]
  refine replay_keeps (P := fun u => u.count + t.symbols.length = t.count + u.symbols.length)
    rfl ?_ n.events
  intro u id hu new
  rw [define_of_resolve_eq_none new, List.length_append, List.length_singleton]
  dsimp only
  omega

lemma length_define_le {t : Table} {name : Text} (h : (t.resolve name).isSome) (token : Token) :
    (t.define name token).2.symbols.length ≤ t.symbols.length := by
  obtain ⟨s, found⟩ := Option.isSome_iff_exists.mp h
  have dropped : (t.symbols.filter (·.name ≠ name)).length < t.symbols.length := by
    rw [List.length_filter_lt_length_iff_exists]
    exact ⟨s, List.mem_of_find?_eq_some found, by simpa using List.find?_some found⟩
  rw [define, List.length_append, List.length_singleton]
  exact dropped

lemma count_le_step (t : Table) (st : Step) : t.count ≤ (t.step st).count := by
  cases st with
  | check n =>
    rw [step, n.check_eq_replay]
    refine replay_keeps (P := fun u => t.count ≤ u.count) (Nat.le_refl t.count) ?_ n.events
    intro u id hu _
    exact Nat.le_succ_of_le hu
  | define name token => exact Nat.le_succ t.count
  | resolve name => exact Nat.le_refl t.count

lemma neverReplaces_concat (steps : List Step) (st : Step) : NeverReplaces (steps ++ [st]) ↔
    NeverReplaces steps ∧
      ∀ name token, st = .define name token → (after steps).resolve name = none := by
  constructor
  · intro h
    refine ⟨?_, ?_⟩
    · rintro before name token rest rfl
      exact h before name token (rest ++ [st]) (by simp)
    · rintro name token rfl
      exact h steps name token [] rfl
  · rintro ⟨earlier, last⟩ before name token rest split
    rcases rest.eq_nil_or_concat with rfl | ⟨rest, other, rfl⟩
    · obtain ⟨rfl, same⟩ := List.append_inj' split rfl
      exact last name token (List.cons.inj same).1
    · rw [List.concat_eq_append, ← List.cons_append, ← List.append_assoc] at split
      exact earlier before name token rest (List.append_inj' split rfl).1

/-- The count is the number of symbols as long as no symbol is replaced, and greater from
then on. -/
lemma count_after (steps : List Step) : (after steps).symbols.length ≤ (after steps).count ∧
    ((after steps).count = (after steps).symbols.length ↔ NeverReplaces steps) := by
  induction steps using List.reverseRecOn with
  | nil => simp [after, empty, NeverReplaces]
  | append_singleton steps st ih =>
    obtain ⟨le, iff⟩ := ih
    rw [neverReplaces_concat, after_concat, ← iff]
    cases st with
    | check n =>
      have added := count_check (after steps) n
      simp only [step, reduceCtorEq, false_implies, implies_true, and_true]
      omega
    | define name token =>
      cases found : (after steps).resolve name with
      | some s =>
        have there : ((after steps).resolve name).isSome := by simp [found]
        have replaced := length_define_le there token
        have grown : ((after steps).define name token).2.count = (after steps).count + 1 := rfl
        simp only [step, Step.define.injEq]
        refine ⟨by omega, ?_, ?_⟩
        · intro same
          omega
        · rintro ⟨_, new⟩
          cases found.symm.trans (new name token ⟨rfl, rfl⟩)
      | none =>
        rw [step, define_of_resolve_eq_none found]
        simp [found, le]
    | resolve name => simpa [step] using le

/-! Where a check stops. -/

/-- The symbols of the table break no rule among themselves. -/
lemma Filed.clean_held {t : Table} (h : t.Filed) (es : List ScopeEvent) :
    ∀ j < t.held.length, ∀ w, ¬ ViolatesAt (t.held ++ es) j w := by
  have symbol {j : Nat} {e : ScopeEvent} (hj : j < t.held.length)
      (at_j : (t.held ++ es)[j]? = some e) :
      ∃ s, t.symbols[j]? = some s ∧ e = .declare ⟨s.token, s.name⟩ := by
    rw [List.getElem?_append_left hj, held, List.getElem?_map, Option.map_eq_some_iff] at at_j
    obtain ⟨s, hs, rfl⟩ := at_j
    exact ⟨s, hs, rfl⟩
  rintro j hj w (⟨here, i, hi, other, there, same⟩ | ⟨here, _⟩)
  · obtain ⟨s, hs, hid⟩ := symbol hj here
    obtain ⟨s', hs', hother⟩ := symbol (Nat.lt_trans hi hj) there
    cases hid
    cases hother
    have bound : j < (t.symbols.map Symbol.name).length := by simpa [held] using hj
    refine List.nodup_iff_getElem?_ne_getElem?.mp h.names i j hi bound ?_
    rw [List.getElem?_map, List.getElem?_map, hs, hs']
    exact congrArg some same
  · obtain ⟨s, _, hid⟩ := symbol hj here
    cases hid

/-- With the symbols of the table declared in front of it, a node breaks no rule and all its
declarations are added, or those before its first violation are. -/
lemma Filed.check_cases {t : Table} (h : t.Filed) (n : Node) :
    (n.check t = ⟨t.extend (declarations n.events), none⟩ ∧
      ∀ j w, ¬ ViolatesAt (t.held ++ n.events) j w) ∨
    ∃ i v, n.check t = ⟨t.extend (declarations (n.events.take i)), some v⟩ ∧
      FirstViolation (t.held ++ n.events) (t.held.length + i) v := by
  rw [n.check_eq_replay]
  simpa using replay_extend t [] n.events (by simpa using h.clean_held n.events)

/-- After any session each symbol is found under its own name, the symbols are numbered
upwards below the count, and their listing does not depend on how they are enumerated. Names
stay and the count never falls. It is the number of symbols exactly if no definition replaced
one. A check changes no symbol that is there, and adds the declarations up to its first
violation in their order. -/
theorem session_keeps_table (steps : List Step) :
    (∀ name s, (after steps).resolve name = some s ↔
      s ∈ (after steps).symbols ∧ s.name = name) ∧
    (after steps).symbols.Pairwise (·.index < ·.index) ∧
    (∀ s ∈ (after steps).symbols, s.index < (after steps).count) ∧
    (∀ listed sorted, (after steps).Enumerates listed → sorted.Perm listed →
      sorted.Pairwise (·.index ≤ ·.index) → sorted = (after steps).symbols) ∧
    (∀ more, (after steps).count ≤ (after (steps ++ more)).count ∧
      ∀ name, ((after steps).resolve name).isSome →
        ((after (steps ++ more)).resolve name).isSome) ∧
    ((after steps).count = (after steps).symbols.length ↔ NeverReplaces steps) ∧
    ∀ n : Node,
      (∀ name s, (after steps).resolve name = some s →
        (n.check (after steps)).table.resolve name = some s) ∧
      ((n.check (after steps)).violation = none →
        (n.check (after steps)).table = (after steps).extend (declarations n.events)) ∧
      ∀ v, (n.check (after steps)).violation = some v →
        ∃ i, FirstViolation ((after steps).held ++ n.events) ((after steps).held.length + i) v ∧
          (n.check (after steps)).table =
            (after steps).extend (declarations (n.events.take i)) := by
  have filed := filed_after steps
  refine ⟨filed.resolve_eq_some_iff, filed.upwards, filed.below, ?_, ?_, (count_after steps).2, ?_⟩
  · intro listed sorted all perm ordered
    exact filed.eq_symbols all perm ordered
  · intro more
    induction more using List.reverseRecOn with
    | nil => simp
    | append_singleton more st ih =>
      rw [← List.append_assoc, after_concat]
      refine ⟨Nat.le_trans ih.1 (count_le_step _ st), ?_⟩
      intro name found
      exact isSome_resolve_step (ih.2 name found) st
  · intro n
    refine ⟨fun name s found => resolve_check found n, ?_⟩
    rcases filed.check_cases n with ⟨checked, _⟩ | ⟨i, v, checked, first⟩
    · rw [checked]
      exact ⟨fun _ => rfl, fun v violation => by cases violation⟩
    · rw [checked]
      refine ⟨fun clean => (by cases clean), ?_⟩
      rintro w violation
      cases violation
      exact ⟨i, first, rfl⟩

/-- `int name;` -/
def declaring (name : Text) : Stmt :=
  .declare ⟨.keyword, "int", 1, 1⟩ ⟨⟨.identifier, name, 1, 5⟩, name⟩

/-- A name is declared, replaced, and kept by a check that fails behind one declaration. -/
theorem session_keeps_table_replaced : ∃ (steps : List Step) (n : Node),
    (after steps).symbols.map (fun s => (s.name, s.index)) = [(utf8 "y", 1), (utf8 "x", 2)] ∧
    (after steps).count = 3 ∧ ¬ NeverReplaces steps ∧
    (∀ sorted, sorted.Perm (after steps).symbols.reverse →
      sorted.Pairwise (·.index ≤ ·.index) → sorted = (after steps).symbols) ∧
    (n.check (after steps)).table.symbols.map (fun s => (s.name, s.index)) =
      [(utf8 "y", 1), (utf8 "x", 2), (utf8 "z", 3)] ∧
    ∃ i v, FirstViolation ((after steps).held ++ n.events) ((after steps).held.length + i) v ∧
      v.name = utf8 "w" := by
  let steps : List Step :=
    [.check (.program [declaring "x", declaring "y"]), .define "x" ⟨.identifier, "x", 2, 1⟩,
      .resolve "w"]
  let use : Stmt := .print ⟨.keyword, "print", 1, 8⟩ (.var ⟨⟨.identifier, "w", 1, 14⟩, "w"⟩)
  let n : Node := .program [declaring "z", use, declaring "v"]
  obtain ⟨_, _, _, order, _, replaces, checks⟩ := session_keeps_table steps
  have counted : (after steps).count ≠ (after steps).symbols.length := by decide +kernel
  have failed : (n.check (after steps)).violation =
      some ⟨.undeclared, "w", ⟨.identifier, "w", 1, 14⟩⟩ := by decide +kernel
  obtain ⟨i, first, _⟩ := (checks n).2.2 _ failed
  have reversed : (after steps).Enumerates (after steps).symbols.reverse :=
    ((filed_after steps).enumerates_iff _).mpr (List.reverse_perm _)
  refine ⟨steps, n, by decide +kernel, by decide +kernel, mt replaces.mpr counted, ?_,
    by decide +kernel, i, _, first, rfl⟩
  exact fun sorted perm ordered => order _ sorted reversed perm ordered

end Table
end ThreeAddress
