import Mathlib.Tactic.ByContra
import ThreeAddress.Proofs.ScopeEvents

/-!
# Scope as an order of events

A name is in scope if it was declared at an earlier place, and a declaration stands if there
is no earlier one of the same name. Both are said on positions in the list of events, with
no table. The table of a check holds the declarations met so far (`Table.listing`), so the
check gets through exactly if no position breaks a rule, and else reports the first that
does.
-/

namespace ThreeAddress

/-- The name that an event declares. -/
def ScopeEvent.declared? : ScopeEvent → Option Ident
  | declare id => some id
  | use _ => none

/-- The declarations among the events, in order. -/
def declarations (es : List ScopeEvent) : List Ident := es.filterMap ScopeEvent.declared?

/-- The name is declared at some position before `i`. -/
def DeclaredBefore (es : List ScopeEvent) (i : Nat) (name : Text) : Prop :=
  ∃ j < i, ∃ id, es[j]? = some (.declare id) ∧ id.name = name

/-- The event at position `i` is that violation. -/
inductive ViolatesAt (es : List ScopeEvent) (i : Nat) : Violation → Prop where
  | redeclared {id : Ident} (here : es[i]? = some (.declare id))
      (earlier : DeclaredBefore es i id.name) :
      ViolatesAt es i ⟨.redeclared, id.name, id.token⟩
  | undeclared {id : Ident} (here : es[i]? = some (.use id))
      (never : ¬ DeclaredBefore es i id.name) :
      ViolatesAt es i ⟨.undeclared, id.name, id.token⟩

/-- The violation at the least position that breaks a rule. -/
structure FirstViolation (es : List ScopeEvent) (i : Nat) (v : Violation) : Prop where
  violates : ViolatesAt es i v
  least : ∀ j < i, ∀ w, ¬ ViolatesAt es j w

/-- Each use comes behind a declaration of its name, and no name has two declarations. -/
structure InScope (es : List ScopeEvent) : Prop where
  declaredFirst : ∀ (i : Nat) (id : Ident), es[i]? = some (.use id) → DeclaredBefore es i id.name
  declaredOnce : ∀ (i j : Nat) (a b : Ident), es[i]? = some (.declare a) →
    es[j]? = some (.declare b) → a.name = b.name → i = j

/-- The table with those declarations, numbered from 0 in their order. -/
def Table.listing (ids : List Ident) : Table where
  symbols := ids.zipIdx.map fun (id, index) => ⟨id.name, index, id.token⟩
  count := ids.length

lemma inScope_iff (es : List ScopeEvent) : InScope es ↔ ∀ i v, ¬ ViolatesAt es i v := by
  constructor
  · rintro rules i v (⟨here, j, before, other, there, same⟩ | ⟨here, never⟩)
    · have equal := rules.declaredOnce j i other _ there here same
      omega
    · exact never (rules.declaredFirst i _ here)
  · intro clean
    have once : ∀ (i j : Nat) (a b : Ident), i < j → es[i]? = some (.declare a) →
        es[j]? = some (.declare b) → a.name ≠ b.name := by
      intro i j a b before first second same
      exact clean j _ (.redeclared second ⟨i, before, a, first, same⟩)
    constructor
    · intro i id here
      by_contra never
      exact clean i _ (.undeclared here never)
    · intro i j a b first second same
      rcases Nat.lt_trichotomy i j with before | equal | behind
      · exact absurd same (once i j a b before first second)
      · exact equal
      · exact absurd same.symm (once j i b a behind second first)

lemma ViolatesAt.unique {es : List ScopeEvent} {i : Nat} {v w : Violation}
    (hv : ViolatesAt es i v) (hw : ViolatesAt es i w) : v = w := by
  cases hv with
  | redeclared here _ =>
    cases hw with
    | redeclared there _ =>
      cases here.symm.trans there
      rfl
    | undeclared there _ => cases here.symm.trans there
  | undeclared here _ =>
    cases hw with
    | redeclared there _ => cases here.symm.trans there
    | undeclared there _ =>
      cases here.symm.trans there
      rfl

lemma FirstViolation.unique {es : List ScopeEvent} {i j : Nat} {v w : Violation}
    (hv : FirstViolation es i v) (hw : FirstViolation es j w) : v = w := by
  rcases Nat.lt_trichotomy i j with before | rfl | behind
  · exact absurd hv.violates (hw.least i before v)
  · exact hv.violates.unique hw.violates
  · exact absurd hw.violates (hv.least j behind w)

lemma declarations_append (es fs : List ScopeEvent) :
    declarations (es ++ fs) = declarations es ++ declarations fs :=
  List.filterMap_append

@[simp] lemma declarations_nil : declarations [] = [] := rfl

@[simp] lemma declarations_declare (id : Ident) : declarations [.declare id] = [id] := rfl

@[simp] lemma declarations_use (id : Ident) : declarations [.use id] = [] := rfl

lemma mem_declarations {es : List ScopeEvent} {id : Ident} :
    id ∈ declarations es ↔ .declare id ∈ es := by
  rw [declarations, List.mem_filterMap]
  constructor
  · rintro ⟨e, mem, same⟩
    cases e with
    | declare other =>
      cases same
      exact mem
    | use other => cases same
  · intro mem
    exact ⟨.declare id, mem, rfl⟩

/-- What is declared before a position are the declarations of the events up to there. -/
lemma declaredBefore_append_iff {before after : List ScopeEvent} {name : Text} :
    DeclaredBefore (before ++ after) before.length name ↔
      ∃ id ∈ declarations before, id.name = name := by
  constructor
  · rintro ⟨j, hj, id, there, same⟩
    rw [List.getElem?_append_left hj] at there
    exact ⟨id, mem_declarations.mpr (List.mem_of_getElem? there), same⟩
  · rintro ⟨id, mem, same⟩
    obtain ⟨j, hj, there⟩ := List.getElem_of_mem (mem_declarations.mp mem)
    refine ⟨j, hj, id, ?_, same⟩
    rw [List.getElem?_append_left hj, List.getElem?_eq_getElem hj, there]

namespace Table

/-- The table with further declarations, numbered on from its count. -/
def extend (t : Table) (ids : List Ident) : Table where
  symbols := t.symbols ++ (ids.zipIdx t.count).map fun (id, index) => ⟨id.name, index, id.token⟩
  count := t.count + ids.length

/-- The symbols of the table as the events that declare them. -/
def held (t : Table) : List ScopeEvent := t.symbols.map fun s => .declare ⟨s.token, s.name⟩

@[simp] lemma held_empty : empty.held = [] := rfl

lemma extend_empty (ids : List Ident) : empty.extend ids = listing ids := by
  simp [extend, listing, empty]

@[simp] lemma extend_nil (t : Table) : t.extend [] = t := by
  simp [extend]

lemma declarations_held (t : Table) :
    declarations t.held = t.symbols.map fun s => ⟨s.token, s.name⟩ := by
  simp [declarations, held, List.filterMap_map, Function.comp_def, ScopeEvent.declared?]

lemma exists_symbol_extend (t : Table) (before : List ScopeEvent) (name : Text) :
    (∃ s ∈ (t.extend (declarations before)).symbols, s.name = name) ↔
      ∃ id ∈ declarations (t.held ++ before), id.name = name := by
  rw [declarations_append, declarations_held]
  constructor
  · rintro ⟨s, mem, same⟩
    rcases List.mem_append.mp mem with old | new
    · exact ⟨_, List.mem_append_left _ (List.mem_map.mpr ⟨s, old, rfl⟩), same⟩
    · obtain ⟨⟨id, index⟩, hid, rfl⟩ := List.mem_map.mp new
      exact ⟨id, List.mem_append_right _ (List.fst_mem_of_mem_zipIdx hid), same⟩
  · rintro ⟨id, mem, same⟩
    rcases List.mem_append.mp mem with old | new
    · obtain ⟨s, hs, rfl⟩ := List.mem_map.mp old
      exact ⟨s, List.mem_append_left _ hs, same⟩
    · obtain ⟨i, bound, there⟩ := List.getElem_of_mem new
      have listed : (id, t.count + i) ∈ (declarations before).zipIdx t.count := by
        rw [List.mk_add_mem_zipIdx_iff_getElem?, List.getElem?_eq_getElem bound, there]
      exact ⟨_, List.mem_append_right _ (List.mem_map.mpr ⟨_, listed, rfl⟩), same⟩

/-- The names of an extended table are those declared so far. -/
lemma isSome_resolve_extend (t : Table) (before : List ScopeEvent) (name : Text) :
    ((t.extend (declarations before)).resolve name).isSome ↔
      ∃ id ∈ declarations (t.held ++ before), id.name = name := by
  rw [← exists_symbol_extend, resolve, List.find?_isSome]
  simp

/-- A new name goes to the end of the list. -/
lemma define_of_resolve_eq_none {t : Table} {name : Text} (new : t.resolve name = none)
    (token : Token) :
    (t.define name token).2 = ⟨t.symbols ++ [⟨name, t.count, token⟩], t.count + 1⟩ := by
  have kept : t.symbols.filter (·.name ≠ name) = t.symbols := by
    rw [List.filter_eq_self]
    intro s mem
    simpa using List.find?_eq_none.mp new s mem
  rw [define, kept]

lemma define_extend {t : Table} {ids : List Ident} {id : Ident}
    (new : (t.extend ids).resolve id.name = none) :
    ((t.extend ids).define id.name id.token).2 = t.extend (ids ++ [id]) := by
  rw [define_of_resolve_eq_none new]
  simp [extend, List.zipIdx_append, Nat.add_assoc]

/-- With the earlier declarations in its table, a step either adds the event at hand or finds
that its position breaks a rule. -/
lemma meet_extend (t : Table) (before after : List ScopeEvent) (e : ScopeEvent) :
    ((t.extend (declarations before)).meet e =
        ⟨t.extend (declarations (before ++ [e])), none⟩ ∧
      ∀ w, ¬ ViolatesAt (t.held ++ before ++ e :: after) (t.held ++ before).length w) ∨
    ∃ v, (t.extend (declarations before)).meet e = ⟨t.extend (declarations before), some v⟩ ∧
      ViolatesAt (t.held ++ before ++ e :: after) (t.held ++ before).length v := by
  have here : (t.held ++ before ++ e :: after)[(t.held ++ before).length]? = some e := by simp
  have earlier (name : Text) :
      DeclaredBefore (t.held ++ before ++ e :: after) (t.held ++ before).length name ↔
        ((t.extend (declarations before)).resolve name).isSome :=
    declaredBefore_append_iff.trans (isSome_resolve_extend t before name).symm
  cases e with
  | declare id =>
    cases found : (t.extend (declarations before)).resolve id.name with
    | some s =>
      refine Or.inr ⟨⟨.redeclared, id.name, id.token⟩, by simp [meet, declare, found], ?_⟩
      exact .redeclared here ((earlier id.name).mpr (by simp [found]))
    | none =>
      refine Or.inl ⟨?_, ?_⟩
      · simp [meet, declare, found, define_extend found, declarations_append]
      · rintro w (⟨there, twice⟩ | ⟨there, never⟩)
        · cases here.symm.trans there
          exact absurd ((earlier id.name).mp twice) (by simp [found])
        · cases here.symm.trans there
  | use id =>
    cases found : (t.extend (declarations before)).resolve id.name with
    | some s =>
      refine Or.inl ⟨?_, ?_⟩
      · simp [meet, use, found, declarations_append]
      · rintro w (⟨there, twice⟩ | ⟨there, never⟩)
        · cases here.symm.trans there
        · cases here.symm.trans there
          exact never ((earlier id.name).mpr (by simp [found]))
    | none =>
      refine Or.inr ⟨⟨.undeclared, id.name, id.token⟩, by simp [meet, use, found], ?_⟩
      exact .undeclared here fun declared =>
        absurd ((earlier id.name).mp declared) (by simp [found])

/-- A whole replay adds all the declarations, or stops at the first position that breaks a
rule with the declarations before it. -/
lemma replay_extend (t : Table) (before after : List ScopeEvent)
    (clean : ∀ j < (t.held ++ before).length, ∀ w, ¬ ViolatesAt (t.held ++ (before ++ after)) j w) :
    ((t.extend (declarations before)).replay after =
        ⟨t.extend (declarations (before ++ after)), none⟩ ∧
      ∀ j w, ¬ ViolatesAt (t.held ++ (before ++ after)) j w) ∨
    ∃ i v, (t.extend (declarations before)).replay after =
        ⟨t.extend (declarations ((before ++ after).take i)), some v⟩ ∧
      FirstViolation (t.held ++ (before ++ after)) (t.held.length + i) v := by
  induction after generalizing before with
  | nil =>
    refine Or.inl ⟨by simp, ?_⟩
    intro j w violates
    by_cases hj : j < (t.held ++ before).length
    · exact clean j hj w violates
    · have none : (t.held ++ (before ++ []))[j]? = none := by simpa using hj
      rcases violates with ⟨here, _⟩ | ⟨here, _⟩ <;> cases none.symm.trans here
  | cons e after ih =>
    rw [replay_cons]
    have split : t.held ++ (before ++ e :: after) = t.held ++ before ++ e :: after := by simp
    rcases meet_extend t before after e with ⟨met, fine⟩ | ⟨v, met, violates⟩
    · rw [met]
      have clean' : ∀ j < (t.held ++ (before ++ [e])).length, ∀ w,
          ¬ ViolatesAt (t.held ++ ((before ++ [e]) ++ after)) j w := by
        intro j hj w
        rw [List.append_assoc before, List.singleton_append]
        rw [← List.append_assoc, List.length_append, List.length_singleton] at hj
        rcases Nat.lt_succ_iff_lt_or_eq.mp hj with before' | rfl
        · exact clean j before' w
        · exact split ▸ fine w
      simpa [Verdict.andThen] using ih (before ++ [e]) clean'
    · rw [met]
      refine Or.inr ⟨before.length, v, by simp [Verdict.andThen], ?_⟩
      rw [← List.length_append]
      exact ⟨split ▸ violates, clean⟩

end Table

lemma Table.replay_empty (es : List ScopeEvent) :
    (Table.empty.replay es = ⟨Table.listing (declarations es), none⟩ ∧
      ∀ j w, ¬ ViolatesAt es j w) ∨
    ∃ i v, Table.empty.replay es = ⟨Table.listing (declarations (es.take i)), some v⟩ ∧
      FirstViolation es i v := by
  have all := Table.replay_extend .empty [] es (by simp)
  rw [declarations_nil, Table.extend_nil] at all
  simpa [Table.extend_empty] using all

/-- A check gets through exactly if all names are in scope, and its table then lists the
declarations. Otherwise it reports the violation at the first position that breaks a rule. -/
theorem check_reports_first_violation (p : Program) :
    (∀ t, Program.check p = .ok t ↔
      InScope (Stmt.eventsAll p) ∧ t = Table.listing (declarations (Stmt.eventsAll p))) ∧
    ∀ v, Program.check p = .error v ↔ ∃ i, FirstViolation (Stmt.eventsAll p) i v := by
  rw [Program.check, Stmt.checkAll_eq_replay, inScope_iff]
  rcases Table.replay_empty (Stmt.eventsAll p) with ⟨replayed, clean⟩ | ⟨i, v, replayed, first⟩
  · rw [replayed]
    refine ⟨fun t => ?_, fun v => ?_⟩
    · simp [Verdict.toExcept, clean, eq_comm]
    · constructor
      · intro error
        cases error
      · rintro ⟨i, first⟩
        exact absurd first.violates (clean i v)
  · rw [replayed]
    refine ⟨fun t => ?_, fun w => ?_⟩
    · constructor
      · intro ok
        cases ok
      · rintro ⟨clean, _⟩
        exact absurd first.violates (clean i v)
    · constructor
      · intro error
        cases error
        exact ⟨i, first⟩
      · rintro ⟨j, other⟩
        rw [first.unique other]
        rfl

end ThreeAddress
