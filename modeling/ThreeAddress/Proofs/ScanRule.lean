import ThreeAddress.Proofs.ScopeOrder

/-!
# The rule of the token scan

The scan asks nothing of a token list, so its rule is about any list: a name right behind the
word `int` is declared there and every other name is used. The rule is said on indices, with no
table and no order of events. The events of the list are those at its indices in order
(`Token.events_eq_valuesBelow`), so an index stands for the place of its event (`Token.rank`),
and the order of events can be told by indices.
-/

namespace ThreeAddress

/-! The values that a function has below some index. -/

section Values

variable {α : Type} (f : Nat → Option α)

/-- The values at the indices below `n`, in order. -/
def valuesBelow (n : Nat) : List α := (List.range n).filterMap f

lemma valuesBelow_succ (n : Nat) : valuesBelow f (n + 1) = valuesBelow f n ++ (f n).toList := by
  rw [valuesBelow, List.range_succ, List.filterMap_append]
  cases h : f n <;> simp [valuesBelow, h]

lemma valuesBelow_succ_eq_append (n : Nat) :
    valuesBelow f (n + 1) = (f 0).toList ++ valuesBelow (fun i => f (i + 1)) n := by
  rw [valuesBelow, List.range_succ_eq_map, List.filterMap_cons, List.filterMap_map]
  cases f 0 <;> rfl

lemma valuesBelow_mono {i n : Nat} (le : i ≤ n) : valuesBelow f i <+: valuesBelow f n := by
  induction le with
  | refl => exact List.prefix_refl _
  | step _ ih =>
    apply ih.trans
    rw [valuesBelow_succ]
    exact List.prefix_append _ _

variable {f}

lemma valuesBelow_of_eq_some {i : Nat} {a : α} (h : f i = some a) :
    valuesBelow f (i + 1) = valuesBelow f i ++ [a] := by
  rw [valuesBelow_succ, h, Option.toList_some]

/-- A value stands behind those of the smaller indices. -/
lemma getElem?_valuesBelow {i n : Nat} {a : α} (h : f i = some a) (lt : i < n) :
    (valuesBelow f n)[(valuesBelow f i).length]? = some a := by
  have begins := valuesBelow_mono f (Nat.succ_le_of_lt lt)
  rw [valuesBelow_of_eq_some h] at begins
  obtain ⟨rest, whole⟩ := begins
  rw [← whole]
  simp

/-- Each of the values belongs to an index. -/
lemma exists_of_getElem?_valuesBelow {n k : Nat} {a : α} (h : (valuesBelow f n)[k]? = some a) :
    ∃ i, f i = some a ∧ (valuesBelow f i).length = k := by
  induction n with
  | zero => cases h
  | succ n ih =>
    rw [valuesBelow_succ, List.getElem?_append] at h
    split at h
    · exact ih h
    · cases last : f n with
      | none => simp [last] at h
      | some b =>
        rw [last, Option.toList_some, List.getElem?_singleton] at h
        split at h
        · cases h
          exact ⟨n, last, by omega⟩
        · cases h

lemma length_valuesBelow_lt {i j : Nat} {a : α} (h : f i = some a) (lt : i < j) :
    (valuesBelow f i).length < (valuesBelow f j).length := by
  have longer := (valuesBelow_mono f (Nat.succ_le_of_lt lt)).length_le
  rw [valuesBelow_of_eq_some h, List.length_append, List.length_singleton] at longer
  exact longer

lemma lt_of_length_valuesBelow_lt {i j : Nat}
    (lt : (valuesBelow f i).length < (valuesBelow f j).length) : i < j := by
  apply Nat.lt_of_not_le
  intro le
  have shorter := (valuesBelow_mono f le).length_le
  omega

end Values

namespace Token

/-! The rule. -/

/-- The index is right behind a word `int`. -/
def BehindInt (ts : List Token) (i : Nat) : Prop :=
  0 < i ∧ ∃ word ∈ ts[i - 1]?, word.Is .keyword "int"

instance (ts : List Token) (i : Nat) : Decidable (BehindInt ts i) :=
  inferInstanceAs (Decidable (_ ∧ _))

/-- The name at an index, if there is one. -/
def nameAt? (ts : List Token) (i : Nat) : Option Token := ts[i]?.filter (·.kind = .identifier)

/-- The name that is declared at an index. -/
def declaredAt? (ts : List Token) (i : Nat) : Option Token :=
  if BehindInt ts i then nameAt? ts i else none

/-- The name that is used at an index. -/
def usedAt? (ts : List Token) (i : Nat) : Option Token :=
  if BehindInt ts i then none else nameAt? ts i

/-- The name is declared at some index before `i`. -/
def DeclaredEarlier (ts : List Token) (i : Nat) (name : Text) : Prop :=
  ∃ j < i, ∃ d, declaredAt? ts j = some d ∧ d.lexeme = name

/-- Each use comes behind a declaration of its name, and no name is declared at two indices. -/
structure NamesInScope (ts : List Token) : Prop where
  declaredFirst : ∀ i t, usedAt? ts i = some t → DeclaredEarlier ts i t.lexeme
  declaredOnce : ∀ i j a b, declaredAt? ts i = some a → declaredAt? ts j = some b →
    a.lexeme = b.lexeme → i = j

/-- The name at the index `i` breaks the rule. -/
inductive OffendsAt (ts : List Token) (i : Nat) : Violation → Prop where
  | redeclared {t : Token} (here : declaredAt? ts i = some t)
      (earlier : DeclaredEarlier ts i t.lexeme) : OffendsAt ts i ⟨.redeclared, t.lexeme, t⟩
  | undeclared {t : Token} (here : usedAt? ts i = some t)
      (never : ¬ DeclaredEarlier ts i t.lexeme) : OffendsAt ts i ⟨.undeclared, t.lexeme, t⟩

/-- The violation at the least index that breaks the rule. -/
structure FirstOffence (ts : List Token) (i : Nat) (v : Violation) : Prop where
  offends : OffendsAt ts i v
  least : ∀ j < i, ∀ w, ¬ OffendsAt ts j w

/-- The declared names in the order of their indices. -/
def declaredNames (ts : List Token) : List Token := valuesBelow (declaredAt? ts) ts.length

/-! Events by index. -/

/-- What the token means for scope, if it is a name. -/
def event? (declaring : Bool) (t : Token) : Option ScopeEvent :=
  if t.kind = .identifier then
    some (if declaring then .declare (.ofToken t) else .use (.ofToken t))
  else none

/-- What the token at an index means for scope, if it is a name. -/
def eventAt? (ts : List Token) (i : Nat) : Option ScopeEvent :=
  (nameAt? ts i).map fun t => if BehindInt ts i then .declare (.ofToken t) else .use (.ofToken t)

lemma events_cons (declaring : Bool) (t : Token) (ts : List Token) :
    events declaring (t :: ts) =
      (event? declaring t).toList ++ events (decide (t.Is .keyword "int")) ts := by
  by_cases name : t.kind = .identifier
  · have noWord : ¬ t.Is .keyword "int" := fun is => by cases name.symm.trans is.1
    simp [events, event?, name, noWord]
  · simp [events, event?, name]

lemma eventAt?_of_getElem? {ts : List Token} {i : Nat} {t : Token} (here : ts[i]? = some t) :
    eventAt? ts i = event? (decide (BehindInt ts i)) t := by
  by_cases name : t.kind = .identifier <;>
    simp [eventAt?, nameAt?, event?, here, name, Option.filter]

lemma eventAt?_cons_succ (word : Token) (ts : List Token) (i : Nat) :
    eventAt? (word :: ts) (i + 2) = eventAt? ts (i + 1) := by
  simp [eventAt?, nameAt?, BehindInt]

/-- Behind a first token the events are those at the indices from 1 on. -/
lemma events_behind (word : Token) (ts : List Token) :
    events (decide (word.Is .keyword "int")) ts =
      valuesBelow (fun i => eventAt? (word :: ts) (i + 1)) ts.length := by
  induction ts generalizing word with
  | nil => rfl
  | cons t ts ih =>
    have first : eventAt? (word :: t :: ts) 1 = event? (decide (word.Is .keyword "int")) t := by
      rw [eventAt?_of_getElem? rfl]
      simp [BehindInt]
    rw [events_cons, ih t, List.length_cons, valuesBelow_succ_eq_append, first]
    simp only [eventAt?_cons_succ]

/-- The events of a token list are those at its indices. -/
lemma events_eq_valuesBelow (ts : List Token) :
    events false ts = valuesBelow (eventAt? ts) ts.length := by
  cases ts with
  | nil => rfl
  | cons t ts =>
    have first : eventAt? (t :: ts) 0 = event? false t := by
      rw [eventAt?_of_getElem? rfl]
      simp [BehindInt]
    rw [events_cons, events_behind, List.length_cons, valuesBelow_succ_eq_append, first]

section Indices

variable {ts : List Token} {i j k : Nat} {e : ScopeEvent}

lemma eventAt?_eq_declare_iff {id : Ident} : eventAt? ts i = some (.declare id) ↔
    ∃ t, declaredAt? ts i = some t ∧ .ofToken t = id := by
  by_cases behind : BehindInt ts i <;> simp [eventAt?, declaredAt?, behind]

lemma eventAt?_eq_use_iff {id : Ident} : eventAt? ts i = some (.use id) ↔
    ∃ t, usedAt? ts i = some t ∧ .ofToken t = id := by
  by_cases behind : BehindInt ts i <;> simp [eventAt?, usedAt?, behind]

/-- The number of events before an index. -/
def rank (ts : List Token) (i : Nat) : Nat := (valuesBelow (eventAt? ts) i).length

lemma getElem?_rank (h : eventAt? ts i = some e) : (events false ts)[rank ts i]? = some e := by
  have bound : i < ts.length := by
    by_contra out
    rw [eventAt?, nameAt?, List.getElem?_eq_none (Nat.le_of_not_lt out)] at h
    cases h
  rw [events_eq_valuesBelow]
  exact getElem?_valuesBelow h bound

lemma exists_rank (h : (events false ts)[k]? = some e) :
    ∃ i, eventAt? ts i = some e ∧ rank ts i = k := by
  rw [events_eq_valuesBelow] at h
  exact exists_of_getElem?_valuesBelow h

lemma rank_inj {e' : ScopeEvent} (hi : eventAt? ts i = some e) (hj : eventAt? ts j = some e')
    (same : rank ts i = rank ts j) : i = j := by
  rcases Nat.lt_trichotomy i j with before | equal | behind
  · have less : rank ts i < rank ts j := length_valuesBelow_lt hi before
    omega
  · exact equal
  · have less : rank ts j < rank ts i := length_valuesBelow_lt hj behind
    omega

lemma declaredEarlier_iff (ts : List Token) (i : Nat) (name : Text) :
    DeclaredEarlier ts i name ↔ DeclaredBefore (events false ts) (rank ts i) name := by
  constructor
  · rintro ⟨j, before, d, declared, rfl⟩
    have event := eventAt?_eq_declare_iff.mpr ⟨d, declared, rfl⟩
    exact ⟨rank ts j, length_valuesBelow_lt event before, .ofToken d, getElem?_rank event, rfl⟩
  · rintro ⟨k, before, id, there, rfl⟩
    obtain ⟨j, event, rfl⟩ := exists_rank there
    obtain ⟨d, declared, rfl⟩ := eventAt?_eq_declare_iff.mp event
    exact ⟨j, lt_of_length_valuesBelow_lt before, d, declared, rfl⟩

lemma namesInScope_iff (ts : List Token) : NamesInScope ts ↔ InScope (events false ts) := by
  constructor
  · rintro ⟨declaredFirst, declaredOnce⟩
    constructor
    · intro k id here
      obtain ⟨i, event, rfl⟩ := exists_rank here
      obtain ⟨t, used, rfl⟩ := eventAt?_eq_use_iff.mp event
      exact (declaredEarlier_iff ts i _).mp (declaredFirst i t used)
    · intro k l a b first second same
      obtain ⟨i, event, rfl⟩ := exists_rank first
      obtain ⟨j, event', rfl⟩ := exists_rank second
      obtain ⟨t, declared, rfl⟩ := eventAt?_eq_declare_iff.mp event
      obtain ⟨u, declared', rfl⟩ := eventAt?_eq_declare_iff.mp event'
      rw [declaredOnce i j t u declared declared' same]
  · rintro ⟨declaredFirst, declaredOnce⟩
    constructor
    · intro i t used
      have event := eventAt?_eq_use_iff.mpr ⟨t, used, rfl⟩
      exact (declaredEarlier_iff ts i _).mpr (declaredFirst _ _ (getElem?_rank event))
    · intro i j a b first second same
      have event := eventAt?_eq_declare_iff.mpr ⟨a, first, rfl⟩
      have event' := eventAt?_eq_declare_iff.mpr ⟨b, second, rfl⟩
      have places := declaredOnce _ _ _ _ (getElem?_rank event) (getElem?_rank event') same
      exact rank_inj event event' places

/-- An index breaks the rule if it has an event and the place of that event does. -/
lemma offendsAt_iff {v : Violation} : OffendsAt ts i v ↔
    (∃ e, eventAt? ts i = some e) ∧ ViolatesAt (events false ts) (rank ts i) v := by
  constructor
  · rintro (⟨here, earlier⟩ | ⟨here, never⟩)
    · have event := eventAt?_eq_declare_iff.mpr ⟨_, here, rfl⟩
      exact ⟨⟨_, event⟩,
        .redeclared (getElem?_rank event) ((declaredEarlier_iff ts i _).mp earlier)⟩
    · have event := eventAt?_eq_use_iff.mpr ⟨_, here, rfl⟩
      exact ⟨⟨_, event⟩,
        .undeclared (getElem?_rank event) (mt (declaredEarlier_iff ts i _).mpr never)⟩
  · rintro ⟨⟨e, event⟩, violates⟩
    have place := getElem?_rank event
    cases violates with
    | redeclared here earlier =>
      cases place.symm.trans here
      obtain ⟨t, declared, rfl⟩ := eventAt?_eq_declare_iff.mp event
      exact .redeclared declared ((declaredEarlier_iff ts i _).mpr earlier)
    | undeclared here never =>
      cases place.symm.trans here
      obtain ⟨t, used, rfl⟩ := eventAt?_eq_use_iff.mp event
      exact .undeclared used (mt (declaredEarlier_iff ts i _).mp never)

lemma OffendsAt.not_namesInScope {v : Violation} (h : OffendsAt ts i v) : ¬ NamesInScope ts := by
  rw [namesInScope_iff, inScope_iff]
  intro clean
  exact clean _ v (offendsAt_iff.mp h).2

/-- The first place that breaks a rule belongs to the first index that does. -/
lemma exists_firstOffence {v : Violation} (h : FirstViolation (events false ts) k v) :
    ∃ i, FirstOffence ts i v := by
  obtain ⟨e, there⟩ : ∃ e, (events false ts)[k]? = some e := by
    rcases h.violates with ⟨here, _⟩ | ⟨here, _⟩ <;> exact ⟨_, here⟩
  obtain ⟨i, event, rfl⟩ := exists_rank there
  refine ⟨i, offendsAt_iff.mpr ⟨⟨e, event⟩, h.violates⟩, ?_⟩
  intro j before w offends
  obtain ⟨⟨_, event'⟩, violates⟩ := offendsAt_iff.mp offends
  exact h.least _ (length_valuesBelow_lt event' before) w violates

end Indices

lemma declarations_eq_declaredNames (ts : List Token) :
    declarations (events false ts) = (declaredNames ts).map .ofToken := by
  rw [events_eq_valuesBelow, declarations, declaredNames, valuesBelow, valuesBelow,
    List.filterMap_filterMap, List.map_filterMap]
  congr 1
  funext i
  by_cases behind : BehindInt ts i <;>
    cases name : nameAt? ts i <;>
    simp [eventAt?, declaredAt?, behind, name, ScopeEvent.declared?]

/-- Further tokens add events behind those that are there. -/
lemma exists_events_append (declaring : Bool) (ts us : List Token) :
    ∃ es, events declaring (ts ++ us) = events declaring ts ++ es := by
  induction ts generalizing declaring with
  | nil => exact ⟨events declaring us, rfl⟩
  | cons t ts ih =>
    obtain ⟨es, more⟩ := ih (decide (t.Is .keyword "int"))
    exact ⟨es, by rw [List.cons_append, events_cons, events_cons, more, List.append_assoc]⟩

end Token

lemma Verdict.toExcept_andThen_of_error {v : Verdict} {e : Violation} (h : v.toExcept = .error e)
    (next : Table → Verdict) : (v.andThen next).toExcept = .error e := by
  obtain ⟨table, violation⟩ := v
  cases violation with
  | none => cases h
  | some w => exact h

/-- A violation is found whatever follows it. -/
lemma scanTokens_append_of_error {ts : List Token} {v : Violation}
    (h : scanTokens ts = .error v) (us : List Token) : scanTokens (ts ++ us) = .error v := by
  obtain ⟨es, more⟩ := Token.exists_events_append false ts us
  rw [scanTokens, Table.scan_eq_replay] at h ⊢
  rw [more, Table.replay_append]
  exact Verdict.toExcept_andThen_of_error h _

/-- A scan lists the declared names, or stops at the first index that breaks the rule. -/
lemma scanTokens_cases (ts : List Token) :
    (scanTokens ts = .ok (Table.listing ((Token.declaredNames ts).map .ofToken)) ∧
      Token.NamesInScope ts) ∨
    ∃ i v, scanTokens ts = .error v ∧ Token.FirstOffence ts i v := by
  rw [scanTokens, Table.scan_eq_replay, Token.namesInScope_iff, inScope_iff,
    ← Token.declarations_eq_declaredNames]
  rcases Table.replay_empty (Token.events false ts) with ⟨replayed, clean⟩ | ⟨k, v, replayed, first⟩
  · rw [replayed]
    exact Or.inl ⟨rfl, clean⟩
  · rw [replayed]
    obtain ⟨i, first⟩ := Token.exists_firstOffence first
    exact Or.inr ⟨i, v, rfl, first⟩

/-- A scan gets through exactly if every name that is used was declared at a smaller index and
none is declared twice. Its table then lists the declared names in order. Otherwise it reports
the violation at the least index that breaks the rule. So what follows a violation does not
matter, and what begins a list without one has none. -/
theorem scanTokens_follows_rule (ts : List Token) :
    ((∃ t, scanTokens ts = .ok t) ↔ Token.NamesInScope ts) ∧
    (∀ t, scanTokens ts = .ok t → t = Table.listing ((Token.declaredNames ts).map .ofToken)) ∧
    (∀ v, scanTokens ts = .error v → ∃ i, Token.FirstOffence ts i v) ∧
    (∀ v us, scanTokens ts = .error v → scanTokens (ts ++ us) = .error v) ∧
    ∀ t us, scanTokens (ts ++ us) = .ok t → ∃ u, scanTokens ts = .ok u := by
  rcases scanTokens_cases ts with ⟨scanned, inScope⟩ | ⟨i, v, scanned, first⟩
  · rw [scanned]
    refine ⟨⟨fun _ => inScope, fun _ => ⟨_, rfl⟩⟩, ?_, ?_, ?_, ?_⟩
    · rintro t ⟨⟩
      rfl
    · rintro v ⟨⟩
    · rintro v us ⟨⟩
    · intro t us _
      exact ⟨_, rfl⟩
  · have further := scanTokens_append_of_error scanned
    rw [scanned]
    refine ⟨⟨?_, ?_⟩, ?_, ?_, ?_, ?_⟩
    · rintro ⟨t, ⟨⟩⟩
    · intro inScope
      exact absurd inScope first.offends.not_namesInScope
    · rintro t ⟨⟩
    · rintro w ⟨⟩
      exact ⟨i, first⟩
    · rintro w us ⟨⟩
      exact further us
    · intro t us ok
      cases ok.symm.trans (further us)

/-- The tokens of `int int x + x int 5 y`. -/
def tangle : List Token :=
  [⟨.keyword, "int", 1, 1⟩, ⟨.keyword, "int", 1, 5⟩, ⟨.identifier, "x", 1, 9⟩,
    ⟨.operator, "+", 1, 11⟩, ⟨.identifier, "x", 1, 13⟩, ⟨.keyword, "int", 1, 15⟩,
    ⟨.number, "5", 1, 19⟩, ⟨.identifier, "y", 1, 21⟩]

/-- A name behind two words `int` is declared once, and one behind `int 5` is not declared. -/
theorem scanTokens_follows_rule_tangle :
    Token.NamesInScope (tangle.take 7) ∧
    scanTokens (tangle.take 7) = .ok (Table.listing [.ofToken ⟨.identifier, "x", 1, 9⟩]) ∧
    (∃ i, Token.FirstOffence tangle i ⟨.undeclared, "y", ⟨.identifier, "y", 1, 21⟩⟩) ∧
    scanTokens (tangle ++ tangle) = .error ⟨.undeclared, "y", ⟨.identifier, "y", 1, 21⟩⟩ ∧
    ∃ u, scanTokens (tangle.take 2) = .ok u := by
  have scanned : ∃ t, scanTokens (tangle.take 7) = .ok t ∧ t.count = 1 := by decide +kernel
  have failed : scanTokens tangle =
      .error ⟨.undeclared, "y", ⟨.identifier, "y", 1, 21⟩⟩ := rfl
  have declared : Token.declaredNames (tangle.take 7) = [⟨.identifier, "x", 1, 9⟩] := by
    decide +kernel
  obtain ⟨t, ok, _⟩ := scanned
  obtain ⟨through, table, _⟩ := scanTokens_follows_rule (tangle.take 7)
  obtain ⟨_, _, first, further, _⟩ := scanTokens_follows_rule tangle
  obtain ⟨_, _, _, _, shorter⟩ := scanTokens_follows_rule (tangle.take 2)
  have listed := table t ok
  rw [declared] at listed
  exact ⟨through.mp ⟨t, ok⟩, listed ▸ ok, first _ failed, further _ tangle failed,
    shorter t ((tangle.take 7).drop 2) ok⟩

end ThreeAddress
