import ThreeAddress.Proofs.Alike
import ThreeAddress.Proofs.Boundaries

/-!
# Reading on behind an error

A parser may be asked again, and then goes on from where it stopped. A failed reading leaves
nothing behind but that place, be it in the middle of a block or of an expression: the next
one begins a program there. It may fail again, but either it has taken some token, or no later
reading will take any. So there are not more different answers than tokens and one more.
-/

namespace ThreeAddress

/-- Tokens that were all taken may be too few for a program, but have no error inside. -/
lemma atEnd_of_advance {before : List Token} {last : Parse.State} {e : SyntaxError}
    (taken : Parse.State.initial.advance before = some last) (failed : parse before = .error e) :
    e.AtEnd := by
  obtain ⟨rest, run, token⟩ := exists_run_of_parse_eq_error failed
  cases (Prod.mk.inj ((Parse.State.run_of_advance taken).symm.trans run)).2
  rw [SyntaxError.AtEnd, token]
  exact kind_endOf before

namespace Parser

/-- The parser after some number of readings. -/
def after (p : Parser) : Nat → Parser
  | 0 => p
  | n + 1 => (p.after n).read.2

/-- The index of the token from which the parser goes on. -/
def index (p : Parser) : Nat := p.tokens.length - p.rest.length

/-! One reading. -/

section Reading

variable {p : Parser}

/-- What was read before plays no part in a reading. -/
lemma read_fst (placed : p.rest <:+ p.tokens) : p.read.1 = parse p.rest := by
  obtain ⟨before, split⟩ := placed
  cases outcome : Parse.State.initial.run p.rest with
  | mk result rest =>
    cases result with
    | ok q => simp [read, parse, ofTokens, outcome]
    | error expected =>
      have nonempty : p.rest ≠ [] := by
        intro empty
        rw [empty] at outcome
        cases outcome
      rw [parse_of_run_eq_error outcome, ← endOf_append before nonempty, split,
        read_of_run_eq_error outcome]

lemma rest_read_suffix (placed : p.rest <:+ p.tokens) :
    p.read.2.rest <:+ p.read.2.tokens := by
  rw [read_snd]
  exact (Parse.State.run_suffix _ _).trans placed

lemma rest_eq_drop (placed : p.rest <:+ p.tokens) : p.rest = p.tokens.drop p.index :=
  List.suffix_iff_eq_drop.mp placed

lemma index_le_read (p : Parser) : p.index ≤ p.read.2.index := by
  have shorter := (Parse.State.run_suffix .initial p.rest).length_le
  rw [read_snd, index, index]
  dsimp only
  omega

lemma read_eq_self_of_index (placed : p.rest <:+ p.tokens) (same : p.read.2.index = p.index) :
    p.read.2 = p := by
  have rest := rest_eq_drop (rest_read_suffix placed)
  rw [same, read_snd, ← rest_eq_drop placed] at rest
  rw [read_snd]
  exact congrArg (Parser.mk p.tokens) rest

/-- At an end there is no program left to read. -/
lemma read_of_atEnd (h : ∀ t ∈ p.rest.head?, t.kind = .eof) : p.read = (.ok [], p) := by
  have run : Parse.State.initial.run p.rest = (.ok [], p.rest) :=
    Parse.State.initial.run_of_atEnd h
  simp [read, run]

/-- A reading that gives a program stops at an end. -/
lemma atEnd_of_read (placed : p.rest <:+ p.tokens) {q : Program} (h : p.read.1 = .ok q) :
    ∀ t ∈ p.read.2.rest.head?, t.kind = .eof := by
  rw [read_fst placed, parse_eq_ok_iff_run] at h
  obtain ⟨rest, run⟩ := h
  obtain ⟨before, _, _, stops⟩ := Parse.State.initial.exists_stops p.rest
  rw [read_snd]
  rw [run] at stops ⊢
  cases stops with
  | atEnd _ _ ends => exact ends
  | refused _ _ _ _ expected => cases expected

/-- A failed reading stops at the token that its error names. -/
lemma token_of_read (placed : p.rest <:+ p.tokens) {e : SyntaxError} (h : p.read.1 = .error e) :
    e.token = p.tokens[p.read.2.index]?.getD (endOf p.tokens) := by
  have stop : p.read.2.rest.head? = p.tokens[p.read.2.index]? := by
    rw [rest_eq_drop (rest_read_suffix placed), List.head?_drop, read_snd]
  rw [← stop]
  revert h
  unfold read
  rcases Parse.State.initial.run p.rest with ⟨expected | q, rest⟩
  · rintro ⟨⟩
    rfl
  · rintro ⟨⟩

/-- The tokens that a reading takes have no error inside. -/
lemma atEnd_of_taken (placed : p.rest <:+ p.tokens) {e : SyntaxError}
    (failed : parse (p.tokens.extract p.index p.read.2.index) = .error e) : e.AtEnd := by
  obtain ⟨before, split, noEnd, stops⟩ := Parse.State.initial.exists_stops p.rest
  have length : p.read.2.index - p.index = before.length := by
    have lengths := congrArg List.length split
    have shorter := placed.length_le
    rw [List.length_append] at lengths
    rw [read_snd, index, index]
    dsimp only
    omega
  have taken : p.tokens.extract p.index p.read.2.index = before := by
    rw [List.extract_eq_take_drop, ← rest_eq_drop placed, length, split, List.take_left]
  rw [taken] at failed
  cases stops with
  | atEnd taken _ _ => exact atEnd_of_advance taken failed
  | refused taken _ _ _ _ => exact atEnd_of_advance taken failed

/-- A reading that fails and takes no token asks for a statement. -/
lemma expected_of_idle (placed : p.rest <:+ p.tokens) {e : SyntaxError}
    (h : p.read.1 = .error e) (idle : p.read.2 = p) : e.expected = .statement := by
  rw [read_fst placed] at h
  obtain ⟨rest, run, _⟩ := exists_run_of_parse_eq_error h
  obtain ⟨before, split, _, stops⟩ := Parse.State.initial.exists_stops p.rest
  have none : before = [] := by
    have same := congrArg Parser.rest idle
    rw [read_snd] at same
    dsimp only at same
    rw [same] at split
    exact List.self_eq_append_left.mp split
  subst none
  rw [run] at stops
  cases stops with
  | atEnd taken finished _ =>
    cases taken
    cases finished
  | refused taken _ _ _ expected =>
    cases taken
    exact Except.error.inj expected

end Reading

/-! Many readings. -/

lemma after_of_idle {p : Parser} {n : Nat} (idle : (p.after n).read.2 = p.after n) {m : Nat}
    (later : n ≤ m) : p.after m = p.after n := by
  induction m, later using Nat.le_induction with
  | base => rfl
  | succ m _ ih =>
    rw [after, ih]
    exact idle

section Session

variable (ts : List Token) (n : Nat)

lemma tokens_after : ((ofTokens ts).after n).tokens = ts := by
  induction n with
  | zero => rfl
  | succ n ih => rw [after, read_snd, ih]

lemma rest_after_suffix : ((ofTokens ts).after n).rest <:+ ((ofTokens ts).after n).tokens := by
  induction n with
  | zero => exact List.suffix_refl ts
  | succ n ih => exact rest_read_suffix ih

lemma index_after_le : ((ofTokens ts).after n).index ≤ ts.length := by
  rw [index, tokens_after]
  exact Nat.sub_le _ _

/-- As long as the parser does not stay where it is, each reading takes a token. -/
lemma idle_or_lt_index : ((ofTokens ts).after n).read.2 = (ofTokens ts).after n ∨
    n < ((ofTokens ts).after (n + 1)).index := by
  have moves (m : Nat) : ((ofTokens ts).after m).read.2 = (ofTokens ts).after m ∨
      ((ofTokens ts).after m).index < ((ofTokens ts).after (m + 1)).index := by
    rcases Nat.eq_or_lt_of_le (index_le_read ((ofTokens ts).after m)) with same | further
    · exact Or.inl (read_eq_self_of_index (rest_after_suffix ts m) same.symm)
    · exact Or.inr further
  induction n with
  | zero => exact (moves 0).imp_right Nat.zero_lt_of_lt
  | succ n ih =>
    rcases ih with idle | far
    · left
      rw [after, idle, idle]
    · exact (moves (n + 1)).imp_right (Nat.lt_of_le_of_lt far)

end Session

/-- Each reading gives what the tokens from its place on give by themselves. The places never go
back, and a failed reading stops at the token that its error names. Behind a program there is
only the empty one. Two failures at one place are for want of a statement, and all that follow
are the same. The answers do not change any more once there was one for each token. -/
theorem session_settles (ts : List Token) :
    let answer (n : Nat) := ((ofTokens ts).after n).read.1
    let place (n : Nat) := ((ofTokens ts).after n).index
    place 0 = 0 ∧
    (∀ n, answer n = parse (ts.drop (place n))) ∧
    (∀ n, place n ≤ place (n + 1) ∧ place (n + 1) ≤ ts.length) ∧
    (∀ n e, answer n = .error e → e.token = ts[place (n + 1)]?.getD (endOf ts) ∧
      ∀ f, parse (ts.extract (place n) (place (n + 1))) = .error f → f.AtEnd) ∧
    (∀ n p, answer n = .ok p → ∀ m > n, answer m = .ok []) ∧
    (∀ n e f, answer n = .error e → answer (n + 1) = .error f → place (n + 1) = place (n + 2) →
      f.expected.message = "Expected a statement." ∧ ∀ m > n, answer m = .error f) ∧
    ∀ m ≥ ts.length, answer m = answer ts.length := by
  intro answer place
  have placed := rest_after_suffix ts
  have tokens := tokens_after ts
  refine ⟨Nat.sub_self _, ?_, ?_, ?_, ?_, ?_, ?_⟩
  · intro n
    have rest := rest_eq_drop (placed n)
    rw [tokens] at rest
    exact (read_fst (placed n)).trans (congrArg parse rest)
  · intro n
    exact ⟨index_le_read _, index_after_le ts (n + 1)⟩
  · intro n e failed
    have token := token_of_read (placed n) failed
    rw [tokens] at token
    refine ⟨token, ?_⟩
    intro f short
    rw [← tokens n] at short
    exact atEnd_of_taken (placed n) short
  · intro n p succeeded m later
    -- The parser has come to an end and stays there.
    have ended := read_of_atEnd (p := (ofTokens ts).after (n + 1))
      (atEnd_of_read (placed n) succeeded)
    have stays := after_of_idle (congrArg Prod.snd ended) later
    exact (congrArg (·.read.1) stays).trans (congrArg Prod.fst ended)
  · intro n e f _ failed same
    have idle := read_eq_self_of_index (placed (n + 1)) same.symm
    refine ⟨congrArg Expectation.message (expected_of_idle (placed (n + 1)) failed idle), ?_⟩
    intro m later
    exact (congrArg (·.read.1) (after_of_idle idle later)).trans failed
  · intro m later
    rcases idle_or_lt_index ts ts.length with idle | far
    · exact congrArg (·.read.1) (after_of_idle idle later)
    · have bound := index_after_le ts (ts.length + 1)
      omega

/-- The tokens of `x x x = 1;`. -/
def stutter : List Token :=
  [⟨.identifier, "x", 1, 1⟩, ⟨.identifier, "x", 1, 3⟩, ⟨.identifier, "x", 1, 5⟩,
    ⟨.assignOp, "=", 1, 7⟩, ⟨.number, "1", 1, 9⟩, ⟨.semicolon, ";", 1, 10⟩]

/-- The tokens of `x x 5`. -/
def impasse : List Token := stutter.take 2 ++ [⟨.number, "5", 1, 5⟩]

/-- Two readings fail, one at each name, before the third gives a program. Where no program can
begin the third fails at the same token as the second, and so does every later one. -/
theorem session_settles_stutter :
    ((ofTokens stutter).after 1).read.1 = .error ⟨.assignSign, ⟨.identifier, "x", 1, 5⟩⟩ ∧
    ((ofTokens stutter).after 9).read.1 = .ok [] ∧
    ((ofTokens impasse).after 1).read.1 = .error ⟨.assignSign, ⟨.number, "5", 1, 5⟩⟩ ∧
    ((ofTokens impasse).after 9).read.1 = .error ⟨.statement, ⟨.number, "5", 1, 5⟩⟩ := by
  obtain ⟨p, program, _⟩ : ∃ p, ((ofTokens stutter).after 2).read.1 = .ok p ∧ p.length = 1 := by
    decide +kernel
  have second : ((ofTokens impasse).after 1).read.1 =
      .error ⟨.assignSign, ⟨.number, "5", 1, 5⟩⟩ := rfl
  have third : ((ofTokens impasse).after 2).read.1 =
      .error ⟨.statement, ⟨.number, "5", 1, 5⟩⟩ := rfl
  obtain ⟨_, _, _, _, ended, _⟩ := session_settles stutter
  obtain ⟨_, _, _, _, _, stuck, _⟩ := session_settles impasse
  exact ⟨rfl, ended 2 p program 9 (by decide), second,
    (stuck 1 _ _ second third (by decide +kernel)).2 9 (by decide)⟩

end Parser
end ThreeAddress
