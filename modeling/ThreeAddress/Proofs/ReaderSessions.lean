import Mathlib.Data.List.Induction
import ThreeAddress.Proofs.Positions

/-!
# Reading sessions replay one stream

A reader may be asked for one token, for all that are left, or for the characters it skipped,
in any order. Its answers follow from the tokens of the source and from how far the calls have
come (`Reader.progress`). The end of the source and an error are final. What was skipped
stands in the source before the last token that was handed out.
-/

namespace ThreeAddress

namespace Policy

/-- The tokens that a policy lets through: all that have a meaning, or those before the first
stray. -/
def readable (policy : Policy) (ts : List Token) : List Token :=
  if policy.rejects then ts.takeWhile (·.kind ≠ .unrecognized)
  else ts.filter (·.kind ≠ .unrecognized)

/-- How a stream ends: with its first stray if that is rejected, else with its last token. -/
def ending (policy : Policy) (last : Token) (ts : List Token) : Except LexicalError Token :=
  match policy.rejects, ts.filter (·.kind = .unrecognized) with
  | true, t :: _ => .error ⟨t⟩
  | _, _ => .ok last

variable {policy : Policy} {done rest : List Token}

lemma readable_append (clean : policy.rejects → ∀ t ∈ done, t.kind ≠ .unrecognized) :
    policy.readable (done ++ rest) =
      done.filter (·.kind ≠ .unrecognized) ++ policy.readable rest := by
  by_cases rejects : policy.rejects
  · have known : ∀ t ∈ done, decide (t.kind ≠ .unrecognized) := by simpa using clean rejects
    rw [readable, readable, if_pos rejects, if_pos rejects, List.takeWhile_append_of_pos known,
      List.filter_eq_self.mpr known]
  · rw [readable, readable, if_neg rejects, if_neg rejects, List.filter_append]

lemma mem_of_mem_readable {t : Token} (h : t ∈ policy.readable rest) :
    t ∈ rest.filter (·.kind ≠ .unrecognized) := by
  unfold readable at h
  split at h
  · have known := List.mem_takeWhile_imp h
    exact List.mem_filter.mpr ⟨(List.takeWhile_sublist _).subset h, known⟩
  · exact h

lemma filter_unrecognized_eq_nil (h : ∀ t ∈ done, t.kind ≠ .unrecognized) :
    done.filter (·.kind = .unrecognized) = [] := by
  rw [List.filter_eq_nil_iff]
  simpa using h

lemma ending_append (clean : policy.rejects → ∀ t ∈ done, t.kind ≠ .unrecognized)
    (last : Token) : policy.ending last (done ++ rest) = policy.ending last rest := by
  cases rejects : policy.rejects with
  | false => simp [ending, rejects]
  | true =>
    simp only [ending, rejects, List.filter_append, filter_unrecognized_eq_nil (clean rejects),
      List.nil_append]

lemma ending_cases (policy : Policy) (last : Token) (ts : List Token) :
    (∃ t others, policy.rejects ∧ ts.filter (·.kind = .unrecognized) = t :: others ∧
      policy.ending last ts = .error ⟨t⟩) ∨
    (policy.readable ts = ts.filter (·.kind ≠ .unrecognized) ∧
      (policy.rejects → ts.filter (·.kind = .unrecognized) = []) ∧
      policy.ending last ts = .ok last) := by
  cases rejects : policy.rejects with
  | false => exact Or.inr ⟨by simp [readable, rejects], by simp, by simp [ending, rejects]⟩
  | true =>
    cases strays : ts.filter (·.kind = .unrecognized) with
    | cons t others => exact Or.inl ⟨t, others, rfl, rfl, by simp only [ending, rejects, strays]⟩
    | nil =>
      refine Or.inr ⟨?_, fun _ => rfl, by simp only [ending, rejects, strays]⟩
      have known : ∀ t ∈ ts, decide (t.kind ≠ .unrecognized) := by
        simpa [List.filter_eq_nil_iff] using strays
      rw [readable, if_pos rejects, List.filter_eq_self.mpr known,
        List.takeWhile_eq_self_iff.mpr known]

lemma rejects_of_ending {last : Token} {e : LexicalError} (h : policy.ending last rest = .error e) :
    policy.rejects := by
  cases rejects : policy.rejects with
  | false => simp [ending, rejects] at h
  | true => rfl

end Policy

/-! What a source has in store for its readers. -/

namespace Source

/-- The tokens before the end of the source or, if strays are rejected, before the first. -/
def tokens (policy : Policy) (source : Text) : List Token := policy.readable (stream source)

/-- What follows the tokens for ever: the end token, or the error about the first stray. -/
def ending (policy : Policy) (source : Text) : Except LexicalError Token :=
  policy.ending (endToken source) (stream source)

/-- The token behind the first `k`, or what follows all of them. -/
def nth (policy : Policy) (source : Text) (k : Nat) : Except LexicalError Token :=
  match (tokens policy source)[k]? with
  | some t => .ok t
  | none => ending policy source

/-- The characters without meaning. -/
def strays (source : Text) : List Token := (stream source).filter (·.kind = .unrecognized)

/-- The characters without meaning that stand before the last of the tokens. -/
def straysBefore (source : Text) (ts : List Token) : List Token :=
  match ts.getLast? with
  | some t => (strays source).filter (·.Before t)
  | none => []

section Split

variable {policy : Policy} {source : Text} {done rest : List Token}

lemma tokens_of_split (split : stream source = done ++ rest)
    (clean : policy.rejects → ∀ t ∈ done, t.kind ≠ .unrecognized) :
    tokens policy source = done.filter (·.kind ≠ .unrecognized) ++ policy.readable rest := by
  rw [tokens, split, Policy.readable_append clean]

lemma ending_of_split (split : stream source = done ++ rest)
    (clean : policy.rejects → ∀ t ∈ done, t.kind ≠ .unrecognized) :
    ending policy source = policy.ending (endToken source) rest := by
  rw [ending, split, Policy.ending_append clean]

lemma strays_of_split (split : stream source = done ++ rest) : strays source =
    done.filter (·.kind = .unrecognized) ++ rest.filter (·.kind = .unrecognized) := by
  rw [strays, split, List.filter_append]

lemma nth_of_length_le {k : Nat} (h : (tokens policy source).length ≤ k) :
    nth policy source k = ending policy source := by
  rw [nth, List.getElem?_eq_none h]

lemma nth_cases (policy : Policy) (source : Text) (k : Nat) :
    (k < (tokens policy source).length ∧ ∃ t ∈ tokens policy source,
      (tokens policy source).drop k = t :: (tokens policy source).drop (k + 1) ∧
      nth policy source k = .ok t) ∨
    ((tokens policy source).length ≤ k ∧ nth policy source k = ending policy source) := by
  cases found : (tokens policy source)[k]? with
  | some t =>
    obtain ⟨lt, rfl⟩ := List.getElem?_eq_some_iff.mp found
    refine Or.inl ⟨lt, _, List.getElem_mem lt, List.drop_eq_getElem_cons lt, ?_⟩
    rw [nth, found]
  | none =>
    have le := List.getElem?_eq_none_iff.mp found
    exact Or.inr ⟨le, nth_of_length_le le⟩

lemma ending_eq (policy : Policy) (source : Text) :
    ending policy source = .ok (endToken source) ∨ ∃ e, ending policy source = .error e := by
  rcases policy.ending_cases (endToken source) (stream source) with
    ⟨t, _, _, _, fails⟩ | ⟨_, _, ends⟩
  · exact Or.inr ⟨⟨t⟩, fails⟩
  · exact Or.inl ends

lemma ending_of_accepts (source : Text) (h : ¬ policy.rejects) :
    ending policy source = .ok (endToken source) := by
  rcases ending_eq policy source with ends | ⟨e, fails⟩
  · exact ends
  · exact absurd (Policy.rejects_of_ending fails) h

lemma kind_ne_eof {t : Token} (h : t ∈ tokens policy source) : t.kind ≠ .eof :=
  kind_ne_eof_of_mem (List.mem_of_mem_filter (Policy.mem_of_mem_readable h))

/-- The strays before the last token of a part that ends with a token are those of the part. -/
lemma straysBefore_of_split (split : stream source = done ++ rest)
    (upTo : ∀ t ∈ done.getLast?, t.kind ≠ .unrecognized) :
    straysBefore source (done.filter (·.kind ≠ .unrecognized)) =
      done.filter (·.kind = .unrecognized) := by
  rcases done.eq_nil_or_concat with rfl | ⟨init, t, rfl⟩
  · rfl
  rw [List.concat_eq_append] at split upTo ⊢
  have known : t.kind ≠ .unrecognized := by simpa using upTo
  have ordered := (List.pairwise_append.mp (pairwise_stream source)).1
  rw [split, List.append_assoc, List.singleton_append, List.pairwise_append,
    List.pairwise_cons] at ordered
  obtain ⟨_, ⟨later, _⟩, earlier⟩ := ordered
  -- The part ends with `t`, so its strays stand before `t` and those of the rest behind it.
  have first : (init.filter (·.kind = .unrecognized)).filter (·.Before t) =
      init.filter (·.kind = .unrecognized) := by
    rw [List.filter_eq_self]
    intro s mem
    simpa using earlier s (List.mem_of_mem_filter mem) t List.mem_cons_self
  have second : (rest.filter (·.kind = .unrecognized)).filter (·.Before t) = [] := by
    rw [List.filter_eq_nil_iff]
    intro s mem
    simpa using (later s (List.mem_of_mem_filter mem)).asymm
  have last : ((init ++ [t]).filter (·.kind ≠ .unrecognized)).getLast? = some t := by
    simp [known]
  have strays : strays source = init.filter (·.kind = .unrecognized) ++
      rest.filter (·.kind = .unrecognized) := by
    simp [strays, split, known]
  rw [straysBefore, last]
  simp only [strays, List.filter_append, first, second]
  simp [known]

end Split

end Source

namespace Reader

inductive Call where
  | next
  | readAll
  | skipped
  deriving DecidableEq, Repr

inductive Answer where
  | token (outcome : Except LexicalError Token)
  | tokens (outcome : Except LexicalError (List Token))
  | skipped (strays : List Token)

def call (r : Reader) : Call → Answer × Reader
  | .next => (.token r.next.1, r.next.2)
  | .readAll => (.tokens r.readAll.1, r.readAll.2)
  | .skipped => (.skipped r.skipped, r)

/-- The reader after some calls. -/
def after (r : Reader) (calls : List Call) : Reader := calls.foldl (fun r c => (r.call c).2) r

/-- The answers to some calls. -/
def answers (r : Reader) : List Call → List Answer
  | [] => []
  | c :: calls => (r.call c).1 :: (r.call c).2.answers calls

/-- How far a call comes from `k` in a stream of `total` tokens, where the end counts as one
more. -/
def advance (total k : Nat) : Call → Nat
  | .next => min (k + 1) (total + 1)
  | .readAll => total + 1
  | .skipped => k

/-- How far the calls come in a stream of `total` tokens. -/
def progress (total : Nat) (calls : List Call) : Nat := calls.foldl (advance total) 0

namespace Answer

/-- The tokens that an answer hands out. The end is none of them. -/
def handed : Answer → List Token
  | token (.ok t) => if t.kind = .eof then [] else [t]
  | tokens (.ok ts) => ts
  | _ => []

/-- The answer tells that the end was reached. -/
def Ends : Answer → Prop
  | token (.ok t) => t.kind = .eof
  | tokens (.ok _) => True
  | _ => False

instance : DecidablePred Ends
  | token (.ok t) => inferInstanceAs (Decidable (t.kind = .eof))
  | tokens (.ok _) => .isTrue trivial
  | token (.error _) => .isFalse id
  | tokens (.error _) => .isFalse id
  | skipped _ => .isFalse id

/-- The answer is that error. -/
def Fails (e : LexicalError) : Answer → Prop
  | token outcome => outcome = .error e
  | tokens outcome => outcome = .error e
  | skipped _ => False

end Answer

lemma after_concat (r : Reader) (calls : List Call) (c : Call) :
    r.after (calls ++ [c]) = ((r.after calls).call c).2 := by
  rw [after, List.foldl_concat, after]

lemma answers_concat (r : Reader) (calls : List Call) (c : Call) :
    r.answers (calls ++ [c]) = r.answers calls ++ [((r.after calls).call c).1] := by
  induction calls generalizing r with
  | nil => rfl
  | cons d calls ih => exact congrArg _ (ih (r.call d).2)

/-! One call. -/

/-- What asking for a token does: it passes over strays to the next token, or to the end, or
it stops at a stray. -/
lemma nextIn_cases (r : Reader) (ahead skipped : List Token) :
    (∃ passed t rest, ahead = passed ++ t :: rest ∧
      (∀ s ∈ passed, s.kind = .unrecognized) ∧ (r.policy.rejects → passed = []) ∧
      t.kind ≠ .unrecognized ∧
      r.nextIn ahead skipped = (.ok t, { r with ahead := rest, skipped := skipped ++ passed })) ∨
    (r.policy.readable ahead = [] ∧ r.policy.ending r.endToken ahead = .ok r.endToken ∧
      r.nextIn ahead skipped = (.ok r.endToken,
        { r with ahead := [], skipped := skipped ++ ahead.filter (·.kind = .unrecognized) })) ∨
    ∃ e rest, r.policy.readable ahead = [] ∧ r.policy.ending r.endToken ahead = .error e ∧
      r.nextIn ahead skipped =
        (.error e, { r with ahead := rest, skipped, failure := some e }) := by
  induction ahead generalizing skipped with
  | nil =>
    refine Or.inr (Or.inl ⟨?_, ?_, ?_⟩)
    · simp [Policy.readable]
    · cases h : r.policy.rejects <;> simp [Policy.ending, h]
    · simp [nextIn]
  | cons t ts ih =>
    by_cases stray : t.kind = .unrecognized
    · cases rejects : r.policy.rejects with
      | true =>
        refine Or.inr (Or.inr ⟨⟨t⟩, ts, ?_, ?_, ?_⟩)
        · simp [Policy.readable, rejects, stray]
        · simp [Policy.ending, rejects, stray]
        · simp [nextIn, rejects, stray]
      | false =>
        have passes : r.nextIn (t :: ts) skipped = r.nextIn ts (skipped ++ [t]) := by
          simp [nextIn, rejects, stray]
        rw [passes]
        rcases ih (skipped ++ [t]) with ⟨passed, u, rest, rfl, strays, _, known, eq⟩ |
          ⟨none, ends, eq⟩ | ⟨e, rest, none, fails, eq⟩
        · refine Or.inl ⟨t :: passed, u, rest, rfl, ?_, by simp, known, ?_⟩
          · exact List.forall_mem_cons.mpr ⟨stray, strays⟩
          · rw [eq, List.append_assoc, List.singleton_append]
        · refine Or.inr (Or.inl ⟨?_, ?_, ?_⟩)
          · simpa [Policy.readable, rejects, stray] using none
          · simp [Policy.ending, rejects]
          · rw [eq]
            simp [stray]
        · simp [Policy.ending, rejects] at fails
    · refine Or.inl ⟨[], t, ts, rfl, by simp, fun _ => rfl, stray, ?_⟩
      simp [nextIn, stray]

/-- How a reader stands that has come so far in a source. -/
inductive Reads (policy : Policy) (source : Text) : Nat → Reader → Prop where
  /-- It has gone through a part of the stream, which ends with a token. -/
  | underway {done rest : List Token} (split : Source.stream source = done ++ rest)
      (clean : policy.rejects → ∀ t ∈ done, t.kind ≠ .unrecognized)
      (upTo : ∀ t ∈ done.getLast?, t.kind ≠ .unrecognized) :
      Reads policy source (done.filter (·.kind ≠ .unrecognized)).length
        ⟨policy, rest, Source.endToken source, done.filter (·.kind = .unrecognized), none, rfl⟩
  | ended (ending : Source.ending policy source = .ok (Source.endToken source)) :
      Reads policy source ((Source.tokens policy source).length + 1)
        ⟨policy, [], Source.endToken source, Source.strays source, none, rfl⟩
  | failed {e : LexicalError} {ahead : List Token}
      (ending : Source.ending policy source = .error e) :
      Reads policy source ((Source.tokens policy source).length + 1)
        ⟨policy, ahead, Source.endToken source, [], some e, rfl⟩

section Steps

variable {policy : Policy} {source : Text} {k : Nat} {r : Reader}

lemma reads_ofSource (policy : Policy) (source : Text) :
    Reads policy source 0 (ofSource policy source) := by
  have nothing : Source.stream source = [] ++ Source.stream source := rfl
  exact .underway nothing (by simp) (by simp)

/-- The part gone through grows by the strays that were passed and by the token behind them. -/
lemma reads_token {done passed after : List Token} {t : Token}
    (split : Source.stream source = done ++ (passed ++ t :: after))
    (clean : policy.rejects → ∀ t ∈ done, t.kind ≠ .unrecognized)
    (strays : ∀ s ∈ passed, s.kind = .unrecognized) (rejecting : policy.rejects → passed = [])
    (known : t.kind ≠ .unrecognized) :
    (∃ more, Source.tokens policy source =
      done.filter (·.kind ≠ .unrecognized) ++ t :: more) ∧
    Reads policy source ((done.filter (·.kind ≠ .unrecognized)).length + 1)
      ⟨policy, after, Source.endToken source, done.filter (·.kind = .unrecognized) ++ passed,
        none, rfl⟩ := by
  have split' : Source.stream source = (done ++ passed ++ [t]) ++ after := by simp [split]
  have clean' : policy.rejects → ∀ u ∈ done ++ passed ++ [t], u.kind ≠ .unrecognized := by
    intro rejects u mem
    rw [rejecting rejects, List.append_nil, List.mem_append, List.mem_singleton] at mem
    rcases mem with mem | rfl
    · exact clean rejects u mem
    · exact known
  have kept : (done ++ passed ++ [t]).filter (·.kind ≠ .unrecognized) =
      done.filter (·.kind ≠ .unrecognized) ++ [t] := by
    simpa [known] using strays
  have left : (done ++ passed ++ [t]).filter (·.kind = .unrecognized) =
      done.filter (·.kind = .unrecognized) ++ passed := by
    simpa [known] using strays
  constructor
  · refine ⟨policy.readable after, ?_⟩
    rw [Source.tokens_of_split split' clean', kept, List.append_assoc, List.singleton_append]
  · have reads := Reads.underway split' clean' (by simpa using known)
    rwa [kept, left, List.length_append, List.length_singleton] at reads

/-- One token more, or what follows all the tokens. -/
lemma Reads.next (h : Reads policy source k r) : r.next.1 = Source.nth policy source k ∧
    Reads policy source (min (k + 1) ((Source.tokens policy source).length + 1)) r.next.2 := by
  cases h with
  | @underway done rest split clean upTo =>
    have ending := Source.ending_of_split split clean
    rcases nextIn_cases ⟨policy, rest, Source.endToken source,
        done.filter (·.kind = .unrecognized), none, rfl⟩ rest
        (done.filter (·.kind = .unrecognized)) with
      ⟨passed, t, after, rfl, strays, rejecting, known, eq⟩ | ⟨none, ends, eq⟩ |
      ⟨e, after, none, fails, eq⟩
    · obtain ⟨⟨more, tokens⟩, reads⟩ := reads_token split clean strays rejecting known
      constructor
      · rw [Reader.next, eq, Source.nth, tokens]
        simp
      · rw [Reader.next, eq, tokens, Nat.min_eq_left (by simp)]
        exact reads
    · have tokens := Source.tokens_of_split split clean
      rw [none, List.append_nil] at tokens
      rw [ends] at ending
      constructor
      · rw [Reader.next, eq, Source.nth_of_length_le (by rw [tokens]), ending]
      · have reads := Reads.ended ending
        rw [Source.strays_of_split split, tokens] at reads
        rw [Reader.next, eq, tokens, Nat.min_self]
        exact reads
    · have tokens := Source.tokens_of_split split clean
      rw [none, List.append_nil] at tokens
      rw [fails] at ending
      constructor
      · rw [Reader.next, eq, Source.nth_of_length_le (by rw [tokens]), ending]
      · have rejects : policy.rejects := Policy.rejects_of_ending fails
        rw [Reader.next, eq, tokens, Nat.min_self,
          Policy.filter_unrecognized_eq_nil (clean rejects), ← tokens]
        exact .failed ending
  | ended ending =>
    constructor
    · rw [Source.nth_of_length_le (Nat.le_succ _), ending]
      rfl
    · rw [Nat.min_eq_right (Nat.le_succ _)]
      exact .ended ending
  | failed ending =>
    constructor
    · rw [Source.nth_of_length_le (Nat.le_succ _), ending]
      rfl
    · rw [Nat.min_eq_right (Nat.le_succ _)]
      exact .failed ending

/-- All the tokens that are left, or the error that follows them. -/
lemma Reads.readAll (h : Reads policy source k r) :
    r.readAll.1 =
      (Source.ending policy source).map (fun _ => (Source.tokens policy source).drop k) ∧
    Reads policy source ((Source.tokens policy source).length + 1) r.readAll.2 := by
  -- The induction is on the tokens ahead, along the calls for the next one.
  induction r using Reader.readAll.induct generalizing k with
  | case1 r e last next =>
    obtain ⟨token, reads⟩ := h.next
    rw [next] at token reads
    rw [readAll_of_error next]
    rcases Source.nth_cases policy source k with ⟨_, t, _, _, nth⟩ | ⟨le, nth⟩
    · cases token.trans nth
    · rw [← nth, ← token]
      rw [Nat.min_eq_right (Nat.succ_le_succ le)] at reads
      exact ⟨rfl, reads⟩
  | case2 r t last next atEnd =>
    obtain ⟨token, reads⟩ := h.next
    rw [next] at token reads
    rw [readAll_of_end next atEnd]
    rcases Source.nth_cases policy source k with ⟨_, t, mem, _, nth⟩ | ⟨le, nth⟩
    · cases token.trans nth
      exact absurd atEnd (Source.kind_ne_eof mem)
    · rw [← nth, ← token, List.drop_of_length_le le]
      rw [Nat.min_eq_right (Nat.succ_le_succ le)] at reads
      exact ⟨rfl, reads⟩
  | case3 r t last next inside _ _ _ _ ih =>
    obtain ⟨token, reads⟩ := h.next
    rw [next] at token reads
    rw [readAll_of_token next inside]
    rcases Source.nth_cases policy source k with ⟨lt, t, mem, here, nth⟩ | ⟨le, nth⟩
    · cases token.trans nth
      rw [Nat.min_eq_left (Nat.succ_le_succ (Nat.le_of_lt lt))] at reads
      obtain ⟨rest, ended⟩ := ih reads
      refine ⟨?_, ended⟩
      rw [rest, here]
      cases Source.ending policy source <;> rfl
    · rcases Source.ending_eq policy source with ends | ⟨e, fails⟩
      · cases token.trans (nth.trans ends)
        exact absurd rfl inside
      · cases token.trans (nth.trans fails)

lemma Reads.call (h : Reads policy source k r) (c : Call) :
    Reads policy source (advance (Source.tokens policy source).length k c) (r.call c).2 := by
  cases c with
  | next => exact h.next.2
  | readAll => exact h.readAll.2
  | skipped => exact h

lemma Reads.ends_call (h : Reads policy source k r) (c : Call) : (r.call c).1.Ends ↔
    Source.ending policy source = .ok (Source.endToken source) ∧ c ≠ .skipped ∧
      advance (Source.tokens policy source).length k c =
        (Source.tokens policy source).length + 1 := by
  cases c with
  | skipped => simp [Reader.call, Answer.Ends]
  | readAll =>
    simp only [Reader.call, h.readAll.1]
    rcases Source.ending_eq policy source with ends | ⟨e, fails⟩
    · simp [ends, Except.map, Answer.Ends, advance]
    · simp [fails, Except.map, Answer.Ends]
  | next =>
    simp only [Reader.call, h.next.1, advance]
    rcases Source.nth_cases policy source k with ⟨lt, t, mem, _, eq⟩ | ⟨le, eq⟩
    · simp only [eq, Answer.Ends, Source.kind_ne_eof mem, false_iff]
      omega
    · rcases Source.ending_eq policy source with ends | ⟨e, fails⟩
      · have kind : (Source.endToken source).kind = .eof := rfl
        simp [eq, ends, Answer.Ends, kind, le]
      · simp [eq, fails, Answer.Ends]

lemma Reads.fails_call (h : Reads policy source k r) (c : Call) (e : LexicalError) :
    (r.call c).1.Fails e ↔ Source.ending policy source = .error e ∧ c ≠ .skipped ∧
      advance (Source.tokens policy source).length k c =
        (Source.tokens policy source).length + 1 := by
  cases c with
  | skipped => simp [Reader.call, Answer.Fails]
  | readAll =>
    simp only [Reader.call, h.readAll.1]
    cases Source.ending policy source <;> simp [Except.map, Answer.Fails, advance]
  | next =>
    simp only [Reader.call, h.next.1, advance]
    rcases Source.nth_cases policy source k with ⟨lt, t, _, _, eq⟩ | ⟨le, eq⟩
    · simp only [eq, Answer.Fails, reduceCtorEq, false_iff]
      omega
    · simp [eq, Answer.Fails, le]

/-- Asking for a token hands out the next one if there is one. -/
lemma Reads.handed_next (h : Reads policy source k r) :
    (r.call .next).1.handed = ((Source.tokens policy source).drop k).take 1 := by
  simp only [Reader.call, h.next.1]
  rcases Source.nth_cases policy source k with ⟨_, t, mem, found, eq⟩ | ⟨le, eq⟩
  · simp [eq, Answer.handed, Source.kind_ne_eof mem, found]
  · rw [eq, List.drop_of_length_le le]
    rcases Source.ending_eq policy source with ends | ⟨e, fails⟩
    · rw [ends]
      rfl
    · rw [fails]
      rfl

/-- Nothing is handed out past an error. -/
lemma Reads.handed_of_failed (h : Reads policy source k r) {e : LexicalError}
    (fails : Source.ending policy source = .error e)
    (beyond : (Source.tokens policy source).length + 1 ≤ k) (c : Call) :
    (r.call c).1.handed = [] := by
  cases c with
  | next =>
    rw [h.handed_next, List.drop_of_length_le (by omega)]
    rfl
  | readAll =>
    simp only [Reader.call, h.readAll.1, fails]
    rfl
  | skipped => rfl

/-- What was skipped: nothing if strays are rejected, else all the strays past the end and those
before the last token up to there. -/
lemma Reads.skipped_cases (h : Reads policy source k r) :
    (policy.rejects ∧ r.skipped = []) ∨
    (¬ policy.rejects ∧ k = (Source.tokens policy source).length + 1 ∧
      r.skipped = Source.strays source) ∨
    (¬ policy.rejects ∧ k ≤ (Source.tokens policy source).length ∧
      r.skipped = Source.straysBefore source ((Source.tokens policy source).take k)) := by
  cases h with
  | underway split clean upTo =>
    by_cases rejects : policy.rejects
    · exact Or.inl ⟨rejects, Policy.filter_unrecognized_eq_nil (clean rejects)⟩
    · have tokens := Source.tokens_of_split split clean
      refine Or.inr (Or.inr ⟨rejects, ?_, ?_⟩)
      · rw [tokens, List.length_append]
        exact Nat.le_add_right _ _
      · rw [tokens, List.take_left, Source.straysBefore_of_split split upTo]
  | ended ending =>
    by_cases rejects : policy.rejects
    · rcases policy.ending_cases (Source.endToken source) (Source.stream source) with
        ⟨_, _, _, _, fails⟩ | ⟨_, none, _⟩
      · cases fails.symm.trans ending
      · exact Or.inl ⟨rejects, none rejects⟩
    · exact Or.inr (Or.inl ⟨rejects, rfl, rfl⟩)
  | failed ending => exact Or.inl ⟨Policy.rejects_of_ending ending, rfl⟩

end Steps

/-! A whole session. -/

section Session

variable (policy : Policy) (source : Text) (calls : List Call)

lemma reads_after : Reads policy source (progress (Source.tokens policy source).length calls)
    ((ofSource policy source).after calls) := by
  induction calls using List.reverseRecOn with
  | nil => exact reads_ofSource policy source
  | append_singleton calls c ih =>
    rw [after_concat, progress, List.foldl_concat]
    exact ih.call c

/-- The calls have come past the end just if one of the answers said so. -/
lemma exists_answer_iff {policy : Policy} {source : Text} {Q : Answer → Prop} {C : Prop}
    (told : ∀ k r c, Reads policy source k r → (Q (r.call c).1 ↔
      C ∧ c ≠ .skipped ∧ advance (Source.tokens policy source).length k c =
        (Source.tokens policy source).length + 1)) (calls : List Call) :
    (∃ a ∈ (ofSource policy source).answers calls, Q a) ↔
      C ∧ progress (Source.tokens policy source).length calls =
        (Source.tokens policy source).length + 1 := by
  induction calls using List.reverseRecOn with
  | nil => simp [answers, progress]
  | append_singleton calls c ih =>
    have last := told _ _ c (reads_after policy source calls)
    simp only [answers_concat, List.mem_append, List.mem_singleton, or_and_right, exists_or,
      exists_eq_left, ih, last, progress, List.foldl_concat]
    rw [← and_or_left]
    refine and_congr_right fun _ => ?_
    cases c with
    | next =>
      simp only [advance, ne_eq, reduceCtorEq, not_false_eq_true, true_and]
      omega
    | readAll => simp [advance]
    | skipped => simp [advance]

lemma ends_iff : (∃ a ∈ (ofSource policy source).answers calls, a.Ends) ↔
    Source.ending policy source = .ok (Source.endToken source) ∧
      progress (Source.tokens policy source).length calls =
        (Source.tokens policy source).length + 1 :=
  exists_answer_iff (fun _ _ c reads => reads.ends_call c) calls

lemma fails_iff (e : LexicalError) :
    (∃ a ∈ (ofSource policy source).answers calls, a.Fails e) ↔
      Source.ending policy source = .error e ∧
        progress (Source.tokens policy source).length calls =
          (Source.tokens policy source).length + 1 :=
  exists_answer_iff (fun _ _ c reads => reads.fails_call c e) calls

/-- The tokens handed out are the first ones, as many as were used up, unless an error took
some with it. -/
lemma handed_cases :
    ((ofSource policy source).answers calls).flatMap Answer.handed =
      (Source.tokens policy source).take
        (progress (Source.tokens policy source).length calls) ∨
    (∃ e, .tokens (.error e) ∈ (ofSource policy source).answers calls) ∧
      ((ofSource policy source).answers calls).flatMap Answer.handed <+:
        Source.tokens policy source := by
  induction calls using List.reverseRecOn with
  | nil => exact Or.inl rfl
  | append_singleton calls c ih =>
    have reads := reads_after policy source calls
    rw [answers_concat, List.flatMap_append, List.flatMap_singleton, progress,
      List.foldl_concat, ← progress]
    rcases ih with all | ⟨⟨e, failed⟩, some⟩
    · rw [all]
      cases c with
      | next =>
        left
        rw [reads.handed_next, ← List.take_add, List.take_eq_take_iff, advance]
        omega
      | readAll =>
        rcases Source.ending_eq policy source with ends | ⟨e, fails⟩
        · left
          rw [advance, List.take_of_length_le (Nat.le_succ _)]
          simp [call, reads.readAll.1, ends, Except.map, Answer.handed]
        · refine Or.inr ⟨⟨e, ?_⟩, ?_⟩
          · simp [call, reads.readAll.1, fails, Except.map]
          · simp [call, reads.readAll.1, fails, Except.map, Answer.handed, List.take_prefix]
      | skipped =>
        left
        exact List.append_nil _
    · -- An error took tokens with it before, and nothing is handed out after that.
      have beyond := (fails_iff policy source calls e).mp ⟨_, failed, rfl⟩
      refine Or.inr ⟨⟨e, List.mem_append_left _ failed⟩, ?_⟩
      rw [reads.handed_of_failed beyond.1 beyond.2.ge, List.append_nil]
      exact some

lemma handed_prefix :
    ((ofSource policy source).answers calls).flatMap Answer.handed <+:
      Source.tokens policy source := by
  rcases handed_cases policy source calls with all | ⟨_, some⟩
  · rw [all]
    exact List.take_prefix _ _
  · exact some

/-- Whatever is asked of a reader in whatever order, the answers are those of one stream. After
each session the next answer is the next token, or all that are left, or what follows the
tokens. The tokens handed out are the first ones of the stream, and all that were used up if no
error took them. The end and the error are told again for ever. The strays are those before the
last token handed out, all of them at the end, and none if they are rejected. -/
theorem session_replays_stream (policy : Policy) (source : Text) (calls : List Call) :
    let tokens := Source.tokens policy source
    let r := (ofSource policy source).after calls
    let log := (ofSource policy source).answers calls
    let handed := log.flatMap Answer.handed
    let k := progress tokens.length calls
    r.next.1 = Source.nth policy source k ∧
    r.readAll.1 = (Source.ending policy source).map (fun _ => tokens.drop k) ∧
    handed <+: tokens ∧
    ((∀ e, .tokens (.error e) ∉ log) → handed = tokens.take k) ∧
    ((∃ a ∈ log, a.Ends) → r.next.1 = .ok (Source.endToken source) ∧ r.readAll.1 = .ok []) ∧
    (∀ e, (∃ a ∈ log, a.Fails e) → r.next.1 = .error e ∧ r.readAll.1 = .error e) ∧
    (policy.rejects → r.skipped = []) ∧
    (¬ policy.rejects → (∃ a ∈ log, a.Ends) → r.skipped = Source.strays source) ∧
    (¬ policy.rejects → (¬ ∃ a ∈ log, a.Ends) →
      r.skipped = Source.straysBefore source handed) := by
  intro tokens r log handed k
  have reads : Reads policy source k r := reads_after policy source calls
  have past (h : k = tokens.length + 1) : r.next.1 = Source.ending policy source ∧
      r.readAll.1 = (Source.ending policy source).map fun _ => [] := by
    have le : tokens.length ≤ k := by omega
    constructor
    · rw [reads.next.1, Source.nth_of_length_le le]
    · rw [reads.readAll.1, List.drop_of_length_le le]
  have kept (h : ∀ e, .tokens (.error e) ∉ log) : handed = tokens.take k := by
    rcases handed_cases policy source calls with all | ⟨⟨e, failed⟩, _⟩
    · exact all
    · exact absurd failed (h e)
  have ended := ends_iff policy source calls
  refine ⟨reads.next.1, reads.readAll.1, handed_prefix policy source calls, kept,
    ?_, ?_, ?_, ?_, ?_⟩
  · intro told
    obtain ⟨ending, beyond⟩ := ended.mp told
    have later := past beyond
    rwa [ending] at later
  · intro e told
    obtain ⟨ending, beyond⟩ := (fails_iff policy source calls e).mp told
    have later := past beyond
    rwa [ending] at later
  · intro rejects
    rcases reads.skipped_cases with ⟨_, none⟩ | ⟨accepts, _⟩ | ⟨accepts, _⟩
    · exact none
    · exact absurd rejects accepts
    · exact absurd rejects accepts
  · intro accepts told
    have beyond := (ended.mp told).2
    rcases reads.skipped_cases with ⟨rejects, _⟩ | ⟨_, _, all⟩ | ⟨_, within, _⟩
    · exact absurd rejects accepts
    · exact all
    · exact absurd beyond (Nat.ne_of_lt (Nat.lt_succ_of_le within))
  · intro accepts silent
    have ending := Source.ending_of_accepts source accepts
    rcases reads.skipped_cases with ⟨rejects, _⟩ | ⟨_, beyond, _⟩ | ⟨_, _, some⟩
    · exact absurd rejects accepts
    · exact absurd (ended.mpr ⟨ending, beyond⟩) silent
    · have whole : handed = tokens.take k := by
        apply kept
        intro e failed
        cases ((fails_iff policy source calls e).mp ⟨_, failed, rfl⟩).1.symm.trans ending
      rw [whole]
      exact some

/-- Two tokens read with a stray between them, and an error that is met again after it took a
token with it. -/
theorem session_replays_stream_strays :
    ((ofSource .skip "x # = $ 1;").after [.next, .next]).skipped =
      [⟨.unrecognized, "#", 1, 3⟩] ∧
    ((ofSource .reject "x # = 1;").after [.readAll, .skipped]).next.1 =
      .error ⟨.unrecognized, "#", 1, 3⟩ := by
  constructor
  · have skipped := (session_replays_stream .skip "x # = $ 1;" [.next, .next]).2.2.2.2.2.2.2.2
    refine (skipped (by decide) (by decide +kernel)).trans ?_
    decide +kernel
  · have again := (session_replays_stream .reject "x # = 1;" [.readAll, .skipped]).2.2.2.2.2.1
    have fails := (reads_ofSource .reject "x # = 1;").readAll.1
    refine (again ⟨⟨.unrecognized, "#", 1, 3⟩⟩ ⟨.tokens (.error _), ?_, rfl⟩).1
    rw [answers, call, fails]
    exact List.mem_cons_self

end Session

end Reader

end ThreeAddress
