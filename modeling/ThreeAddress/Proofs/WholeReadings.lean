import ThreeAddress.Compile
import ThreeAddress.Proofs.Lexemes

/-!
# Reading a source to its end

A reader that is asked for all its tokens asks for one after another. It comes to the end and has
told the tokens from the characters without meaning, or it stops at the first of the latter. So
there are just two ways for a source to be read (`readTokens_of_clean`, `readTokens_of_stray`).
-/

namespace ThreeAddress

namespace Reader

variable {r s last : Reader} {t : Token} {ts others : List Token} {e : LexicalError}

lemma readAll_of_error (h : r.next = (.error e, last)) : r.readAll = (.error e, last) := by
  unfold readAll
  split
  next h' =>
    cases h'.symm.trans h
    rfl
  next h' => cases h'.symm.trans h

lemma readAll_of_end (h : r.next = (.ok t, last)) (atEnd : t.kind = .eof) :
    r.readAll = (.ok [], last) := by
  unfold readAll
  split
  next h' => cases h'.symm.trans h
  next h' =>
    cases h'.symm.trans h
    rw [dif_pos atEnd]

lemma readAll_of_token (h : r.next = (.ok t, last)) (inside : t.kind ≠ .eof) :
    r.readAll = (last.readAll.1.map (t :: ·), last.readAll.2) := by
  rw [readAll]
  split
  next h' => cases h'.symm.trans h
  next h' =>
    cases h'.symm.trans h
    rw [dif_neg inside]

/-- What is read follows from the next token and from the reader behind it. -/
lemma readAll_congr (h : r.next = s.next) : r.readAll = s.readAll := by
  rcases next : s.next with ⟨e | t, last⟩
  · rw [readAll_of_error (h.trans next), readAll_of_error next]
  · by_cases atEnd : t.kind = .eof
    · rw [readAll_of_end (h.trans next) atEnd, readAll_of_end next atEnd]
    · rw [readAll_of_token (h.trans next) atEnd, readAll_of_token next atEnd]

/-- The next token is searched for in the tokens given, not in those that the reader has ahead. -/
lemma nextIn_update (r : Reader) (ahead skipped ts strays : List Token) :
    nextIn { r with ahead, skipped } ts strays = r.nextIn ts strays := by
  induction ts generalizing strays with
  | nil => rfl
  | cons t ts ih =>
    rw [nextIn, nextIn]
    split
    · split
      · rfl
      · exact ih (strays ++ [t])
    · rfl

section Ahead

variable (going : r.failure = none)
include going

lemma next_of_nil (nothing : r.ahead = []) : r.next = (.ok r.endToken, r) := by
  obtain ⟨policy, ahead, endToken, skipped, failure, ends⟩ := r
  cases going
  cases nothing
  rfl

lemma next_of_token (ahead : r.ahead = t :: ts) (known : t.kind ≠ .unrecognized) :
    r.next = (.ok t, { r with ahead := ts }) := by
  simp [next, going, ahead, nextIn, known]

lemma next_of_skipped (ahead : r.ahead = t :: ts) (stray : t.kind = .unrecognized)
    (skips : ¬ r.policy.rejects) :
    r.next = next { r with ahead := ts, skipped := r.skipped ++ [t] } := by
  simp [next, going, ahead, nextIn, stray, skips, ← nextIn_update r ts (r.skipped ++ [t])]

lemma next_of_rejected (ahead : r.ahead = t :: ts) (stray : t.kind = .unrecognized)
    (rejects : r.policy.rejects) :
    r.next = (.error ⟨t⟩, { r with ahead := ts, failure := some ⟨t⟩ }) := by
  simp [next, going, ahead, nextIn, stray, rejects]

/-- Without a stray that is rejected, a reader comes to the end. -/
lemma readAll_of_clean (inside : ∀ t ∈ r.ahead, t.kind ≠ .eof)
    (clean : r.policy.rejects → r.ahead.filter (·.kind = .unrecognized) = []) :
    r.readAll = (.ok (r.ahead.filter (·.kind ≠ .unrecognized)),
      { r with ahead := [], skipped := r.skipped ++ r.ahead.filter (·.kind = .unrecognized) }) := by
  induction ahead : r.ahead generalizing r with
  | nil =>
    rw [readAll_of_end (next_of_nil going ahead) r.ends]
    cases r
    cases ahead
    simp
  | cons t ts ih =>
    rw [ahead] at inside clean
    obtain ⟨notEnd, insideBehind⟩ := List.forall_mem_cons.mp inside
    by_cases stray : t.kind = .unrecognized
    · have skips : ¬ r.policy.rejects := fun rejects => by simpa [stray] using clean rejects
      rw [readAll_congr (next_of_skipped going ahead stray skips),
        ih (r := { r with ahead := ts, skipped := r.skipped ++ [t] }) going insideBehind
          (fun rejects => absurd rejects skips) rfl]
      simp [stray]
    · rw [List.filter_cons_of_neg (by simpa using stray)] at clean
      rw [readAll_of_token (next_of_token going ahead stray) notEnd,
        ih (r := { r with ahead := ts }) going insideBehind clean rfl]
      simp [stray, Except.map]

/-- A reader that rejects stops at the first stray, and its tokens are lost. -/
lemma exists_readAll_of_stray (inside : ∀ t ∈ r.ahead, t.kind ≠ .eof)
    (rejects : r.policy.rejects)
    (strays : r.ahead.filter (·.kind = .unrecognized) = t :: others) :
    ∃ rest, r.readAll = (.error ⟨t⟩, { r with ahead := rest, failure := some ⟨t⟩ }) := by
  induction ahead : r.ahead generalizing r with
  | nil => simp [ahead] at strays
  | cons u ts ih =>
    rw [ahead] at inside strays
    obtain ⟨notEnd, insideBehind⟩ := List.forall_mem_cons.mp inside
    by_cases stray : u.kind = .unrecognized
    · rw [List.filter_cons_of_pos (by simpa using stray)] at strays
      cases strays
      exact ⟨ts, readAll_of_error (next_of_rejected going ahead stray rejects)⟩
    · rw [List.filter_cons_of_neg (by simpa using stray)] at strays
      obtain ⟨rest, read⟩ :=
        ih (r := { r with ahead := ts }) going insideBehind rejects strays rfl
      refine ⟨rest, ?_⟩
      rw [readAll_of_token (next_of_token going ahead stray) notEnd, read]
      rfl

end Ahead

end Reader

lemma Source.kind_ne_eof_of_mem {source : Text} {t : Token} (h : t ∈ stream source) :
    t.kind ≠ .eof := by
  intro atEnd
  obtain ⟨s, mem, kind, _⟩ := exists_segment_of_mem_tokensAt h
  rw [atEnd] at kind
  exact s.admits_of_kind? (Segment.formed_of_mem_ofGlyphs s mem) kind (by decide)

section Sources

variable {policy : Policy} {source : Text} {t : Token} {others tokens skipped : List Token}

lemma readTokens_of_clean
    (clean : policy.rejects → (Source.stream source).filter (·.kind = .unrecognized) = []) :
    readTokens policy source =
      .ok ((Source.stream source).filter (·.kind ≠ .unrecognized),
        (Source.stream source).filter (·.kind = .unrecognized)) := by
  have read := Reader.readAll_of_clean (r := .ofSource policy source) rfl
    (fun t => Source.kind_ne_eof_of_mem) clean
  rw [readTokens, read]
  rfl

lemma readTokens_of_stray (rejects : policy.rejects)
    (strays : (Source.stream source).filter (·.kind = .unrecognized) = t :: others) :
    readTokens policy source = .error ⟨t⟩ := by
  obtain ⟨rest, read⟩ := Reader.exists_readAll_of_stray (r := .ofSource policy source) rfl
    (fun t => Source.kind_ne_eof_of_mem) rejects strays
  rw [readTokens, read]

lemma readTokens_cases (policy : Policy) (source : Text) :
    ((policy.rejects → (Source.stream source).filter (·.kind = .unrecognized) = []) ∧
      readTokens policy source =
        .ok ((Source.stream source).filter (·.kind ≠ .unrecognized),
          (Source.stream source).filter (·.kind = .unrecognized))) ∨
    ∃ t others, policy.rejects ∧
      (Source.stream source).filter (·.kind = .unrecognized) = t :: others ∧
      readTokens policy source = .error ⟨t⟩ := by
  by_cases clean : policy.rejects → (Source.stream source).filter (·.kind = .unrecognized) = []
  · exact Or.inl ⟨clean, readTokens_of_clean clean⟩
  · obtain ⟨rejects, some⟩ := Classical.not_imp.mp clean
    obtain ⟨t, others, strays⟩ := List.exists_cons_of_ne_nil some
    exact Or.inr ⟨t, others, rejects, strays, readTokens_of_stray rejects strays⟩

lemma readTokens_skip (source : Text) : readTokens .skip source =
    .ok ((Source.stream source).filter (·.kind ≠ .unrecognized),
      (Source.stream source).filter (·.kind = .unrecognized)) :=
  readTokens_of_clean nofun

lemma readTokens_reject_of_clean
    (none : (Source.stream source).filter (·.kind = .unrecognized) = []) :
    readTokens .reject source =
      .ok ((Source.stream source).filter (·.kind ≠ .unrecognized), []) := by
  rw [readTokens_of_clean fun _ => none, none]

/-- Without characters that have no meaning, reading gives the stream under any policy. -/
lemma readTokens_of_known (policy : Policy)
    (known : ∀ t ∈ Source.stream source, t.kind ≠ .unrecognized) :
    readTokens policy source = .ok (Source.stream source, []) := by
  have none : (Source.stream source).filter (·.kind = .unrecognized) = [] :=
    List.filter_eq_nil_iff.mpr (by simpa using known)
  rw [readTokens_of_clean fun _ => none, none, List.filter_eq_self.mpr (by simpa using known)]

/-- Each token of a source has a lexeme of the class of its kind. -/
lemma admits_of_mem_tokens (h : readTokens policy source = .ok (tokens, skipped)) :
    ∀ t ∈ tokens, t.kind.Admits t.lexeme := by
  rcases readTokens_cases policy source with ⟨_, read⟩ | ⟨_, _, _, _, read⟩
  · cases read.symm.trans h
    intro t mem
    obtain ⟨inStream, known⟩ := List.mem_filter.mp mem
    obtain ⟨s, segment, kind, lexeme⟩ := exists_segment_of_mem_tokensAt inStream
    rw [← lexeme]
    exact s.admits_of_kind? (Segment.formed_of_mem_ofGlyphs s segment) kind (by simpa using known)
  · cases read.symm.trans h

end Sources

end ThreeAddress
