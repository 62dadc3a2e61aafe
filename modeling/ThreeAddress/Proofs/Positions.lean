import Mathlib.Data.List.DropRight
import ThreeAddress.Proofs.Pieces

/-!
# Positions and counts

A position is carried along from character to character. Seen from the whole text before it,
its line counts the newlines and its column the characters behind the last of them
(`Position.after_glyphs`). Characters are told by their bytes here (`Characters`), not by the
cut that reading makes. Every character leads to a later position, so a stream is in order.
-/

namespace ThreeAddress

/-- The text has that many characters: UTF-8 sequences, and single bytes where none begins. -/
inductive Characters : Text → Nat → Prop where
  | nil : Characters [] 0
  | cons {w rest : Text} {n : Nat} (first : IsFirst w rest) (others : Characters rest n) :
      Characters (w ++ rest) (n + 1)

namespace Text

/-- What holds of the empty text and goes over from a text to one with a further character in
front holds of every text. -/
lemma induction_first {P : Text → Prop} (nil : P [])
    (cons : ∀ w rest, IsFirst w rest → P rest → P (w ++ rest)) (t : Text) : P t := by
  induction length : t.length using Nat.strongRecOn generalizing t with
  | ind n ih =>
    cases t with
    | nil => exact nil
    | cons a r =>
      obtain ⟨v, rest, whole, first⟩ := exists_isFirst a r
      have shorter : rest.length < n := by
        rw [whole, List.length_append, List.length_cons] at length
        omega
      rw [whole]
      exact cons _ rest first (ih _ shorter rest rfl)

/-- Reading cuts a text into its characters. -/
lemma characters_iff {t : Text} {n : Nat} : Characters t n ↔ n = t.glyphs.length := by
  constructor
  · intro h
    induction h with
    | nil => rfl
    | cons first _ ih => rw [glyphs_of_isFirst first, List.length_cons, ih]
  · rintro rfl
    induction t using induction_first with
    | nil => exact .nil
    | cons w rest first ih =>
      rw [glyphs_of_isFirst first]
      exact .cons first ih

/-- A text whose cut begins with some bytes has them as its first character. -/
lemma isFirst_of_glyphs {w rest : Text} {gs : List Glyph}
    (h : (w ++ rest).glyphs = ⟨w⟩ :: gs) : IsFirst w rest ∧ rest.glyphs = gs := by
  cases whole : w ++ rest with
  | nil => simp [whole] at h
  | cons a r =>
    obtain ⟨v, rest', split, first⟩ := exists_isFirst a r
    rw [whole, split, glyphs_of_isFirst first] at h
    obtain ⟨head, tail⟩ := List.cons.inj h
    cases Glyph.mk.inj head
    rw [split] at whole
    cases List.append_cancel_left whole
    exact ⟨first, tail⟩

/-- Where the cut of a text comes apart, it does so too if only a beginning of the rest is
there. -/
lemma glyphs_append_left {a b c : Text} (h : (a ++ (b ++ c)).glyphs = a.glyphs ++ (b ++ c).glyphs) :
    (a ++ b).glyphs = a.glyphs ++ b.glyphs := by
  induction a using induction_first with
  | nil => rfl
  | cons w rest first ih =>
    rw [glyphs_of_isFirst first, List.append_assoc, List.cons_append] at h
    obtain ⟨first', apart⟩ := isFirst_of_glyphs h
    rw [← List.append_assoc] at first'
    rw [List.append_assoc, glyphs_of_isFirst first'.of_append, ih apart, glyphs_of_isFirst first,
      List.cons_append]

/-- What stands behind the last newline. -/
def lastLine (t : Text) : Text := t.rtakeWhile (· ≠ newline)

lemma lastLine_append_of_mem {a b : Text} (h : newline ∈ b) : (a ++ b).lastLine = b.lastLine := by
  have stops : (b.reverse.takeWhile (· ≠ newline)).length ≠ b.reverse.length := by
    intro whole
    have same := (List.takeWhile_prefix (· ≠ newline)).eq_of_length whole
    have all := List.takeWhile_eq_self_iff.mp same newline (List.mem_reverse.mpr h)
    simp at all
  simp only [lastLine, List.rtakeWhile, List.reverse_append, List.takeWhile_append, if_neg stops]

lemma lastLine_of_notMem {t : Text} (h : newline ∉ t) : t.lastLine = t := by
  rw [lastLine, List.rtakeWhile_eq_self_iff]
  intro b hb
  have other : b ≠ newline := fun same => h (same ▸ hb)
  simpa using other

lemma lastLine_cons_newline {t : Text} (h : newline ∉ t) : lastLine (newline :: t) = t := by
  have passed : ∀ b ∈ t.reverse, decide (b ≠ newline) := by
    intro b hb
    have other : b ≠ newline := fun same => h (same ▸ List.mem_reverse.mp hb)
    simpa using other
  rw [lastLine, List.rtakeWhile, List.reverse_cons, List.takeWhile_append_of_pos passed]
  simp

lemma exists_append_lastLine {t : Text} (h : newline ∈ t) :
    newline ∉ t.lastLine ∧ ∃ v, t = v ++ newline :: t.lastLine := by
  constructor
  · intro mem
    simpa using List.mem_rtakeWhile_imp mem
  · have some_left : t.rdropWhile (· ≠ newline) ≠ [] := by
      intro none
      simpa using List.rdropWhile_eq_nil_iff.mp none newline h
    have last := List.rdropWhile_last_not _ _ some_left
    have newlineLast : (t.rdropWhile (· ≠ newline)).getLast some_left = newline := by
      simpa using last
    refine ⟨(t.rdropWhile (· ≠ newline)).dropLast, ?_⟩
    have whole := List.rdropWhile_append_rtakeWhile (p := (· ≠ newline)) (l := t)
    rw [← List.dropLast_append_getLast some_left, newlineLast, List.append_assoc] at whole
    exact whole.symm

end Text

lemma IsFirst.newline_notMem {w rest : Text} (h : IsFirst w rest) (other : w ≠ [Text.newline]) :
    Text.newline ∉ w := by
  intro mem
  have single (b : UInt8) (hb : w = [b]) : False := by
    rw [hb, List.mem_singleton] at mem
    exact other (hb.trans (by rw [mem]))
  rcases h with character | ⟨b, hb, _⟩
  · by_cases long : 1 < w.length
    · have large := character.toNat_ge long _ mem
      simp [Text.newline] at large
    · cases w with
      | nil => cases mem
      | cons b v =>
        have alone : v = [] := by
          rw [← List.length_eq_zero_iff]
          simpa using long
        exact single b (by rw [alone])
  · exact single b hb

namespace Position

/-- The position behind a text, from a count over all of it. -/
lemma after_glyphs (p : Position) (t : Text) : p.after t.glyphs =
    ⟨p.line + t.count Text.newline, if Text.newline ∈ t then 1 + t.lastLine.glyphs.length
      else p.column + t.glyphs.length⟩ := by
  induction t using Text.induction_first generalizing p with
  | nil => simp
  | cons w rest first ih =>
    rw [Text.glyphs_of_isFirst first, after_cons, ih]
    by_cases newline : w = [Text.newline]
    · subst newline
      rw [step, if_pos rfl, List.count_append, List.count_singleton_self,
        if_pos (List.mem_append_left rest List.mem_cons_self), Nat.add_assoc]
      by_cases more : Text.newline ∈ rest
      · rw [if_pos more, Text.lastLine_append_of_mem more]
      · rw [if_neg more, List.singleton_append, Text.lastLine_cons_newline more]
    · have none := first.newline_notMem newline
      rw [step, if_neg newline, List.count_append, List.count_eq_zero.mpr none, Nat.zero_add]
      by_cases more : Text.newline ∈ rest
      · rw [if_pos more, if_pos (List.mem_append_right w more), Text.lastLine_append_of_mem more]
      · rw [if_neg more, if_neg (by simp [none, more]), List.length_cons, Nat.add_assoc,
          Nat.add_comm 1]

/-- What a match of those bytes does to the position: without a newline the column grows by
the number of characters. Else the line grows by the number of newlines, and the column becomes
the number of characters from the last newline on. -/
inductive Advances (p : Position) (w : Text) : Position → Prop where
  | within {n : Nat} (none : Text.newline ∉ w) (characters : Characters w n) :
      Advances p w ⟨p.line, p.column + n⟩
  | across {v u : Text} {n : Nat} (split : w = v ++ Text.newline :: u) (last : Text.newline ∉ u)
      (characters : Characters (Text.newline :: u) n) :
      Advances p w ⟨p.line + w.count Text.newline, n⟩

lemma advances_after (p : Position) (w : Text) : p.Advances w (p.after w.glyphs) := by
  rw [after_glyphs]
  by_cases newline : Text.newline ∈ w
  · obtain ⟨last, v, split⟩ := Text.exists_append_lastLine newline
    rw [if_pos newline]
    refine .across split last (Text.characters_iff.mpr ?_)
    have first : IsFirst [Text.newline] w.lastLine := Or.inl (isCharacter_single (by decide))
    have cut := Text.glyphs_of_isFirst first
    rw [List.singleton_append] at cut
    rw [cut, List.length_cons, Nat.add_comm]
  · rw [if_neg newline, List.count_eq_zero.mpr newline]
    exact .within newline (Text.characters_iff.mpr rfl)

/-- Earlier in the source: on an earlier line, or on the same line further left. -/
def Before (p q : Position) : Prop := p.line < q.line ∨ p.line = q.line ∧ p.column < q.column

lemma Before.trans {p q r : Position} (h : p.Before q) (h' : q.Before r) : p.Before r := by
  unfold Before at *
  omega

lemma before_step (p : Position) (g : Glyph) : p.Before (p.step g) := by
  unfold step
  split
  · exact Or.inl (Nat.lt_succ_self p.line)
  · exact Or.inr ⟨rfl, Nat.lt_succ_self p.column⟩

lemma before_after (p : Position) {gs : List Glyph} (h : gs ≠ []) : p.Before (p.after gs) := by
  induction gs generalizing p with
  | nil => exact absurd rfl h
  | cons g gs ih =>
    rw [after_cons]
    by_cases more : gs = []
    · rw [more]
      exact p.before_step g
    · exact (p.before_step g).trans (ih _ more)

end Position

namespace Token

/-- The token stands at that position. -/
def At (p : Position) (t : Token) : Prop := t.line = p.line ∧ t.column = p.column

def Before (s t : Token) : Prop := s.line < t.line ∨ s.line = t.line ∧ s.column < t.column

instance : DecidableRel Before := fun _ _ => inferInstanceAs (Decidable (_ ∨ _))

lemma Before.asymm {s t : Token} (h : s.Before t) : ¬ t.Before s := by
  unfold Before at *
  omega

lemma before_of_at {s t : Token} {p q : Position} (hs : s.At p) (ht : t.At q)
    (before : p.Before q) : s.Before t := by
  unfold Before
  rw [hs.1, hs.2, ht.1, ht.2]
  unfold Position.Before at before
  omega

end Token

namespace Source

/-- The tokens of segments stand in order, and the token behind the last segment follows
them. -/
lemma pairwise_tokensAt {p : Position} {segments : List Segment} {last : Token}
    (nonempty : ∀ s ∈ segments, s.glyphs ≠ [])
    (behind : last.At (p.after (segments.flatMap Segment.glyphs))) :
    (tokensAt p segments ++ [last]).Pairwise Token.Before ∧
      ∀ t ∈ tokensAt p segments ++ [last], ∃ q, t.At q ∧ (q = p ∨ p.Before q) := by
  induction segments generalizing p with
  | nil =>
    refine ⟨List.pairwise_singleton _ _, ?_⟩
    intro t ht
    rw [List.mem_singleton.mp ht]
    exact ⟨p, behind, Or.inl rfl⟩
  | cons s rest ih =>
    obtain ⟨some_s, some_rest⟩ := List.forall_mem_cons.mp nonempty
    rw [List.flatMap_cons, Position.after_append] at behind
    obtain ⟨ordered, places⟩ := ih some_rest behind
    have later : ∀ t ∈ tokensAt (p.after s.glyphs) rest ++ [last], ∃ q, t.At q ∧ p.Before q := by
      intro t ht
      obtain ⟨q, hq, rfl | before⟩ := places t ht
      · exact ⟨_, hq, p.before_after some_s⟩
      · exact ⟨q, hq, (p.before_after some_s).trans before⟩
    simp only [tokensAt]
    cases s.kind? with
    | none =>
      refine ⟨ordered, fun t ht => ?_⟩
      obtain ⟨q, hq, before⟩ := later t ht
      exact ⟨q, hq, Or.inr before⟩
    | some k =>
      rw [List.cons_append, List.pairwise_cons]
      refine ⟨⟨fun t ht => ?_, ordered⟩, ?_⟩
      · obtain ⟨q, hq, before⟩ := later t ht
        exact Token.before_of_at ⟨rfl, rfl⟩ hq before
      · refine List.forall_mem_cons.mpr ⟨⟨p, ⟨rfl, rfl⟩, Or.inl rfl⟩, fun t ht => ?_⟩
        obtain ⟨q, hq, before⟩ := later t ht
        exact ⟨q, hq, Or.inr before⟩

/-- The stream of a source is in order, with the end behind it. -/
lemma pairwise_stream (source : Text) :
    (stream source ++ [endToken source]).Pairwise Token.Before := by
  refine (pairwise_tokensAt ?_ ?_).1
  · intro s hs
    obtain ⟨g, more, glyphs, _⟩ := (Segment.formed_of_mem_ofGlyphs s hs).begins
    rw [glyphs]
    exact List.cons_ne_nil g more
  · rw [Segment.flatMap_glyphs_ofGlyphs]
    exact ⟨rfl, rfl⟩

end Source
end ThreeAddress
