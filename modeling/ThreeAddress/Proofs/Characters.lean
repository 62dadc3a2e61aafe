import Mathlib.Tactic.Lemma
import ThreeAddress.Text.Glyph

/-!
# Characters of a text are UTF-8 sequences

The well-formed sequences of `Glyph` are exactly the UTF-8 sequences of the characters
there are. A sequence at the left end of a text is cut off as one piece, and where no sequence
begins one byte is cut off.
-/

namespace ThreeAddress

/-- The bytes are the UTF-8 sequence of a character. -/
def IsCharacter (w : Text) : Prop := ∃ c : Char, w = String.utf8EncodeChar c

/-- `w` is the first character of `w ++ rest`: a UTF-8 sequence, or a byte where none
begins. -/
def IsFirst (w rest : Text) : Prop :=
  IsCharacter w ∨ ∃ b, w = [b] ∧ ∀ u, IsCharacter u → ¬ u <+: b :: rest

namespace Glyph

lemma isPair_iff {a b : UInt8} : isPair a b ↔
    (0xC2 ≤ a.toNat ∧ a.toNat ≤ 0xDF) ∧ 0x80 ≤ b.toNat ∧ b.toNat ≤ 0xBF := by
  simp [isPair, isTail, UInt8.le_iff_toNat_le]

lemma isTriple_iff {a b c : UInt8} : isTriple a b c ↔
    (0xE0 ≤ a.toNat ∧ a.toNat ≤ 0xEF) ∧ (0x80 ≤ b.toNat ∧ b.toNat ≤ 0xBF) ∧
      (0x80 ≤ c.toNat ∧ c.toNat ≤ 0xBF) ∧
      (a.toNat ≠ 0xE0 ∨ 0xA0 ≤ b.toNat) ∧ (a.toNat ≠ 0xED ∨ b.toNat ≤ 0x9F) := by
  simp [isTriple, isTail, UInt8.le_iff_toNat_le, ← UInt8.toNat_inj, and_assoc]

lemma isQuad_iff {a b c d : UInt8} : isQuad a b c d ↔
    (0xF0 ≤ a.toNat ∧ a.toNat ≤ 0xF4) ∧ (0x80 ≤ b.toNat ∧ b.toNat ≤ 0xBF) ∧
      (0x80 ≤ c.toNat ∧ c.toNat ≤ 0xBF) ∧ (0x80 ≤ d.toNat ∧ d.toNat ≤ 0xBF) ∧
      (a.toNat ≠ 0xF0 ∨ 0x90 ≤ b.toNat) ∧ (a.toNat ≠ 0xF4 ∨ b.toNat ≤ 0x8F) := by
  simp [isQuad, isTail, UInt8.le_iff_toNat_le, ← UInt8.toNat_inj, and_assoc]

end Glyph

open Glyph

section Encoding

variable {a b c d : UInt8} {w : Text}

/-- The forms of UTF-8 sequences, by their length. -/
lemma isCharacter_cases (h : IsCharacter w) :
    (∃ a, w = [a] ∧ a.toNat < 0x80) ∨ (∃ a b, w = [a, b] ∧ isPair a b) ∨
    (∃ a b c, w = [a, b, c] ∧ isTriple a b c) ∨ ∃ a b c d, w = [a, b, c, d] ∧ isQuad a b c d := by
  obtain ⟨ch, rfl⟩ := h
  have valid : ch.val.toNat < 0xD800 ∨ (0xDFFF < ch.val.toNat ∧ ch.val.toNat < 0x110000) := ch.valid
  unfold String.utf8EncodeChar
  generalize ch.val.toNat = n at valid
  dsimp only
  split
  · refine Or.inl ⟨_, rfl, ?_⟩
    simp only [UInt8.toNat_ofNat']
    omega
  split
  · refine Or.inr (Or.inl ⟨_, _, rfl, ?_⟩)
    simp only [isPair_iff, UInt8.toNat_ofNat']
    omega
  split
  · refine Or.inr (Or.inr (Or.inl ⟨_, _, _, rfl, ?_⟩))
    simp only [isTriple_iff, UInt8.toNat_ofNat']
    omega
  · refine Or.inr (Or.inr (Or.inr ⟨_, _, _, _, rfl, ?_⟩))
    simp only [isQuad_iff, UInt8.toNat_ofNat']
    omega

/-! Each form has a code point from which it comes. -/

lemma exists_char {n : Nat} (valid : n.isValidChar) : ∃ ch : Char, ch.val.toNat = n :=
  ⟨Char.ofNatAux n valid, rfl⟩

lemma isCharacter_single (h : a.toNat < 0x80) : IsCharacter [a] := by
  have valid : a.toNat.isValidChar := Or.inl (by omega)
  obtain ⟨ch, code⟩ := exists_char valid
  have one : a.toNat ≤ 0x7F := by omega
  refine ⟨ch, ?_⟩
  simp [String.utf8EncodeChar, code, one]

lemma isCharacter_pair (h : isPair a b) : IsCharacter [a, b] := by
  rw [isPair_iff] at h
  obtain ⟨n, hn⟩ : ∃ n, n = (a.toNat - 0xC0) * 0x40 + (b.toNat - 0x80) := ⟨_, rfl⟩
  have valid : n.isValidChar := Or.inl (by omega)
  obtain ⟨ch, code⟩ := exists_char valid
  have one : ¬ n ≤ 0x7F := by omega
  have two : n ≤ 0x7FF := by omega
  refine ⟨ch, ?_⟩
  simp only [String.utf8EncodeChar, code, one, two, if_false, if_true, List.cons.injEq, and_true,
    ← UInt8.toNat_inj, UInt8.toNat_ofNat']
  omega

lemma isCharacter_triple (h : isTriple a b c) : IsCharacter [a, b, c] := by
  rw [isTriple_iff] at h
  obtain ⟨n, hn⟩ : ∃ n, n = ((a.toNat - 0xE0) * 0x40 + (b.toNat - 0x80)) * 0x40 +
    (c.toNat - 0x80) := ⟨_, rfl⟩
  have valid : n.isValidChar := by
    simp only [Nat.isValidChar]
    omega
  obtain ⟨ch, code⟩ := exists_char valid
  have one : ¬ n ≤ 0x7F := by omega
  have two : ¬ n ≤ 0x7FF := by omega
  have three : n ≤ 0xFFFF := by omega
  refine ⟨ch, ?_⟩
  simp only [String.utf8EncodeChar, code, one, two, three, if_false, if_true, List.cons.injEq,
    and_true, ← UInt8.toNat_inj, UInt8.toNat_ofNat']
  omega

lemma isCharacter_quad (h : isQuad a b c d) : IsCharacter [a, b, c, d] := by
  rw [isQuad_iff] at h
  obtain ⟨n, hn⟩ : ∃ n, n = (((a.toNat - 0xF0) * 0x40 + (b.toNat - 0x80)) * 0x40 +
    (c.toNat - 0x80)) * 0x40 + (d.toNat - 0x80) := ⟨_, rfl⟩
  have valid : n.isValidChar := by
    simp only [Nat.isValidChar]
    omega
  obtain ⟨ch, code⟩ := exists_char valid
  have one : ¬ n ≤ 0x7F := by omega
  have two : ¬ n ≤ 0x7FF := by omega
  have three : ¬ n ≤ 0xFFFF := by omega
  refine ⟨ch, ?_⟩
  simp only [String.utf8EncodeChar, code, one, two, three, if_false, List.cons.injEq, and_true,
    ← UInt8.toNat_inj, UInt8.toNat_ofNat']
  omega

/-- The sequences of more than one byte have no byte of ASCII. -/
lemma IsCharacter.toNat_ge (h : IsCharacter w) (long : 1 < w.length) :
    ∀ b ∈ w, 0x80 ≤ b.toNat := by
  rcases isCharacter_cases h with ⟨a, rfl, _⟩ | ⟨a, b, rfl, two⟩ | ⟨a, b, c, rfl, three⟩ |
    ⟨a, b, c, d, rfl, four⟩
  · simp at long
  · rw [isPair_iff] at two
    simp only [List.forall_mem_cons]
    exact ⟨by omega, by omega, by simp⟩
  · rw [isTriple_iff] at three
    simp only [List.forall_mem_cons]
    exact ⟨by omega, by omega, by omega, by simp⟩
  · rw [isQuad_iff] at four
    simp only [List.forall_mem_cons]
    exact ⟨by omega, by omega, by omega, by omega, by simp⟩

lemma IsFirst.ne_nil {rest : Text} (h : IsFirst w rest) : w ≠ [] := by
  rcases h with character | ⟨b, rfl, _⟩
  · rintro rfl
    simpa using isCharacter_cases character
  · exact List.cons_ne_nil b []

lemma IsFirst.of_append {r rest : Text} (h : IsFirst w (r ++ rest)) : IsFirst w r := by
  rcases h with character | ⟨b, rfl, none⟩
  · exact Or.inl character
  · refine Or.inr ⟨b, rfl, ?_⟩
    intro u character within
    exact none u character (within.trans (List.prefix_append (b :: r) rest))

/-- No character goes on behind a byte of ASCII. -/
lemma IsFirst.append {r : Text} {b : UInt8} (h : IsFirst w r) (last : b ∈ (w ++ r).getLast?)
    (ascii : b.toNat < 0x80) (rest : Text) : IsFirst w (r ++ rest) := by
  rcases h with character | ⟨a, rfl, none⟩
  · exact Or.inl character
  · refine Or.inr ⟨a, rfl, ?_⟩
    intro u character within
    rcases List.prefix_or_prefix_of_prefix within (List.prefix_append (a :: r) rest) with h | h
    · exact none u character h
    · by_cases long : 1 < u.length
      · -- `b` would be one of several bytes of `u`.
        have large := character.toNat_ge long b (h.subset (List.mem_of_mem_getLast? last))
        omega
      · have whole : a :: r = u := h.eq_of_length_le (by rw [List.length_cons]; omega)
        exact none u character (whole ▸ List.prefix_rfl)

end Encoding

namespace Text

/-- A sequence at the left end is the first character. -/
lemma firstWidth_append {u : Text} (h : IsCharacter u) (rest : Text) :
    firstWidth (u ++ rest) = u.length := by
  rcases isCharacter_cases h with ⟨a, rfl, one⟩ | ⟨a, b, rfl, two⟩ | ⟨a, b, c, rfl, three⟩ |
    ⟨a, b, c, d, rfl, four⟩
  · have noPair (b : UInt8) : ¬ isPair a b := by rw [isPair_iff]; omega
    have noTriple (b c : UInt8) : ¬ isTriple a b c := by rw [isTriple_iff]; omega
    have noQuad (b c d : UInt8) : ¬ isQuad a b c d := by rw [isQuad_iff]; omega
    rcases rest with _ | ⟨b, _ | ⟨c, _ | ⟨d, rest⟩⟩⟩ <;>
      simp [firstWidth, noPair, noTriple, noQuad]
  · simp [firstWidth, two]
  · have noPair : ¬ isPair a b := by rw [isTriple_iff] at three; rw [isPair_iff]; omega
    simp [firstWidth, noPair, three]
  · have noPair : ¬ isPair a b := by rw [isQuad_iff] at four; rw [isPair_iff]; omega
    have noTriple : ¬ isTriple a b c := by rw [isQuad_iff] at four; rw [isTriple_iff]; omega
    simp [firstWidth, noPair, noTriple, four]

/-- The first character is a sequence, unless it is one byte. -/
lemma isCharacter_take_firstWidth (a : UInt8) (r : Text) :
    firstWidth (a :: r) = 1 ∨ IsCharacter ((a :: r).take (firstWidth (a :: r))) := by
  rcases r with _ | ⟨b, r⟩
  · exact Or.inl rfl
  by_cases two : isPair a b
  · refine Or.inr ?_
    simpa [firstWidth, two] using isCharacter_pair two
  rcases r with _ | ⟨c, r⟩
  · simp [firstWidth, two]
  by_cases three : isTriple a b c
  · refine Or.inr ?_
    simpa [firstWidth, two, three] using isCharacter_triple three
  rcases r with _ | ⟨d, r⟩
  · simp [firstWidth, two, three]
  by_cases four : isQuad a b c d
  · refine Or.inr ?_
    simpa [firstWidth, two, three, four] using isCharacter_quad four
  · simp [firstWidth, two, three, four]

/-- What is cut off at the left end is the first character. -/
lemma isFirst_firstWidth (a : UInt8) (r : Text) :
    IsFirst ((a :: r).take (firstWidth (a :: r))) ((a :: r).drop (firstWidth (a :: r))) := by
  rcases isCharacter_take_firstWidth a r with one | character
  · by_cases begins : ∃ u, IsCharacter u ∧ u <+: a :: r
    · obtain ⟨u, character, rest, whole⟩ := begins
      have width := firstWidth_append character rest
      rw [whole] at width
      refine Or.inl ?_
      rw [width, ← whole, List.take_left]
      exact character
    · rw [one]
      refine Or.inr ⟨a, rfl, ?_⟩
      intro u character within
      exact begins ⟨u, character, within⟩
  · exact Or.inl character

lemma exists_isFirst (a : UInt8) (r : Text) :
    ∃ v rest, a :: r = a :: v ++ rest ∧ IsFirst (a :: v) rest := by
  have first := isFirst_firstWidth a r
  have whole := List.take_append_drop (firstWidth (a :: r)) (a :: r)
  cases width : firstWidth (a :: r) with
  | zero =>
    rw [width] at first
    exact absurd rfl first.ne_nil
  | succ n =>
    rw [width] at first whole
    exact ⟨r.take n, r.drop n, whole.symm, first⟩

lemma firstWidth_of_isFirst {w rest : Text} (h : IsFirst w rest) :
    firstWidth (w ++ rest) = w.length := by
  rcases h with character | ⟨b, rfl, none⟩
  · exact firstWidth_append character rest
  · rcases isCharacter_take_firstWidth b rest with one | character
    · exact one
    · exact absurd (List.take_prefix _ _) (none _ character)

/-- The first character of a text, then the characters of the rest. -/
lemma glyphs_of_isFirst {w rest : Text} (h : IsFirst w rest) :
    glyphs (w ++ rest) = ⟨w⟩ :: glyphs rest := by
  have width := firstWidth_of_isFirst h
  cases w with
  | nil => exact absurd rfl h.ne_nil
  | cons a w =>
    rw [List.cons_append] at width ⊢
    rw [glyphs_cons, width, List.length_cons, Nat.add_sub_cancel, List.take_left, List.drop_left]

/-- A first character is one character by itself. -/
lemma glyphs_self {w rest : Text} (h : IsFirst w rest) : w.glyphs = [⟨w⟩] := by
  have only : IsFirst w [] := IsFirst.of_append (by simpa using h)
  simpa using glyphs_of_isFirst only

end Text

end ThreeAddress
