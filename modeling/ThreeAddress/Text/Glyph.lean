import ThreeAddress.Text

/-!
# Characters of a text

A text is cut into characters from the left. A character is a well-formed UTF-8
sequence, or a single byte where no such sequence begins: overlong, cut-off and
surrogate sequences fall apart into their bytes. Nothing is lost by the cut
(`ofGlyphs_glyphs`).
-/

namespace ThreeAddress

/-- One character of a text, by its bytes. -/
structure Glyph where
  bytes : Text
  deriving DecidableEq, Repr

namespace Glyph

/-- A byte that continues a sequence. -/
def isTail (b : UInt8) : Bool := 0x80 ≤ b && b ≤ 0xBF

/-- The well-formed sequences of two bytes. -/
def isPair (a b : UInt8) : Bool := 0xC2 ≤ a && a ≤ 0xDF && isTail b

/-- The well-formed sequences of three bytes: none is overlong and none a surrogate. -/
def isTriple (a b c : UInt8) : Bool :=
  0xE0 ≤ a && a ≤ 0xEF && isTail b && isTail c &&
    (a != 0xE0 || 0xA0 ≤ b) && (a != 0xED || b ≤ 0x9F)

/-- The well-formed sequences of four bytes: none is overlong and none beyond U+10FFFF. -/
def isQuad (a b c d : UInt8) : Bool :=
  0xF0 ≤ a && a ≤ 0xF4 && isTail b && isTail c && isTail d &&
    (a != 0xF0 || 0x90 ≤ b) && (a != 0xF4 || b ≤ 0x8F)

/-- The code point, or `none` for a byte that begins no sequence. -/
def codePoint? (g : Glyph) : Option Nat :=
  match g.bytes with
  | [a] => if a < 0x80 then some a.toNat else none
  | [a, b] => some ((a.toNat - 0xC0) * 0x40 + (b.toNat - 0x80))
  | [a, b, c] => some (((a.toNat - 0xE0) * 0x40 + (b.toNat - 0x80)) * 0x40 + (c.toNat - 0x80))
  | [a, b, c, d] =>
    some ((((a.toNat - 0xF0) * 0x40 + (b.toNat - 0x80)) * 0x40 + (c.toNat - 0x80)) * 0x40
      + (d.toNat - 0x80))
  | _ => none

end Glyph

namespace Text

open Glyph

/-- How many bytes the first character of a text has. -/
def firstWidth : Text → Nat
  | a :: b :: r =>
    if isPair a b then 2
    else match r with
      | c :: r =>
        if isTriple a b c then 3
        else match r with
          | d :: _ => if isQuad a b c d then 4 else 1
          | [] => 1
      | [] => 1
  | _ => 1

/-- Splits off the next `n` bytes, which belong to a character begun before, and cuts the
rest into characters. -/
def cutGlyphs : (n : Nat) → Text → Text × List Glyph
  | _, [] => ([], [])
  | 0, a :: r =>
    let (tail, gs) := cutGlyphs (firstWidth (a :: r) - 1) r
    ([], ⟨a :: tail⟩ :: gs)
  | n + 1, a :: r =>
    let (tail, gs) := cutGlyphs n r
    (a :: tail, gs)

/-- The characters of a text. -/
def glyphs (t : Text) : List Glyph := (cutGlyphs 0 t).2

/-- The text of some characters. -/
def ofGlyphs (gs : List Glyph) : Text := gs.flatMap Glyph.bytes

@[simp] theorem ofGlyphs_nil : ofGlyphs [] = [] := rfl

@[simp] theorem ofGlyphs_cons (g : Glyph) (gs : List Glyph) :
    ofGlyphs (g :: gs) = g.bytes ++ ofGlyphs gs := rfl

@[simp] theorem ofGlyphs_append (gs hs : List Glyph) :
    ofGlyphs (gs ++ hs) = ofGlyphs gs ++ ofGlyphs hs := by
  simp [ofGlyphs]

theorem cutGlyphs_eq (n : Nat) (t : Text) : cutGlyphs n t = (t.take n, glyphs (t.drop n)) := by
  induction t generalizing n with
  | nil => simp [cutGlyphs, glyphs]
  | cons a r ih => cases n <;> simp [cutGlyphs, glyphs, ih]

@[simp] theorem glyphs_nil : glyphs [] = [] := rfl

/-- The first character takes `firstWidth` bytes, and the rest is cut on its own. -/
theorem glyphs_cons (a : UInt8) (r : Text) :
    glyphs (a :: r) = ⟨a :: r.take (firstWidth (a :: r) - 1)⟩ ::
      glyphs (r.drop (firstWidth (a :: r) - 1)) := by
  rw [glyphs, cutGlyphs, cutGlyphs_eq]

theorem append_ofGlyphs_cutGlyphs (n : Nat) (t : Text) :
    (cutGlyphs n t).1 ++ ofGlyphs (cutGlyphs n t).2 = t := by
  induction t generalizing n with
  | nil => rfl
  | cons a r ih => cases n <;> simp [cutGlyphs, ih]

/-- Cutting a text into characters loses nothing. -/
@[simp] theorem ofGlyphs_glyphs (t : Text) : ofGlyphs t.glyphs = t := by
  have h := append_ofGlyphs_cutGlyphs 0 t
  rw [cutGlyphs_eq] at h
  simpa using h

example : (utf8 "aé" ++ [0xE2, 0x82]).glyphs = [⟨[97]⟩, ⟨[0xC3, 0xA9]⟩, ⟨[0xE2]⟩, ⟨[0x82]⟩] := by
  decide

end Text
end ThreeAddress
