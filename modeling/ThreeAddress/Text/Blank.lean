import ThreeAddress.Text.Glyph

/-!
# White space and letter case

Two sets of blank characters, trimming by such a set, and the lower case of the characters
that have an unmarked Latin letter for it.
-/

namespace ThreeAddress

/-- The characters with the Unicode property White_Space. -/
def isWhiteSpace (c : Nat) : Bool :=
  (0x09 ≤ c && c ≤ 0x0D) || c == 0x20 || c == 0x85 || c == 0xA0 || c == 0x1680 ||
    (0x2000 ≤ c && c ≤ 0x200A) || c == 0x2028 || c == 0x2029 || c == 0x202F || c == 0x205F ||
    c == 0x3000

/-- The white space below U+0100 that does not end a line. A carriage return is among it. -/
def isSpacing (c : Nat) : Bool :=
  c == 0x09 || (0x0B ≤ c && c ≤ 0x0D) || c == 0x20 || c == 0x85 || c == 0xA0

/-- A character whose code point is in the set. A stray byte is in none. -/
def Glyph.isIn (p : Nat → Bool) (g : Glyph) : Bool := g.codePoint?.any p

/-- The lower case of A to Z, of the Kelvin sign and of the dotted capital I, which are
all the characters that become one of a to z. Any other character stays. -/
def Glyph.lower (g : Glyph) : Glyph :=
  match g.codePoint? with
  | some 0x212A => ⟨"k"⟩
  | some 0x130 => ⟨"i"⟩
  | some c => if 0x41 ≤ c && c ≤ 0x5A then ⟨[UInt8.ofNat (c + 0x20)]⟩ else g
  | none => g

namespace Text

/-- Drops the characters of the set at the left end. -/
def trimLeft (p : Nat → Bool) (t : Text) : Text :=
  ofGlyphs (t.glyphs.dropWhile (Glyph.isIn p))

/-- Drops the characters of the set at the right end. -/
def trimRight (p : Nat → Bool) (t : Text) : Text :=
  ofGlyphs (t.glyphs.reverse.dropWhile (Glyph.isIn p)).reverse

/-- Drops the characters of the set at both ends. -/
def trim (p : Nat → Bool) (t : Text) : Text := trimRight p (trimLeft p t)

/-- The text with its characters in lower case, as `Glyph.lower` has it. -/
def lower (t : Text) : Text := ofGlyphs (t.glyphs.map Glyph.lower)

example : lower "SKİP" = "skip" := by decide
example : trim isWhiteSpace "　 a b\n" = "a b" := by decide

end Text
end ThreeAddress
