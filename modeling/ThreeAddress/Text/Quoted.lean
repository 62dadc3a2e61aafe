import ThreeAddress.Text.Blank
import ThreeAddress.Text.Printable

/-!
# Quoted texts

Messages show a text between double quotes, with escapes for whatever could not be read
off the screen again: quotes, backslashes, control and other unprintable characters, and
bytes that belong to no character.
-/

namespace ThreeAddress

/-- The letter that stands behind the backslash for some control characters. -/
def escapeLetter? : Nat → Option Text
  | 0x07 => some "a"
  | 0x08 => some "b"
  | 0x0C => some "f"
  | 0x0A => some "n"
  | 0x0D => some "r"
  | 0x09 => some "t"
  | 0x0B => some "v"
  | _ => none

/-- One character as it stands between quotes. -/
def Glyph.escaped (g : Glyph) : Text :=
  match g.codePoint? with
  | none => "\\x" ++ Text.toHex g.bytes
  | some c =>
    if c = 0x22 ∨ c = 0x5C then "\\" ++ g.bytes
    else if isPrintable c then g.bytes
    else match escapeLetter? c with
      | some l => "\\" ++ l
      | none =>
        if c < 0x80 then "\\x" ++ Text.hex 2 c
        else if c < 0x10000 then "\\u" ++ Text.hex 4 c
        else "\\U" ++ Text.hex 8 c

/-- The text between double quotes. -/
def Text.quoted (t : Text) : Text := "\"" ++ t.glyphs.flatMap Glyph.escaped ++ "\""

example : Text.quoted (utf8 "a\"\n" ++ [0xFF]) = "\"a\\\"\\n\\xff\"" := by
  decide +kernel

end ThreeAddress
