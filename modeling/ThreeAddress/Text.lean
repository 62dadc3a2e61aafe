/-!
# Texts

A text is a sequence of bytes. Sources, files and arguments need not be valid UTF-8,
so nothing here assumes that they are.
-/

namespace ThreeAddress

/-- A text is its sequence of bytes. -/
abbrev Text := List UInt8

/-- The UTF-8 bytes of a string. -/
def utf8 (s : String) : Text :=
  s.toList.flatMap String.utf8EncodeChar

instance : Coe String Text := ⟨utf8⟩

namespace Text

/-- The byte that ends a line. -/
def newline : UInt8 := 10

/-- The text followed by a line end. -/
def line (t : Text) : Text := t ++ [newline]

/-- The texts, each on a line of its own. -/
def lines (ts : List Text) : Text := ts.flatMap line

/-- The decimal digits of a natural number. -/
def ofNat (n : Nat) : Text := (Nat.toDigits 10 n).map Char.toUInt8

/-- The decimal digits of an integer, behind `-` if it is negative. -/
def ofInt : Int → Text
  | .ofNat n => ofNat n
  | .negSucc n => "-" ++ ofNat (n + 1)

/-- One hexadecimal digit, in lower case. -/
def hexDigit (n : Nat) : UInt8 := (Nat.digitChar (n % 16)).toUInt8

/-- The last `width` hexadecimal digits of `n`. -/
def hex : (width : Nat) → (n : Nat) → Text
  | 0, _ => []
  | width + 1, n => hex width (n / 16) ++ [hexDigit n]

/-- Two hexadecimal digits for each byte. -/
def toHex (t : Text) : Text := t.flatMap fun b => hex 2 b.toNat

/-- The text filled up with spaces on the right to `width` bytes. -/
def padRight (width : Nat) (t : Text) : Text :=
  t ++ List.replicate (width - t.length) 32

/-- The text without a leading `start`, if it has one. -/
def after? (start t : Text) : Option Text :=
  if start.isPrefixOf t then some (t.drop start.length) else none

/-- What stands before the first `b`, and what follows it if there is one. -/
def cutAt (b : UInt8) (t : Text) : Text × Option Text :=
  (t.takeWhile (· != b), (t.dropWhile (· != b)).tail?)

example : ofInt (-120) = "-120" := by decide
example : hex 4 0x200b = "200b" := by decide

end Text
end ThreeAddress
