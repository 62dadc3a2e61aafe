import ThreeAddress.Text.Glyph
import ThreeAddress.Token

/-!
# Segments of a source

A source is cut into segments from the left, each as long as its shape allows: words,
numbers, runs of blanks, single marks, and single characters that have no meaning. Only
ASCII letters and digits make words and numbers, and only tab, newline, form feed,
carriage return and space are blank.
-/

namespace ThreeAddress

def isLetter (b : UInt8) : Bool :=
  (0x41 ≤ b && b ≤ 0x5A) || (0x61 ≤ b && b ≤ 0x7A) || b == 0x5F

def isDigit (b : UInt8) : Bool := 0x30 ≤ b && b ≤ 0x39

def isBlank (b : UInt8) : Bool :=
  b == 0x09 || b == 0x0A || b == 0x0C || b == 0x0D || b == 0x20

/-- The kind of a byte that is a token by itself. -/
def markKind? (b : UInt8) : Option Kind :=
  if b = 0x3D then some .assignOp
  else if b = 0x3B then some .semicolon
  else if b = 0x2B ∨ b = 0x2D ∨ b = 0x2A ∨ b = 0x2F then some .operator
  else if b = 0x3C ∨ b = 0x3E then some .comparator
  else if b = 0x28 then some .leftParen
  else if b = 0x29 then some .rightParen
  else if b = 0x7B then some .leftBrace
  else if b = 0x7D then some .rightBrace
  else none

/-- What a segment is. -/
inductive Shape where
  | word
  | number
  | blank
  | mark (kind : Kind)
  | unknown
  deriving DecidableEq, Repr

namespace Shape

/-- The shape of the segment that a character begins. -/
def startingWith (g : Glyph) : Shape :=
  match g.bytes with
  | [b] =>
    if isLetter b then word
    else if isDigit b then number
    else if isBlank b then blank
    else match markKind? b with
      | some k => mark k
      | none => unknown
  | _ => unknown

/-- A segment of this shape goes on with the character. -/
def goesOn (s : Shape) (g : Glyph) : Bool :=
  match s, g.bytes with
  | word, [b] => isLetter b || isDigit b
  | number, [b] => isDigit b
  | blank, [b] => isBlank b
  | _, _ => false

end Shape

structure Segment where
  shape : Shape
  glyphs : List Glyph
  deriving DecidableEq, Repr

namespace Segment

def lexeme (s : Segment) : Text := Text.ofGlyphs s.glyphs

/-- The kind of token a segment makes. Blanks make none. -/
def kind? (s : Segment) : Option Kind :=
  match s.shape with
  | .word => some (Kind.ofWord s.lexeme)
  | .number => some .number
  | .blank => none
  | .mark k => some k
  | .unknown => some .unrecognized

/-- Splits off what an open segment of the given shape still takes, and cuts the rest into
segments. -/
def cut : Shape → List Glyph → List Glyph × List Segment
  | _, [] => ([], [])
  | s, g :: gs =>
    if s.goesOn g then
      let (more, rest) := cut s gs
      (g :: more, rest)
    else
      let (more, rest) := cut (.startingWith g) gs
      ([], ⟨.startingWith g, g :: more⟩ :: rest)

/-- The segments of a source. -/
def ofGlyphs (gs : List Glyph) : List Segment := (cut .unknown gs).2

@[simp] theorem lexeme_mk (s : Shape) (gs : List Glyph) :
    (Segment.mk s gs).lexeme = Text.ofGlyphs gs := rfl

theorem append_flatMap_cut (s : Shape) (gs : List Glyph) :
    (cut s gs).1 ++ (cut s gs).2.flatMap glyphs = gs := by
  induction gs generalizing s with
  | nil => rfl
  | cons g gs ih =>
    by_cases h : s.goesOn g
    · simp [cut, h, ih s]
    · simp [cut, h, ih (.startingWith g)]

/-- Cutting a source into segments loses nothing. -/
theorem flatMap_glyphs_ofGlyphs (gs : List Glyph) : (ofGlyphs gs).flatMap glyphs = gs := by
  have h := append_flatMap_cut .unknown gs
  have hnil : (cut .unknown gs).1 = [] := by
    cases gs with
    | nil => rfl
    | cons g gs => simp [cut, Shape.goesOn]
  simpa [ofGlyphs, hnil] using h

example : (ofGlyphs (Text.glyphs "x1=07")).map lexeme = [utf8 "x1", "=", "07"] := by decide

end Segment
end ThreeAddress
