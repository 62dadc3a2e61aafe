import ThreeAddress.Text.Glyph

/-!
# Positions in a source

Lines and columns count from one. A column counts characters, not bytes, and a line ends
behind its newline.
-/

namespace ThreeAddress

structure Position where
  line : Nat
  column : Nat
  deriving DecidableEq, Repr

namespace Position

def start : Position := ⟨1, 1⟩

/-- The place behind one character. -/
def step (p : Position) (g : Glyph) : Position :=
  if g.bytes = [Text.newline] then ⟨p.line + 1, 1⟩ else ⟨p.line, p.column + 1⟩

/-- The place behind some characters. -/
def after (p : Position) (gs : List Glyph) : Position := gs.foldl step p

@[simp] theorem after_nil (p : Position) : p.after [] = p := rfl

@[simp] theorem after_cons (p : Position) (g : Glyph) (gs : List Glyph) :
    p.after (g :: gs) = (p.step g).after gs := rfl

@[simp] theorem after_append (p : Position) (gs hs : List Glyph) :
    p.after (gs ++ hs) = (p.after gs).after hs := by
  simp [after]

example : start.after (Text.glyphs "a\né") = ⟨2, 2⟩ := by decide

end Position
end ThreeAddress
