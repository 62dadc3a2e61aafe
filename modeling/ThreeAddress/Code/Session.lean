import ThreeAddress.Code.Lower

/-!
# Lowering sessions

A session extends one piece of code step by step. Code that is given back is cleared and
kept as a spare, and whoever needs a fresh piece takes a spare if there is one.
-/

namespace ThreeAddress

/-- Forgets all that was made. -/
def Code.clear (c : Code) : Code :=
  { c with instructions := [], omissions := [], temporaries := 0, fallbacks := 0 }

@[simp] theorem Code.clear_eq (c : Code) : c.clear = .empty := rfl

structure Session where
  code : Code
  spares : List Code
  deriving DecidableEq, Repr

namespace Session

inductive Step where
  /-- Lowers a node into the code of the session. -/
  | lower (n : Node)
  /-- Clears the code of the session. -/
  | reset
  /-- Gives the code of the session back and takes another piece. -/
  | recycle
  /-- Lowers a program by itself, into a piece that is given back at once. -/
  | aside (p : Program)
  deriving Repr

def start : Session := ⟨.empty, []⟩

/-- A piece of code to begin with, and the spares left. -/
def take : List Code → Code × List Code
  | [] => (.empty, [])
  | c :: rest => (c, rest)

/-- The spares after a piece is given back. -/
def giveBack (spares : List Code) (c : Code) : List Code := c.clear :: spares

/-- The session after a step, and the code of a program lowered by itself. -/
def step (s : Session) : Step → Session × Option Code
  | .lower n => ({ s with code := n.lower s.code }, none)
  | .reset => ({ s with code := s.code.clear }, none)
  | .recycle =>
    let (code, spares) := take (giveBack s.spares s.code)
    (⟨code, spares⟩, none)
  | .aside p =>
    let (c, spares) := take s.spares
    let made := (Node.program p).lower c
    ({ s with spares := giveBack spares made }, some made)

end Session
end ThreeAddress
