import ThreeAddress.Code.Instruction
import ThreeAddress.Syntax.Tree

/-!
# Lowering trees to code

Only assignments are lowered. Each operation in their values gets a temporary of its own,
left operands before right ones. The statements in the blocks of `if` and `while` are
lowered one after another as if they stood in the open, conditions make no code, and `if`,
`while` and `print` are noted as omitted.
-/

namespace ThreeAddress

/-- The operand in place of one that is missing or cannot be computed. -/
def fallbackOperand : Text := "0"

/-- The name of a temporary. -/
def temporary (n : Nat) : Text := "t" ++ Text.ofNat n

namespace Code

/-- Makes an operation into the next temporary. -/
def operate (c : Code) (op : Op) (left right : Text) : Text × Code :=
  let dest := temporary c.temporaries
  (dest, { c with
    instructions := c.instructions ++ [⟨dest, op, left, right⟩]
    temporaries := c.temporaries + 1 })

def copy (c : Code) (dest value : Text) : Code :=
  { c with instructions := c.instructions ++ [.copy dest value] }

/-- Falls back to a fixed operand. -/
def fallBack (c : Code) : Text × Code := (fallbackOperand, { c with fallbacks := c.fallbacks + 1 })

/-- Notes that no code is made for the statement of this token. -/
def note (c : Code) (t : Token) : Code :=
  { c with omissions := c.omissions ++ [⟨t.lexeme, t.line⟩] }

end Code

/-- The operand that holds the value of an expression, and the code extended to compute it. -/
def Expr.lower : Expr → Code → Text × Code
  | hole, c => c.fallBack
  | var id, c => (id.name, c)
  | num _ digits, c => (digits, c)
  | binary _ op left right, c =>
    let (l, c) := left.lower c
    let (r, c) := right.lower c
    match Op.ofSymbol? op with
    | some op => c.operate op l r
    | none => c.fallBack

mutual

def Stmt.lower : Stmt → Code → Code
  | .hole, c => c
  | .declare .., c => c
  | .assign _ id value, c =>
    let (v, c) := value.lower c
    c.copy id.name v
  | .print token _, c => c.note token
  | .block _ body, c => Stmt.lowerAll body c
  | .ifThen token _ _ body, c => Stmt.lowerAll body (c.note token)
  | .ifElse token _ _ body _ elseBody, c =>
    Stmt.lowerAll elseBody (Stmt.lowerAll body (c.note token))
  | .whileDo token _ _ body, c => Stmt.lowerAll body (c.note token)

def Stmt.lowerAll : List Stmt → Code → Code
  | [], c => c
  | s :: rest, c => Stmt.lowerAll rest (s.lower c)

end

/-- The code extended by that of a node. An expression by itself makes none. -/
def Node.lower : Node → Code → Code
  | program p, c => Stmt.lowerAll p c
  | stmt s, c => s.lower c
  | expr _, c => c

/-- The code of a program. -/
def Program.lower (p : Program) : Code := Stmt.lowerAll p .empty

end ThreeAddress
