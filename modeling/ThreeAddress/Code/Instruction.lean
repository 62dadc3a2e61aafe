import ThreeAddress.Digest
import ThreeAddress.Text.Quoted

/-!
# Three-address code

An instruction copies one operand to its destination, or applies a binary operation to
two. Operands are names and numbers, both kept as text.
-/

namespace ThreeAddress

/-- The operations, by their codes from 0 on. Further codes have no meaning. -/
inductive Op where
  | copy
  | add
  | sub
  | mul
  | div
  | less
  | greater
  | unknown (code : UInt8)
  deriving DecidableEq, Repr

namespace Op

def code : Op → UInt8
  | copy => 0
  | add => 1
  | sub => 2
  | mul => 3
  | div => 4
  | less => 5
  | greater => 6
  | unknown code => code

/-- The operations with two operands. -/
def binary : List Op := [add, sub, mul, div, less, greater]

def ofCode (code : UInt8) : Op :=
  ((copy :: binary).find? fun op => op.code == code).getD (unknown code)

def name : Op → Text
  | copy => "OpCopy"
  | add => "OpAdd"
  | sub => "OpSub"
  | mul => "OpMul"
  | div => "OpDiv"
  | less => "OpLess"
  | greater => "OpGreater"
  | unknown code => "Op(" ++ Text.ofNat code.toNat ++ ")"

/-- The spelling of an operation between its operands. -/
def symbol : Op → Text
  | copy => []
  | add => "+"
  | sub => "-"
  | mul => "*"
  | div => "/"
  | less => "<"
  | greater => ">"
  | unknown _ => "?"

/-- The binary operation with that spelling. -/
def ofSymbol? (symbol : Text) : Option Op := binary.find? fun op => op.symbol == symbol

theorem ofSymbol?_symbol {op : Op} (h : op ∈ binary) : ofSymbol? op.symbol = some op := by
  have all : ∀ op ∈ binary, ofSymbol? op.symbol = some op := by decide +kernel
  exact all op h

theorem mem_binary_of_ofSymbol? {symbol : Text} {op : Op} (h : ofSymbol? symbol = some op) :
    op ∈ binary ∧ op.symbol = symbol :=
  ⟨List.mem_of_find?_eq_some h, by simpa using List.find?_some h⟩

end Op

/-- No operation has this spelling. -/
structure UnknownOperator where
  symbol : Text
  deriving DecidableEq, Repr

def UnknownOperator.message (e : UnknownOperator) : Text :=
  "operator " ++ Text.quoted e.symbol ++ " undefined"

/-- The binary operation with that spelling, or why there is none. -/
def Op.lookup (symbol : Text) : Except UnknownOperator Op :=
  match ofSymbol? symbol with
  | some op => .ok op
  | none => .error ⟨symbol⟩

/-- One line of code. A copy makes no use of its right operand. -/
structure Instruction where
  dest : Text
  op : Op
  left : Text
  right : Text
  deriving DecidableEq, Repr

namespace Instruction

def copy (dest value : Text) : Instruction := ⟨dest, .copy, value, []⟩

def text (i : Instruction) : Text :=
  match i.op with
  | .copy => i.dest ++ " = " ++ i.left
  | op => i.dest ++ " = " ++ i.left ++ " " ++ op.symbol ++ " " ++ i.right

end Instruction

/-- A statement that no code was made for. -/
structure Omission where
  statement : Text
  line : Int
  deriving DecidableEq, Repr

def Omission.text (o : Omission) : Text :=
  o.statement ++ " statement on line " ++ Text.ofInt o.line ++ " not lowered"

structure Code where
  instructions : List Instruction
  omissions : List Omission
  /-- How many temporaries have been handed out. -/
  temporaries : Nat
  /-- How often an operand was missing or could not be computed. -/
  fallbacks : Nat
  deriving DecidableEq, Repr

namespace Code

def empty : Code := ⟨[], [], 0, 0⟩

/-- The instructions, one on a line. -/
def text (c : Code) : Text := Text.lines (c.instructions.map Instruction.text)

/-- The digest of code sees its instructions only. -/
def digest (c : Code) : Text := Text.digest c.text

end Code
end ThreeAddress
