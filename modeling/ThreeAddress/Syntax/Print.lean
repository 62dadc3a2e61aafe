import ThreeAddress.Syntax.Tree

/-!
# Source form of a tree

The source form spells every tree in one way: parentheses around each operation and none
else, one space between words, and each statement of a program on a line of its own.
-/

namespace ThreeAddress

def Expr.source : Expr → Text
  | hole => []
  | var id => id.name
  | num _ digits => digits
  | binary _ op left right => "(" ++ left.source ++ " " ++ op ++ " " ++ right.source ++ ")"

mutual

def Stmt.source : Stmt → Text
  | .hole => []
  | .declare _ id => "int " ++ id.name ++ ";"
  | .assign _ id value => id.name ++ " = " ++ value.source ++ ";"
  | .print _ value => "print(" ++ value.source ++ ");"
  | .block _ body => "\x7b" ++ Stmt.bodySource body ++ " \x7d"
  | .ifThen _ cond _ body =>
    "if (" ++ cond.source ++ ") \x7b" ++ Stmt.bodySource body ++ " \x7d"
  | .ifElse _ cond _ body _ elseBody =>
    "if (" ++ cond.source ++ ") \x7b" ++ Stmt.bodySource body ++ " \x7d else \x7b" ++
      Stmt.bodySource elseBody ++ " \x7d"
  | .whileDo _ cond _ body =>
    "while (" ++ cond.source ++ ") \x7b" ++ Stmt.bodySource body ++ " \x7d"

/-- The statements between the braces of a block, each behind a space. -/
def Stmt.bodySource : List Stmt → Text
  | [] => []
  | s :: rest => " " ++ s.source ++ Stmt.bodySource rest

end

def Program.source (p : Program) : Text := Text.lines (p.map Stmt.source)

def Node.source : Node → Text
  | program p => Program.source p
  | stmt s => s.source
  | expr e => e.source

end ThreeAddress
