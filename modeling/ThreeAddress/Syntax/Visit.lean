import ThreeAddress.Syntax.Tree

/-!
# Visiting a tree

The nodes of a tree in source order, each one before its children. Holes are passed over.
-/

namespace ThreeAddress

def Expr.visit : Expr → List Node
  | hole => []
  | var id => [.expr (.var id)]
  | num token digits => [.expr (.num token digits)]
  | binary token op left right => .expr (.binary token op left right) :: left.visit ++ right.visit

mutual

def Stmt.visit : Stmt → List Node
  | .hole => []
  | .declare token id => [.stmt (.declare token id), .expr (.var id)]
  | .assign token id value => .stmt (.assign token id value) :: .expr (.var id) :: value.visit
  | .print token value => .stmt (.print token value) :: value.visit
  | .block brace body => .stmt (.block brace body) :: Stmt.visitAll body
  | .ifThen token cond brace body =>
    .stmt (.ifThen token cond brace body) :: cond.visit ++
      .stmt (.block brace body) :: Stmt.visitAll body
  | .ifElse token cond brace body elseBrace elseBody =>
    .stmt (.ifElse token cond brace body elseBrace elseBody) :: cond.visit ++
      .stmt (.block brace body) :: Stmt.visitAll body ++
      .stmt (.block elseBrace elseBody) :: Stmt.visitAll elseBody
  | .whileDo token cond brace body =>
    .stmt (.whileDo token cond brace body) :: cond.visit ++
      .stmt (.block brace body) :: Stmt.visitAll body

def Stmt.visitAll : List Stmt → List Node
  | [] => []
  | s :: rest => s.visit ++ Stmt.visitAll rest

end

def Node.visit : Node → List Node
  | program p => .program p :: Stmt.visitAll p
  | stmt s => s.visit
  | expr e => e.visit

end ThreeAddress
