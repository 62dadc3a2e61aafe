import ThreeAddress.Scope.Table

/-!
# Checking the scope of a tree

The tree is walked in source order up to the first violation: the target of an assignment
before its value, left operands before right ones, conditions before blocks. Blocks open
no scope of their own. The declarations before a violation stay in the table.
-/

namespace ThreeAddress

/-- The table after a check, and the violation that ended it. -/
structure Verdict where
  table : Table
  violation : Option Violation
  deriving DecidableEq, Repr

namespace Verdict

/-- Goes on unless there was a violation. -/
def andThen (v : Verdict) (next : Table → Verdict) : Verdict :=
  match v.violation with
  | none => next v.table
  | some _ => v

/-- The table of a check that found nothing. -/
def toExcept (v : Verdict) : Except Violation Table :=
  match v.violation with
  | none => .ok v.table
  | some e => .error e

end Verdict

/-- The first use in an expression that has no declaration. -/
def Expr.check (t : Table) : Expr → Option Violation
  | hole => none
  | var id => t.use id
  | num .. => none
  | binary _ _ left right => (left.check t).or (right.check t)

mutual

def Stmt.check : Stmt → Table → Verdict
  | .hole, t => ⟨t, none⟩
  | .declare _ id, t =>
    match t.declare id with
    | .ok t => ⟨t, none⟩
    | .error e => ⟨t, some e⟩
  | .assign _ id value, t => ⟨t, (t.use id).or (value.check t)⟩
  | .print _ value, t => ⟨t, value.check t⟩
  | .block _ body, t => Stmt.checkAll body t
  | .ifThen _ cond _ body, t =>
    (Verdict.mk t (cond.check t)).andThen fun t => Stmt.checkAll body t
  | .ifElse _ cond _ body _ elseBody, t =>
    ((Verdict.mk t (cond.check t)).andThen fun t => Stmt.checkAll body t).andThen
      fun t => Stmt.checkAll elseBody t
  | .whileDo _ cond _ body, t =>
    (Verdict.mk t (cond.check t)).andThen fun t => Stmt.checkAll body t

def Stmt.checkAll : List Stmt → Table → Verdict
  | [], t => ⟨t, none⟩
  | s :: rest, t => (s.check t).andThen fun t => Stmt.checkAll rest t

end

def Node.check : Node → Table → Verdict
  | program p, t => Stmt.checkAll p t
  | stmt s, t => s.check t
  | expr e, t => ⟨t, e.check t⟩

/-- The table of a program whose names are in scope. -/
def Program.check (p : Program) : Except Violation Table := (Stmt.checkAll p .empty).toExcept

end ThreeAddress
