import ThreeAddress.Proofs.Accepted

/-!
# Programs as lists of actions

Of a program only the assignments and the statements that are left out matter to its code,
in source order and without the blocks around them. The code of a program is that of its
actions, one behind another, so what is true of code can be shown by going along a list.
-/

namespace ThreeAddress

/-- What lowering has to do with a statement. -/
inductive Action where
  | assign (id : Ident) (value : Expr)
  | leaveOut (token : Token)
  deriving DecidableEq, Repr

mutual

/-- The actions of a statement in source order. -/
def Stmt.actions : Stmt → List Action
  | .hole => []
  | .declare .. => []
  | .assign _ id value => [.assign id value]
  | .print token _ => [.leaveOut token]
  | .block _ body => Stmt.actionsAll body
  | .ifThen token _ _ body => .leaveOut token :: Stmt.actionsAll body
  | .ifElse token _ _ body _ elseBody =>
    .leaveOut token :: (Stmt.actionsAll body ++ Stmt.actionsAll elseBody)
  | .whileDo token _ _ body => .leaveOut token :: Stmt.actionsAll body

def Stmt.actionsAll : List Stmt → List Action
  | [] => []
  | s :: rest => s.actions ++ Stmt.actionsAll rest

end

namespace Action

/-- The piece of code of an action, `n` being the first free temporary. -/
def emit (n : Nat) : Action → Code
  | assign id value => (value.emit n).2 ++ .copying id.name (value.emit n).1
  | leaveOut token => .omitted token

def emitAll (n : Nat) : List Action → Code
  | [] => .empty
  | a :: rest => a.emit n ++ emitAll (n + (a.emit n).temporaries) rest

lemma emitAll_singleton (n : Nat) (a : Action) : emitAll n [a] = a.emit n :=
  Code.append_empty _

lemma emitAll_append (n : Nat) (as bs : List Action) :
    emitAll n (as ++ bs) = emitAll n as ++ emitAll (n + (emitAll n as).temporaries) bs := by
  induction as generalizing n with
  | nil => exact (Code.empty_append _).symm
  | cons a as ih =>
    rw [List.cons_append, emitAll, emitAll, ih, Code.append_assoc, Code.temporaries_append,
      Nat.add_assoc]

/-- Statements that are left out take no temporary. -/
lemma emitAll_leaveOut (n : Nat) (token : Token) (as : List Action) :
    emitAll n (.leaveOut token :: as) = .omitted token ++ emitAll n as := rfl

end Action

mutual

lemma Stmt.emit_eq_emitAll_actions (n : Nat) : (s : Stmt) → s.emit n = Action.emitAll n s.actions
  | .hole => by rw [emit, actions, Action.emitAll]
  | .declare .. => by rw [emit, actions, Action.emitAll]
  | .assign .. => by rw [emit, actions, Action.emitAll_singleton, Action.emit]
  | .print .. => by rw [emit, actions, Action.emitAll_singleton, Action.emit]
  | .block _ body => by rw [emit, actions, emitAll_eq_emitAll_actions]
  | .ifThen _ _ _ body => by
    rw [emit, actions, Action.emitAll_leaveOut, emitAll_eq_emitAll_actions]
  | .ifElse _ _ _ body _ elseBody => by
    rw [emit, actions, Action.emitAll_leaveOut, Action.emitAll_append, emitAll_eq_emitAll_actions,
      emitAll_eq_emitAll_actions]
  | .whileDo _ _ _ body => by
    rw [emit, actions, Action.emitAll_leaveOut, emitAll_eq_emitAll_actions]

/-- The code of a program is that of its actions. -/
lemma Stmt.emitAll_eq_emitAll_actions (n : Nat) :
    (p : List Stmt) → Stmt.emitAll n p = Action.emitAll n (Stmt.actionsAll p)
  | [] => by rw [emitAll, actionsAll, Action.emitAll]
  | s :: rest => by
    rw [emitAll, actionsAll, Action.emitAll_append, emit_eq_emitAll_actions,
      emitAll_eq_emitAll_actions]

end

lemma Accepted.code_eq_actions {c : Compiled} (h : Accepted c) :
    c.code = Action.emitAll 0 (Stmt.actionsAll c.program) :=
  h.code_eq.trans (Stmt.emitAll_eq_emitAll_actions 0 c.program)

end ThreeAddress
