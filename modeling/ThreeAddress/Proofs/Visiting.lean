import ThreeAddress.Proofs.Accounting
import ThreeAddress.Proofs.Sessions
import ThreeAddress.Syntax.Visit

/-!
# Lowering follows the visit of a tree

What lowering adds to the code at hand is told by the nodes in visiting order, for any tree and
behind any code. Holes and operators that no operation has are counted as fallbacks. An operator of
the second kind has no instruction, but its operands have theirs.
-/

namespace ThreeAddress

namespace Node

/-- The target and the value of a node that is an assignment. -/
def assigned? : Node → Option (Ident × Expr)
  | .stmt (.assign _ id value) => some (id, value)
  | _ => none

/-- The token of a node that is left out. -/
def leftOut? : Node → Option Token
  | .stmt (.print token _) => some token
  | .stmt (.ifThen token ..) => some token
  | .stmt (.ifElse token ..) => some token
  | .stmt (.whileDo token ..) => some token
  | _ => none

/-- The operator of a node that joins two operands. -/
def symbol? : Node → Option Text
  | .expr (.binary _ symbol _ _) => some symbol
  | _ => none

/-- The operands that a node joins. -/
def operands : Node → List Expr
  | .expr (.binary _ _ left right) => [left, right]
  | _ => []

/-- What lowering has to do with a node, apart from the nodes below it. -/
def action? : Node → Option Action
  | .stmt (.assign _ id value) => some (.assign id value)
  | .stmt (.print token _) => some (.leaveOut token)
  | .stmt (.ifThen token ..) => some (.leaveOut token)
  | .stmt (.ifElse token ..) => some (.leaveOut token)
  | .stmt (.whileDo token ..) => some (.leaveOut token)
  | _ => none

lemma assigned?_eq (n : Node) : n.assigned? = n.action?.bind Action.assigned? := by
  cases n with
  | stmt s => cases s <;> rfl
  | _ => rfl

lemma leftOut?_eq (n : Node) : n.leftOut? = n.action?.bind Action.leftOut? := by
  cases n with
  | stmt s => cases s <;> rfl
  | _ => rfl

end Node

namespace Expr

/-- The operators in an expression. -/
def symbols (e : Expr) : List Text := e.visit.filterMap Node.symbol?

/-- The places in an expression, its own and those of operands, with what stands there. -/
def slots (e : Expr) : List Expr := e :: e.visit.flatMap Node.operands

section Binary

variable (token : Token) (symbol : Text) (left right : Expr)

lemma symbols_binary :
    (binary token symbol left right).symbols = symbol :: (left.symbols ++ right.symbols) := by
  simp [symbols, visit, Node.symbol?]

lemma count_hole_slots_binary : (binary token symbol left right).slots.count hole =
    left.slots.count hole + right.slots.count hole := by
  simp only [slots, visit, List.cons_append, List.flatMap_cons, List.flatMap_append, Node.operands,
    List.count_cons, List.count_append, List.count_nil]
  simp only [beq_iff_eq, reduceCtorEq, if_false]
  omega

end Binary

/-- The nodes of an expression are expressions. -/
lemma exists_of_mem_visit {e : Expr} {n : Node} (h : n ∈ e.visit) : ∃ part, n = .expr part := by
  induction e with
  | hole => cases h
  | var id => exact ⟨_, List.mem_singleton.mp h⟩
  | num token digits => exact ⟨_, List.mem_singleton.mp h⟩
  | binary token symbol left right ihLeft ihRight =>
    rcases List.mem_cons.mp h with rfl | below
    · exact ⟨_, rfl⟩
    · exact (List.mem_append.mp below).elim ihLeft ihRight

/-- What expressions have none of is not found in them. -/
lemma filterMap_visit {β : Type} {f : Node → Option β} (none : ∀ part, f (.expr part) = none)
    (e : Expr) : e.visit.filterMap f = [] := by
  rw [List.filterMap_eq_nil_iff]
  intro n mem
  obtain ⟨part, rfl⟩ := exists_of_mem_visit mem
  exact none part

/-- An expression takes a temporary for each operator that an operation has. -/
lemma temporaries_emit (e : Expr) (n : Nat) :
    (e.emit n).2.temporaries = e.symbols.countP fun s => (Op.ofSymbol? s).isSome := by
  induction e generalizing n with
  | hole => rfl
  | var id => rfl
  | num token digits => rfl
  | binary token symbol left right ihLeft ihRight =>
    have both : (emitBoth n left right).temporaries =
        (left.symbols ++ right.symbols).countP fun s => (Op.ofSymbol? s).isSome := by
      rw [emitBoth, Code.temporaries_append, ihLeft, ihRight, List.countP_append]
    rw [symbols_binary]
    cases h : Op.ofSymbol? symbol with
    | none =>
      rw [emit_binary_none h, Code.temporaries_append, both, List.countP_cons_of_neg (by simp [h])]
      rfl
    | some op =>
      rw [emit_binary h, Code.temporaries_append, both, List.countP_cons_of_pos (by simp [h])]
      rfl

/-- An expression falls back for each hole and for each operator that no operation has. -/
lemma fallbacks_emit (e : Expr) (n : Nat) : (e.emit n).2.fallbacks =
    e.slots.count hole + e.symbols.countP fun s => (Op.ofSymbol? s).isNone := by
  induction e generalizing n with
  | hole => rfl
  | var id => rfl
  | num token digits => rfl
  | binary token symbol left right ihLeft ihRight =>
    have both : (emitBoth n left right).fallbacks =
        left.slots.count hole + right.slots.count hole +
          (left.symbols ++ right.symbols).countP fun s => (Op.ofSymbol? s).isNone := by
      rw [emitBoth, Code.fallbacks_append, ihLeft, ihRight, List.countP_append]
      omega
    rw [symbols_binary, count_hole_slots_binary]
    cases h : Op.ofSymbol? symbol with
    | none =>
      rw [emit_binary_none h, Code.fallbacks_append, both, List.countP_cons_of_pos (by simp [h])]
      rfl
    | some op =>
      rw [emit_binary h, Code.fallbacks_append, both, List.countP_cons_of_neg (by simp [h])]
      rfl

end Expr

lemma Expr.filterMap_action?_visit (e : Expr) : e.visit.filterMap Node.action? = [] :=
  e.filterMap_visit fun _ => rfl

mutual

/-- The actions of a statement are those of its nodes in visiting order. -/
lemma Stmt.filterMap_action?_visit : (s : Stmt) → s.visit.filterMap Node.action? = s.actions
  | .hole => by rw [visit, actions, List.filterMap_nil]
  | .declare .. => by simp [visit, actions, Node.action?]
  | .assign _ _ value => by
    simp [visit, actions, Node.action?, List.filterMap_cons, value.filterMap_action?_visit]
  | .print _ value => by
    simp [visit, actions, Node.action?, value.filterMap_action?_visit]
  | .block _ body => by
    simp [visit, actions, Node.action?, List.filterMap_cons, filterMap_action?_visitAll body]
  | .ifThen _ cond _ body => by
    simp [visit, actions, Node.action?, List.filterMap_cons, cond.filterMap_action?_visit,
      filterMap_action?_visitAll body]
  | .ifElse _ cond _ body _ elseBody => by
    simp [visit, actions, Node.action?, List.filterMap_cons, cond.filterMap_action?_visit,
      filterMap_action?_visitAll body, filterMap_action?_visitAll elseBody]
  | .whileDo _ cond _ body => by
    simp [visit, actions, Node.action?, List.filterMap_cons, cond.filterMap_action?_visit,
      filterMap_action?_visitAll body]

lemma Stmt.filterMap_action?_visitAll :
    (p : List Stmt) → (Stmt.visitAll p).filterMap Node.action? = Stmt.actionsAll p
  | [] => by rw [visitAll, actionsAll, List.filterMap_nil]
  | s :: rest => by
    rw [visitAll, actionsAll, List.filterMap_append, filterMap_action?_visit s,
      filterMap_action?_visitAll rest]

end

namespace Node

/-- The assignments below a node, in visiting order. -/
def assignments (n : Node) : List (Ident × Expr) := n.visit.filterMap assigned?

/-- The tokens of the nodes that are left out, in visiting order. -/
def leftOut (n : Node) : List Token := n.visit.filterMap leftOut?

/-- The operators in the values of the assignments below a node. -/
def symbols (n : Node) : List Text := n.assignments.flatMap fun b => b.2.symbols

/-- The places of values and of operands in the assignments below a node. -/
def slots (n : Node) : List Expr := n.assignments.flatMap fun b => b.2.slots

lemma filterMap_action?_visit (n : Node) :
    n.visit.filterMap action? = Stmt.actionsAll n.statements := by
  cases n with
  | program p => exact Stmt.filterMap_action?_visitAll p
  | stmt s => simp [visit, statements, Stmt.actionsAll, s.filterMap_action?_visit]
  | expr e => exact e.filterMap_action?_visit

lemma assignments_eq (n : Node) :
    n.assignments = (Stmt.actionsAll n.statements).filterMap Action.assigned? := by
  rw [assignments, ← filterMap_action?_visit, List.filterMap_filterMap]
  exact List.filterMap_congr fun m _ => m.assigned?_eq

lemma leftOut_eq (n : Node) :
    n.leftOut = (Stmt.actionsAll n.statements).filterMap Action.leftOut? := by
  rw [leftOut, ← filterMap_action?_visit, List.filterMap_filterMap]
  exact List.filterMap_congr fun m _ => m.leftOut?_eq

/-- Lowering a node appends the code of its actions. -/
lemma lower_eq_emitAll (n : Node) (c : Code) :
    n.lower c = c ++ Action.emitAll c.temporaries (Stmt.actionsAll n.statements) := by
  rw [lower_eq_lowerAll, Stmt.lowerAll_eq, Stmt.emitAll_eq_emitAll_actions]

end Node

namespace Action

variable (as : List Action) (n : Nat)

lemma temporaries_emitAll : (emitAll n as).temporaries =
    ((as.filterMap assigned?).flatMap fun b => b.2.symbols).countP
      fun s => (Op.ofSymbol? s).isSome := by
  induction as generalizing n with
  | nil => rfl
  | cons a as ih =>
    rw [emitAll, Code.temporaries_append, ih]
    cases a with
    | assign id value =>
      have own : (emit n (assign id value)).temporaries = (value.emit n).2.temporaries := rfl
      rw [own, value.temporaries_emit, ← List.countP_append]
      rfl
    | leaveOut token => exact Nat.zero_add _

lemma fallbacks_emitAll : (emitAll n as).fallbacks =
    ((as.filterMap assigned?).flatMap fun b => b.2.slots).count .hole +
      ((as.filterMap assigned?).flatMap fun b => b.2.symbols).countP
        fun s => (Op.ofSymbol? s).isNone := by
  induction as generalizing n with
  | nil => rfl
  | cons a as ih =>
    rw [emitAll, Code.fallbacks_append, ih]
    cases a with
    | assign id value =>
      have own : (emit n (assign id value)).fallbacks = (value.emit n).2.fallbacks := rfl
      rw [own, value.fallbacks_emit, Nat.add_add_add_comm, ← List.count_append,
        ← List.countP_append]
      rfl
    | leaveOut token => exact Nat.zero_add _

end Action

/-- Lowering any node behind any code only appends to it. There is a copy to the target of each
assignment that is visited, and an operation for each known operator in their values, into the
temporaries from the next one on. Holes in the places of values and operands and unknown
operators are fallbacks, and the nodes `if`, `while` and `print` are noted in visiting order. -/
theorem lower_follows_visit (n : Node) (c : Code) :
    ∃ added : List Instruction, ∃ made : Nat,
      n.lower c = {
        instructions := c.instructions ++ added
        omissions := c.omissions ++ n.leftOut.map fun t => ⟨t.lexeme, t.line⟩
        temporaries := c.temporaries + made
        fallbacks := c.fallbacks +
          (n.slots.count .hole + n.symbols.countP fun s => (Op.ofSymbol? s).isNone) } ∧
      made = n.symbols.countP (fun s => (Op.ofSymbol? s).isSome) ∧
      (added.filter (·.op = .copy)).map Instruction.dest =
        n.assignments.map (fun b => b.1.name) ∧
      (added.filter (·.op ≠ .copy)).map Instruction.dest =
        (List.range' c.temporaries made).map temporary := by
  set piece := Action.emitAll c.temporaries (Stmt.actionsAll n.statements)
  refine ⟨piece.instructions, piece.temporaries, ?_, ?_, ?_, ?_⟩
  · have omissions : piece.omissions = n.leftOut.map fun t => ⟨t.lexeme, t.line⟩ := by
      rw [n.leftOut_eq]
      exact Action.omissions_emitAll _ _
    have fallbacks : piece.fallbacks = n.slots.count .hole +
        n.symbols.countP fun s => (Op.ofSymbol? s).isNone := by
      rw [Node.slots, Node.symbols, n.assignments_eq]
      exact Action.fallbacks_emitAll _ _
    rw [n.lower_eq_emitAll, ← omissions, ← fallbacks]
    rfl
  · rw [Node.symbols, n.assignments_eq]
    exact Action.temporaries_emitAll _ _
  · rw [n.assignments_eq]
    exact Action.copies_emitAll _ _
  · have numbered := Stmt.numbered_emitAll c.temporaries n.statements
    rw [Stmt.emitAll_eq_emitAll_actions] at numbered
    exact numbered

example (t : Token) (x : Ident) :
    (Node.stmt (.assign t x (.binary t "%" (.binary t "+" (.num t "1") .hole) .hole))).lower
      ⟨[], [], 7, 0⟩ = ⟨[⟨"t7", .add, "1", "0"⟩, .copy x.name "0"], [], 8, 3⟩ := rfl

end ThreeAddress
