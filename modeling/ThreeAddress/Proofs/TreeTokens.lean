import ThreeAddress.Proofs.Parsing
import ThreeAddress.Syntax.Visit

/-!
# The tokens that a tree keeps

A tree keeps the names, the numbers, the words and the opening braces of the tokens it was parsed
from, each token in one node, and a visit meets them in the order of the text. The operators are
kept as well, but a visit meets an operator before its left operand. Of the words only `else` is
kept by no node. It shows in the shape of the `if` it belongs to.
-/

namespace ThreeAddress

/-- What a token is to the tree that keeps it. -/
inductive Role where
  | name
  | number
  | word
  | brace
  | operation
  deriving DecidableEq, Repr

/-- The role of a token, if a tree keeps it. -/
def Token.role? (t : Token) : Option Role :=
  match t.kind with
  | .identifier => some .name
  | .number => some .number
  | .keyword => if t.lexeme = "else" then none else some .word
  | .leftBrace => some .brace
  | .operator => some .operation
  | .comparator => some .operation
  | _ => none

namespace Node

/-- The token that a node keeps, with its role. The token of an assignment is kept by the name
that it assigns to. -/
def kept? : Node → Option (Role × Token)
  | .expr (.var id) => some (.name, id.token)
  | .expr (.num token _) => some (.number, token)
  | .expr (.binary token ..) => some (.operation, token)
  | .stmt (.declare token _) => some (.word, token)
  | .stmt (.print token _) => some (.word, token)
  | .stmt (.ifThen token ..) => some (.word, token)
  | .stmt (.ifElse token ..) => some (.word, token)
  | .stmt (.whileDo token ..) => some (.word, token)
  | .stmt (.block brace _) => some (.brace, brace)
  | _ => none

/-- The token that a node keeps in the given role. -/
def keptAs? (role : Role) (n : Node) : Option Token :=
  n.kept?.bind fun kept => if kept.1 = role then some kept.2 else none

/-- The node is an `if` with a second block. -/
def hasElse : Node → Bool
  | .stmt (.ifElse ..) => true
  | _ => false

end Node

/-- The nodes keep the tokens of each role, and in their order unless they are operators. There
are as many second blocks as words `else`. -/
structure Keeps (ts : List Token) (ns : List Node) : Prop where
  inOrder : ∀ role ≠ .operation,
    ns.filterMap (Node.keptAs? role) = ts.filter (·.role? = some role)
  operations : (ns.filterMap (Node.keptAs? .operation)).Perm
    (ts.filter (·.role? = some .operation))
  alternatives : ns.countP Node.hasElse = ts.countP (·.Is .keyword "else")

section Keeping

variable {ts us : List Token} {ns ms : List Node}

lemma Keeps.append (first : Keeps ts ns) (second : Keeps us ms) :
    Keeps (ts ++ us) (ns ++ ms) where
  inOrder := by
    intro role other
    rw [List.filterMap_append, List.filter_append, first.inOrder role other,
      second.inOrder role other]
  operations := by
    rw [List.filterMap_append, List.filter_append]
    exact first.operations.append second.operations
  alternatives := by
    rw [List.countP_append, List.countP_append, first.alternatives, second.alternatives]

/-- Short of operators everything is in order. -/
lemma keeps_of_eq
    (same : ∀ role, ns.filterMap (Node.keptAs? role) = ts.filter (·.role? = some role))
    (alternatives : ns.countP Node.hasElse = ts.countP (·.Is .keyword "else")) : Keeps ts ns :=
  ⟨fun role _ => same role, .of_eq (same .operation), alternatives⟩

lemma Token.not_is_else_of_role? {t : Token} {role : Role} (h : t.role? = some role) :
    ¬ t.Is .keyword "else" := by
  rintro ⟨kind, lexeme⟩
  simp [role?, kind, lexeme] at h

/-- A token and the node that keeps it. -/
lemma keeps_single {t : Token} {n : Node} {role : Role} (is : t.role? = some role)
    (kept : n.kept? = some (role, t)) (plain : n.hasElse = false) : Keeps [t] [n] := by
  apply keeps_of_eq
  · intro other
    by_cases same : role = other <;> simp [Node.keptAs?, kept, is, same]
  · simp [plain, Token.not_is_else_of_role? is]

/-- A token that no node keeps. -/
lemma keeps_token {t : Token} (none : t.role? = none) (word : ¬ t.Is .keyword "else") :
    Keeps [t] [] := by
  apply keeps_of_eq
  · intro role
    simp [none]
  · simp [word]

/-- A node that keeps no token. -/
lemma keeps_node {n : Node} (none : n.kept? = none) (plain : n.hasElse = false) :
    Keeps [] [n] := by
  apply keeps_of_eq
  · intro role
    simp [Node.keptAs?, none]
  · simp [plain]

/-- The kinds of token that no tree keeps. -/
def silentKinds : List Kind := [.assignOp, .semicolon, .leftParen, .rightParen, .rightBrace]

lemma keeps_silent {t : Token} {k : Kind} (kind : t.kind = k) (silent : k ∈ silentKinds) :
    Keeps [t] [] := by
  have kinds : ∀ k ∈ silentKinds, ∀ t : Token, t.kind = k →
      t.role? = none ∧ ¬ t.Is .keyword "else" := by
    simp only [silentKinds, List.forall_mem_cons]
    simp +contextual [Token.role?, Token.Is]
  obtain ⟨none, word⟩ := kinds k silent t kind
  exact keeps_token none word

lemma Token.role?_word {t : Token} {w : Text} (is : t.Is .keyword w) (other : w ≠ "else") :
    t.role? = some .word := by
  simp [role?, is.1, is.2, other]

/-- An operation comes before its operands in the visit and between them in the text. -/
lemma Keeps.join {op : Token} {symbol : Text} {a b : Expr} (left : Keeps ts ns)
    (is : op.role? = some .operation) (right : Keeps us ms) :
    Keeps (ts ++ op :: us) (.expr (.binary op symbol a b) :: (ns ++ ms)) := by
  have both := left.append right
  constructor
  · intro role other
    have node : Node.keptAs? role (.expr (.binary op symbol a b)) = none :=
      if_neg other.symm
    have token : ¬ op.role? = some role := by simpa [is] using other.symm
    rw [List.filterMap_cons_none node, both.inOrder role other, List.filter_append,
      List.filter_append, List.filter_cons_of_neg (by simpa using token)]
  · have node : Node.keptAs? .operation (.expr (.binary op symbol a b)) = some op := rfl
    rw [List.filterMap_cons_some node, List.filter_append,
      List.filter_cons_of_pos (by simpa using is)]
    have operands := both.operations
    rw [List.filter_append] at operands
    exact (operands.cons op).trans List.perm_middle.symm
  · rw [List.countP_cons_of_neg (by simp [Node.hasElse]), both.alternatives, List.countP_append,
      List.countP_append, List.countP_cons_of_neg (by simpa using Token.not_is_else_of_role? is)]

/-- An `if` with a second block keeps what it keeps without it, and the second block. -/
lemma Keeps.alternative {word brace other elseBrace : Token} {cond : Expr}
    {body elseBody : List Stmt} (h : Keeps ts (.stmt (.ifThen word cond brace body) :: ns))
    (is : other.Is .keyword "else") (second : Keeps us ms) :
    Keeps (ts ++ other :: us)
      (.stmt (.ifElse word cond brace body elseBrace elseBody) :: (ns ++ ms)) := by
  have silent : other.role? = none := by simp [Token.role?, is.1, is.2]
  have both := h.append second
  -- the two nodes keep the same token
  have node (role : Role) :
      (.stmt (.ifElse word cond brace body elseBrace elseBody) :: (ns ++ ms)).filterMap
          (Node.keptAs? role) =
        (.stmt (.ifThen word cond brace body) :: (ns ++ ms)).filterMap (Node.keptAs? role) := by
    rw [List.filterMap_cons, List.filterMap_cons]
    rfl
  have tokens (role : Role) : (ts ++ other :: us).filter (·.role? = some role) =
      (ts ++ us).filter (·.role? = some role) := by
    simp [silent]
  constructor
  · intro role ne
    rw [node, tokens]
    exact both.inOrder role ne
  · rw [node, tokens]
    exact both.operations
  · have count := both.alternatives
    rw [List.cons_append, List.countP_cons_of_neg (by simp [Node.hasElse])] at count
    rw [List.countP_cons_of_pos (by rfl), count, List.countP_append, List.countP_append,
      List.countP_cons_of_pos (by simpa using is), Nat.add_assoc]

end Keeping

lemma keeps_name {x : Token} (kind : x.kind = .identifier) :
    Keeps [x] [.expr (.var (.ofToken x))] := by
  have is : x.role? = some .name := by simp [Token.role?, kind]
  exact keeps_single is rfl rfl

namespace Grammar

lemma Expression.keeps {level : Level} {ts : List Token} {e : Expr} (h : Expression level ts e) :
    Keeps ts e.visit := by
  induction h with
  | name kind => exact keeps_name kind
  | number kind => exact keeps_single (by simp [Token.role?, kind]) rfl rfl
  | parens left _ right ih =>
    have opening := keeps_silent left (by decide)
    have closing := keeps_silent right (by decide)
    simpa using opening.append (ih.append closing)
  | factor _ ih => exact ih
  | term _ ih => exact ih
  | arith _ ih => exact ih
  | product _ times _ left right => exact left.join (by simp [Token.role?, times.kind]) right
  | sum _ plus _ left right => exact left.join (by simp [Token.role?, plus.kind]) right
  | comparison _ comparator _ left right =>
    exact left.join (by simp [Token.role?, comparator]) right

/-- A word with a condition or an argument behind it, and what follows. -/
lemma keeps_head {word l r : Token} {w : Text} {ts us : List Token} {e : Expr} {n : Node}
    {ns : List Node} (is : word.Is .keyword w) (other : w ≠ "else")
    (kept : n.kept? = some (.word, word)) (plain : n.hasElse = false) (left : l.kind = .leftParen)
    (inner : Expression .expr ts e) (right : r.kind = .rightParen) (rest : Keeps us ns) :
    Keeps (word :: l :: (ts ++ r :: us)) (n :: (e.visit ++ ns)) := by
  have first := keeps_single (Token.role?_word is other) kept plain
  have opening := keeps_silent left (by decide)
  have closing := keeps_silent right (by decide)
  exact first.append (opening.append (inner.keeps.append (closing.append rest)))

lemma keeps_ifElse {word l r brace other elseBrace : Token} {ts us vs : List Token} {e : Expr}
    {body elseBody : List Stmt} (ifWord : word.Is .keyword "if") (left : l.kind = .leftParen)
    (cond : Expression .expr ts e) (right : r.kind = .rightParen)
    (block : Keeps us (.stmt (.block brace body) :: Stmt.visitAll body))
    (elseWord : other.Is .keyword "else")
    (elseBlock : Keeps vs (.stmt (.block elseBrace elseBody) :: Stmt.visitAll elseBody)) :
    Keeps (word :: l :: (ts ++ r :: (us ++ other :: vs)))
      (Stmt.ifElse word e brace body elseBrace elseBody).visit := by
  have without : Keeps (word :: l :: (ts ++ r :: us)) (.stmt (.ifThen word e brace body) ::
      (e.visit ++ .stmt (.block brace body) :: Stmt.visitAll body)) :=
    keeps_head ifWord (by decide) rfl rfl left cond right block
  simpa [Stmt.visit] using without.alternative elseWord elseBlock

mutual

lemma Statement.keeps {ts : List Token} {s : Stmt} : Statement ts s → Keeps ts s.visit
  | .declaration (x := x) intWord name semicolon => by
    have word := keeps_single (n := .stmt (.declare _ (.ofToken x)))
      (Token.role?_word intWord (by decide)) rfl rfl
    have stop := keeps_silent semicolon (by decide)
    simpa [Stmt.visit] using word.append ((keeps_name name).append stop)
  | .assignment (x := x) (e := e) name assign value semicolon => by
    have node := keeps_node (n := .stmt (.assign x (.ofToken x) e)) rfl rfl
    have sign := keeps_silent assign (by decide)
    have stop := keeps_silent semicolon (by decide)
    have inner := sign.append (value.keeps.append stop)
    simpa [Stmt.visit] using node.append ((keeps_name name).append inner)
  | .ifThen ifWord left cond right block => by
    rw [Stmt.visit]
    exact keeps_head ifWord (by decide) rfl rfl left cond right block.keeps
  | .ifElse ifWord left cond right block elseWord elseBlock => by
    exact keeps_ifElse ifWord left cond right block.keeps elseWord elseBlock.keeps
  | .whileDo whileWord left cond right block => by
    rw [Stmt.visit]
    exact keeps_head whileWord (by decide) rfl rfl left cond right block.keeps
  | .print printWord left value right semicolon => by
    have stop := keeps_silent semicolon (by decide)
    rw [Stmt.visit, ← List.append_nil (Expr.visit _)]
    exact keeps_head printWord (by decide) rfl rfl left value right stop

lemma Block.keeps {ts : List Token} {brace : Token} {body : List Stmt} :
    Block ts brace body → Keeps ts (.stmt (.block brace body) :: Stmt.visitAll body)
  | .braces left inner right => by
    have is : brace.role? = some .brace := by simp [Token.role?, left]
    have opening := keeps_single (n := .stmt (.block brace body)) is rfl rfl
    have closing := keeps_silent right (by decide)
    simpa using opening.append (inner.keeps.append closing)

lemma Statements.keeps {ts : List Token} {p : List Stmt} :
    Statements ts p → Keeps ts (Stmt.visitAll p)
  | .nil => by
    rw [Stmt.visitAll]
    exact keeps_of_eq (fun _ => rfl) rfl
  | .cons first others => by
    rw [Stmt.visitAll]
    exact first.keeps.append others.keeps

end

end Grammar

open Grammar

/-- A visit of a parsed program meets the names, numbers, words and opening braces of its tokens
once each and in order, and its operators in some order. There are as many second blocks of an
`if` as words `else`. -/
theorem visit_keeps_tokens {ts : List Token} {p : Program} (noEnd : ∀ t ∈ ts, t.kind ≠ .eof)
    (parsed : parse ts = .ok p) :
    (∀ role ≠ .operation, (Node.program p).visit.filterMap (Node.keptAs? role) =
      ts.filter (·.role? = some role)) ∧
    ((Node.program p).visit.filterMap (Node.keptAs? .operation)).Perm
      (ts.filter (·.role? = some .operation)) ∧
    (Node.program p).visit.countP Node.hasElse = ts.countP (·.Is .keyword "else") := by
  have root : Keeps [] [.program p] := keeps_node rfl rfl
  have keeps := root.append (statements_of_parse noEnd parsed).keeps
  exact ⟨keeps.inOrder, keeps.operations, keeps.alternatives⟩

/-- The tokens of an `if` on `a < 1` with the blocks `b = a * 2 + 3;` and `int c;`. -/
def branches : List Token :=
  [⟨.keyword, "if", 1, 1⟩, ⟨.leftParen, "(", 1, 4⟩, ⟨.identifier, "a", 1, 5⟩,
    ⟨.comparator, "<", 1, 7⟩, ⟨.number, "1", 1, 9⟩, ⟨.rightParen, ")", 1, 10⟩,
    ⟨.leftBrace, "\x7b", 1, 12⟩, ⟨.identifier, "b", 1, 14⟩, ⟨.assignOp, "=", 1, 16⟩,
    ⟨.identifier, "a", 1, 18⟩, ⟨.operator, "*", 1, 20⟩, ⟨.number, "2", 1, 22⟩,
    ⟨.operator, "+", 1, 24⟩, ⟨.number, "3", 1, 26⟩, ⟨.semicolon, ";", 1, 27⟩,
    ⟨.rightBrace, "\x7d", 1, 29⟩, ⟨.keyword, "else", 1, 31⟩, ⟨.leftBrace, "\x7b", 1, 36⟩,
    ⟨.keyword, "int", 1, 38⟩, ⟨.identifier, "c", 1, 42⟩, ⟨.semicolon, ";", 1, 43⟩,
    ⟨.rightBrace, "\x7d", 1, 45⟩]

/-- The visit meets the operators as `<`, `+` and `*`. -/
theorem visit_keeps_tokens_branches : ∃ p, parse branches = .ok p ∧
    (Node.program p).visit.filterMap (Node.keptAs? .operation) ≠
      branches.filter (·.role? = some .operation) ∧
    (∀ role ≠ .operation, (Node.program p).visit.filterMap (Node.keptAs? role) =
      branches.filter (·.role? = some role)) ∧
    ((Node.program p).visit.filterMap (Node.keptAs? .operation)).Perm
      (branches.filter (·.role? = some .operation)) ∧
    (Node.program p).visit.countP Node.hasElse = branches.countP (·.Is .keyword "else") := by
  obtain ⟨p, parsed, moved⟩ : ∃ p, parse branches = .ok p ∧
      (Node.program p).visit.filterMap (Node.keptAs? .operation) ≠
        branches.filter (·.role? = some .operation) := by decide +kernel
  exact ⟨p, parsed, moved, visit_keeps_tokens (by decide) parsed⟩

end ThreeAddress
