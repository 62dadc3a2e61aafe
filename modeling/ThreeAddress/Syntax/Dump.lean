import ThreeAddress.Syntax.Tree
import ThreeAddress.Text.Quoted

/-!
# Structural dump of a tree

The dump shows every field of every node on a line of its own, two spaces deeper than the
node. All empty statement lists are one and the same list: when a tree has several of
them, the first is given a mark and the others are written as that mark.
-/

namespace ThreeAddress.Dump

/-- What stands on a line behind its label. -/
inductive Content where
  | text (t : Text)
  | emptyList
  deriving DecidableEq, Repr

structure Line where
  depth : Nat
  label : Text
  content : Content
  deriving DecidableEq, Repr

/-- A field or element that fits on its line. -/
def leaf (depth : Nat) (label value : Text) : List Line := [⟨depth, label, .text (value ++ ",")⟩]

/-- A field or element with entries of its own. -/
def group (depth : Nat) (label head : Text) (entries : List Line) : List Line :=
  ⟨depth, label, .text (head ++ "\x7b")⟩ :: entries ++ [⟨depth, [], .text "\x7d,"⟩]

def token (depth : Nat) (t : Token) : List Line :=
  group depth "Token: " "token.Token"
    (leaf (depth + 1) "Kind: " (Text.quoted t.kind.name) ++
      leaf (depth + 1) "Lexeme: " (Text.quoted t.lexeme) ++
      leaf (depth + 1) "Line: " (Text.ofInt t.line) ++
      leaf (depth + 1) "Column: " (Text.ofInt t.column))

def ident (depth : Nat) (label : Text) (id : Ident) : List Line :=
  group depth label "&ast.Identifier"
    (token (depth + 1) id.token ++ leaf (depth + 1) "Value: " (Text.quoted id.name))

def expr (depth : Nat) (label : Text) : Expr → List Line
  | .hole => leaf depth label "nil"
  | .var id => ident depth label id
  | .num t digits =>
    group depth label "&ast.NumberLiteral"
      (token (depth + 1) t ++ leaf (depth + 1) "Value: " (Text.quoted digits))
  | .binary t op left right =>
    group depth label "&ast.InfixExpression"
      (token (depth + 1) t ++ expr (depth + 1) "Left: " left ++
        leaf (depth + 1) "Operator: " (Text.quoted op) ++ expr (depth + 1) "Right: " right)

/-- The field of a statement list, given the lines of its elements. -/
def statements (depth : Nat) (elements : List Line) : List Line :=
  match elements with
  | [] => [⟨depth, "Statements: ", .emptyList⟩]
  | _ :: _ => group depth "Statements: " "[]ast.Statement" elements

/-- A block, given the lines of its statements. -/
def block (depth : Nat) (label : Text) (brace : Token) (elements : List Line) : List Line :=
  group depth label "&ast.BlockStatement"
    (token (depth + 1) brace ++ statements (depth + 1) elements)

mutual

def stmt (depth : Nat) (label : Text) : Stmt → List Line
  | .hole => leaf depth label "nil"
  | .declare t id =>
    group depth label "&ast.DeclarationStatement"
      (token (depth + 1) t ++ ident (depth + 1) "Name: " id)
  | .assign t id value =>
    group depth label "&ast.AssignmentStatement"
      (token (depth + 1) t ++ ident (depth + 1) "Name: " id ++ expr (depth + 1) "Value: " value)
  | .print t value =>
    group depth label "&ast.PrintStatement"
      (token (depth + 1) t ++ expr (depth + 1) "Value: " value)
  | .block brace body => block depth label brace (stmts (depth + 2) body)
  | .ifThen t cond brace body =>
    group depth label "&ast.IfStatement"
      (token (depth + 1) t ++ expr (depth + 1) "Condition: " cond ++
        block (depth + 1) "Consequence: " brace (stmts (depth + 3) body) ++
        leaf (depth + 1) "Alternative: " "nil")
  | .ifElse t cond brace body elseBrace elseBody =>
    group depth label "&ast.IfStatement"
      (token (depth + 1) t ++ expr (depth + 1) "Condition: " cond ++
        block (depth + 1) "Consequence: " brace (stmts (depth + 3) body) ++
        block (depth + 1) "Alternative: " elseBrace (stmts (depth + 3) elseBody))
  | .whileDo t cond brace body =>
    group depth label "&ast.WhileStatement"
      (token (depth + 1) t ++ expr (depth + 1) "Condition: " cond ++
        block (depth + 1) "Body: " brace (stmts (depth + 3) body))

/-- The elements of a statement list. -/
def stmts (depth : Nat) : List Stmt → List Line
  | [] => []
  | s :: rest => stmt depth [] s ++ stmts depth rest

end

def node : Node → List Line
  | .program p => group 0 [] "&ast.Program" (statements 1 (stmts 2 p))
  | .stmt s => stmt 0 [] s
  | .expr e => expr 0 [] e

/-- How the empty lists are written: alone, as the first of several, or as a later one. -/
inductive Sharing where
  | alone
  | first
  | later

def Sharing.text : Sharing → Text
  | alone => "[]ast.Statement\x7b\x7d,"
  | first => "[]ast.Statement\x7b\x7d, // p0"
  | later => "p0,"

def Line.text (l : Line) (sharing : Sharing) : Text :=
  List.replicate (2 * l.depth) 32 ++ l.label ++
    match l.content with
    | .text t => t
    | .emptyList => sharing.text

/-- The lines with their line ends. The first empty list is written as `sharing` says. -/
def render : Sharing → List Line → Text
  | _, [] => []
  | sharing, l :: rest =>
    let sharing' := match sharing, l.content with
      | .first, .emptyList => .later
      | _, _ => sharing
    Text.line (l.text sharing) ++ render sharing' rest

end Dump

/-- The dump of a node, without a line end. -/
def Node.dump (n : Node) : Text :=
  let lines := Dump.node n
  let empty := lines.filter (·.content = .emptyList)
  let sharing := if empty.length ≤ 1 then .alone else .first
  -- the last line closes the node itself, which is no entry: it has no comma
  (Dump.render sharing lines).dropLast.dropLast

end ThreeAddress
