import ThreeAddress.Token

/-!
# Syntax trees

Every node keeps the token it came from. A tree that is built by hand may have holes where
an expression or a statement is missing, blocks of their own among the statements, and
names and operators that differ from their tokens.
-/

namespace ThreeAddress

/-- A name with its token. -/
structure Ident where
  token : Token
  name : Text
  deriving DecidableEq, Repr

inductive Expr where
  /-- A missing expression. -/
  | hole
  | var (id : Ident)
  /-- A number keeps its digits as written. -/
  | num (token : Token) (digits : Text)
  | binary (token : Token) (op : Text) (left right : Expr)
  deriving DecidableEq, Repr

inductive Stmt where
  /-- A missing statement. -/
  | hole
  | declare (token : Token) (id : Ident)
  | assign (token : Token) (id : Ident) (value : Expr)
  | print (token : Token) (value : Expr)
  | block (brace : Token) (body : List Stmt)
  | ifThen (token : Token) (cond : Expr) (brace : Token) (body : List Stmt)
  | ifElse (token : Token) (cond : Expr) (brace : Token) (body : List Stmt)
      (elseBrace : Token) (elseBody : List Stmt)
  | whileDo (token : Token) (cond : Expr) (brace : Token) (body : List Stmt)
  deriving Repr

/-- A program is its statements in order. -/
abbrev Program := List Stmt

/-- Any node of a tree. -/
inductive Node where
  | program (statements : Program)
  | stmt (s : Stmt)
  | expr (e : Expr)
  deriving Repr

/-- The name that a token spells. -/
def Ident.ofToken (t : Token) : Ident := ⟨t, t.lexeme⟩

/-- The lexeme of the token an expression came from. -/
def Expr.lexeme : Expr → Text
  | hole => []
  | var id => id.token.lexeme
  | num token _ => token.lexeme
  | binary token .. => token.lexeme

/-- The lexeme of the token a statement came from. -/
def Stmt.lexeme : Stmt → Text
  | hole => []
  | declare token _ => token.lexeme
  | assign token .. => token.lexeme
  | print token _ => token.lexeme
  | block brace _ => brace.lexeme
  | ifThen token .. => token.lexeme
  | ifElse token .. => token.lexeme
  | whileDo token .. => token.lexeme

/-- The lexeme of the token a node came from. A program has that of its first statement. -/
def Node.lexeme : Node → Text
  | program [] => []
  | program (s :: _) => s.lexeme
  | stmt s => s.lexeme
  | expr e => e.lexeme

end ThreeAddress
