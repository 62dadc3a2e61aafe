import ThreeAddress.Syntax.Tree

/-!
# Reading a program from its tokens

The grammar is read by a machine that takes one token at a time and never looks back.

* A program is a list of statements: declarations `int x;`, assignments `x = e;`,
  `if (e) {…}` with or without `else {…}`, `while (e) {…}` and `print(e);`.
* An expression is a sum, or two sums with a comparison between them. A sum is made of
  products by `+` and `-`, a product of operands by `*` and `/`, both from the left. An
  operand is a name, a number or an expression in parentheses.

The state holds the open blocks, the statements read so far in the innermost one, and
what the machine is in the middle of. It refuses the first token that no program can have
at this place (`State.step`), and tells at the end of the tokens what is still missing
(`State.finish`). A token that marks the end is offered to the grammar like any other, and
the grammar has no place for it.
-/

namespace ThreeAddress

inductive Expectation where
  | statement
  | declaredName
  | declarationEnd
  | assignSign
  | assignmentEnd
  | ifOpen
  | whileOpen
  | conditionClose
  | printOpen
  | expressionClose
  | printEnd
  | blockOpen
  | blockClose
  | operand
  deriving DecidableEq, Repr

def Expectation.message : Expectation → Text
  | statement => "Expected a statement."
  | declaredName => "Expected variable name after 'int'."
  | declarationEnd => "Expected ';' after declaration."
  | assignSign => "Expected '=' in assignment."
  | assignmentEnd => "Expected ';' after assignment."
  | ifOpen => "Expected '(' after 'if'."
  | whileOpen => "Expected '(' after 'while'."
  | conditionClose => "Expected ')' after condition."
  | printOpen => "Expected '(' after 'print'."
  | expressionClose => "Expected ')' after expression."
  | printEnd => "Expected ';' after print statement."
  | blockOpen => "Expected '\x7b' to start block."
  | blockClose => "Expected '\x7d' to close block."
  | operand => "Expected number, variable, or expression."

namespace Parse

abbrev Half := Expr × Token

/-- The operation that a right operand completes, or the operand alone. -/
def join : Option Half → Expr → Expr
  | none, e => e
  | some (left, op), e => .binary op op.lexeme left e

/-- The operations of one expression that wait for their right operand, at most one on each
level. -/
structure Pending where
  comparison : Option Half
  sum : Option Half
  product : Option Half
  deriving DecidableEq, Repr

namespace Pending

def none : Pending := ⟨.none, .none, .none⟩

def endProduct (p : Pending) (e : Expr) : Expr := join p.product e

def endSum (p : Pending) (e : Expr) : Expr := join p.sum (p.endProduct e)

/-- The expression that ends with the operand `e`. -/
def endExpr (p : Pending) (e : Expr) : Expr := join p.comparison (p.endSum e)

end Pending

/-- The place that an expression fills, with the token of its statement. -/
inductive Slot where
  | value (name : Token)
  | ifCond (token : Token)
  | whileCond (token : Token)
  | printed (token : Token)
  deriving DecidableEq, Repr

inductive Owner where
  | ifThen (token : Token) (cond : Expr)
  | ifElse (token : Token) (cond : Expr) (brace : Token) (body : List Stmt)
  | whileDo (token : Token) (cond : Expr)
  deriving Repr

/-- What the machine is in the middle of, with the tokens and trees that it will need. -/
inductive Mode where
  | statement
  | declared (token : Token)
  | declaredName (token name : Token)
  | assigned (name : Token)
  | ifWord (token : Token)
  | whileWord (token : Token)
  | printWord (token : Token)
  /-- Inside an expression, where an operand is due. The parentheses that are open in it
  are on a stack, each with what is pending around it. -/
  | operand (slot : Slot) (parens : List Pending) (pending : Pending)
  | operator (slot : Slot) (parens : List Pending) (pending : Pending) (read : Expr)
  | printed (token : Token) (value : Expr)
  | block (owner : Owner)
  /-- Behind the block of an `if`, where an `else` may follow. -/
  | ifBlock (token : Token) (cond : Expr) (brace : Token) (body : List Stmt)
  deriving Repr

/-- An open block: what stands before it, its brace, and the statements before that. -/
structure Frame where
  owner : Owner
  brace : Token
  before : List Stmt
  deriving Repr

structure State where
  frames : List Frame
  /-- The statements read so far in the innermost open block. -/
  done : List Stmt
  mode : Mode
  deriving Repr

def Slot.expectation : Slot → Expectation
  | value _ => .assignmentEnd
  | ifCond _ => .conditionClose
  | whileCond _ => .conditionClose
  | printed _ => .expressionClose

def Mode.expectation : Mode → Expectation
  | statement => .statement
  | declared _ => .declaredName
  | declaredName .. => .declarationEnd
  | assigned _ => .assignSign
  | ifWord _ => .ifOpen
  | whileWord _ => .whileOpen
  | printWord _ => .printOpen
  | operand .. => .operand
  | operator slot [] .. => slot.expectation
  | operator _ (_ :: _) .. => .expressionClose
  | printed .. => .printEnd
  | block _ => .blockOpen
  | ifBlock .. => .statement

namespace State

def initial : State := ⟨[], [], .statement⟩

def add (st : State) (s : Stmt) : State := { st with done := st.done ++ [s], mode := .statement }

def await (st : State) (slot : Slot) (parens : List Pending) (pending : Pending) : State :=
  { st with mode := .operand slot parens pending }

def close (st : State) : Option State :=
  match st.frames with
  | [] => none
  | f :: frames =>
    let outer : State := { frames, done := f.before, mode := .statement }
    match f.owner with
    | .ifThen token cond => some { outer with mode := .ifBlock token cond f.brace st.done }
    | .ifElse token cond brace body =>
      some (outer.add (.ifElse token cond brace body f.brace st.done))
    | .whileDo token cond => some (outer.add (.whileDo token cond f.brace st.done))

/-- The first token of a statement, or the brace that closes the block. -/
def begin (st : State) (t : Token) : Option State :=
  if t.Is .keyword "int" then some { st with mode := .declared t }
  else if t.kind = .identifier then some { st with mode := .assigned t }
  else if t.Is .keyword "if" then some { st with mode := .ifWord t }
  else if t.Is .keyword "while" then some { st with mode := .whileWord t }
  else if t.Is .keyword "print" then some { st with mode := .printWord t }
  else if t.kind = .rightBrace then st.close
  else none

def fill (st : State) (slot : Slot) (e : Expr) (t : Token) : Option State :=
  match slot with
  | .value name =>
    if t.kind = .semicolon then some (st.add (.assign name (.ofToken name) e)) else none
  | .ifCond token =>
    if t.kind = .rightParen then some { st with mode := .block (.ifThen token e) } else none
  | .whileCond token =>
    if t.kind = .rightParen then some { st with mode := .block (.whileDo token e) } else none
  | .printed token =>
    if t.kind = .rightParen then some { st with mode := .printed token e } else none

def takeOperand (st : State) (slot : Slot) (parens : List Pending) (pending : Pending)
    (t : Token) : Option State :=
  if t.kind = .identifier then
    some { st with mode := .operator slot parens pending (.var (.ofToken t)) }
  else if t.kind = .number then
    some { st with mode := .operator slot parens pending (.num t t.lexeme) }
  else if t.kind = .leftParen then
    some (st.await slot (pending :: parens) .none)
  else none

def takeOperator (st : State) (slot : Slot) (parens : List Pending) (pending : Pending)
    (e : Expr) (t : Token) : Option State :=
  if t.Is .operator "*" ∨ t.Is .operator "/" then
    some (st.await slot parens { pending with product := some (pending.endProduct e, t) })
  else if t.Is .operator "+" ∨ t.Is .operator "-" then
    some (st.await slot parens
      { pending with sum := some (pending.endSum e, t), product := none })
  -- At most one comparison stands in an expression.
  else if t.kind = .comparator ∧ pending.comparison = none then
    some (st.await slot parens
      { comparison := some (pending.endSum e, t), sum := none, product := none })
  else match parens with
    | [] => st.fill slot (pending.endExpr e) t
    | outer :: parens =>
      if t.kind = .rightParen then
        some { st with mode := .operator slot parens outer (pending.endExpr e) }
      else none

/-- Takes one token, or `none` where it does not fit. -/
def step (st : State) (t : Token) : Option State :=
  match st.mode with
  | .statement => st.begin t
  | .declared token =>
    if t.kind = .identifier then some { st with mode := .declaredName token t } else none
  | .declaredName token name =>
    if t.kind = .semicolon then some (st.add (.declare token (.ofToken name))) else none
  | .assigned name =>
    if t.kind = .assignOp then some (st.await (.value name) [] .none) else none
  | .ifWord token =>
    if t.kind = .leftParen then some (st.await (.ifCond token) [] .none) else none
  | .whileWord token =>
    if t.kind = .leftParen then some (st.await (.whileCond token) [] .none) else none
  | .printWord token =>
    if t.kind = .leftParen then some (st.await (.printed token) [] .none) else none
  | .operand slot parens pending => st.takeOperand slot parens pending t
  | .operator slot parens pending e => st.takeOperator slot parens pending e t
  | .printed token value =>
    if t.kind = .semicolon then some (st.add (.print token value)) else none
  | .block owner =>
    if t.kind = .leftBrace then
      some { frames := ⟨owner, t, st.done⟩ :: st.frames, done := [], mode := .statement }
    else none
  | .ifBlock token cond brace body =>
    if t.Is .keyword "else" then some { st with mode := .block (.ifElse token cond brace body) }
    else (st.add (.ifThen token cond brace body)).begin t

/-- The program, if the tokens may end here; else what is missing. -/
def finish (st : State) : Except Expectation Program :=
  match st.mode, st.frames with
  | .statement, [] => .ok st.done
  | .ifBlock token cond brace body, [] => .ok (st.add (.ifThen token cond brace body)).done
  | .statement, _ :: _ => .error .blockClose
  | .ifBlock .., _ :: _ => .error .blockClose
  | mode, _ => .error mode.expectation

/-- Takes tokens up to the first that does not fit. Also gives the tokens that were not taken. -/
def run (st : State) : List Token → Except Expectation Program × List Token
  | [] => (st.finish, [])
  | t :: ts =>
    match st.step t with
    | some st => st.run ts
    -- What does not fit may still be the end, where a program may be complete.
    | none => (if t.kind = .eof then st.finish else .error st.mode.expectation, t :: ts)

end State
end Parse

/-- The first token that does not fit the grammar, and what was expected in its place. -/
structure SyntaxError where
  expected : Expectation
  token : Token
  deriving DecidableEq, Repr

namespace SyntaxError

def AtEnd (e : SyntaxError) : Prop := e.token.kind = .eof

instance (e : SyntaxError) : Decidable e.AtEnd := inferInstanceAs (Decidable (_ = _))

def message (e : SyntaxError) : Text :=
  "syntax error: " ++ e.expected.message ++ " at token: " ++
    (if e.AtEnd then utf8 "EOF" else e.token.text)

end SyntaxError

/-- The token that stands for the end of a token list: right behind its last token. -/
def endOf (ts : List Token) : Token :=
  match ts.getLast? with
  | some last => ⟨.eof, [], last.line, last.endColumn⟩
  | none => ⟨.eof, [], 0, 0⟩

structure Parser where
  tokens : List Token
  /-- The tokens from where the last reading stopped. -/
  rest : List Token
  deriving DecidableEq, Repr

namespace Parser

def ofTokens (ts : List Token) : Parser := ⟨ts, ts⟩

/-- Reads a program from where the last reading stopped. -/
def read (p : Parser) : Except SyntaxError Program × Parser :=
  match Parse.State.initial.run p.rest with
  | (.ok program, rest) => (.ok program, { p with rest })
  | (.error expected, rest) =>
    (.error ⟨expected, rest.head?.getD (endOf p.tokens)⟩, { p with rest })

end Parser

def parse (ts : List Token) : Except SyntaxError Program := (Parser.ofTokens ts).read.1

end ThreeAddress
