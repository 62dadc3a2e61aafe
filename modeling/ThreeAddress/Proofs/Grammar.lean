import Mathlib.Tactic.Lemma
import ThreeAddress.Syntax.Tree

/-!
# The grammar of programs

Which token lists spell which trees, said without a reading procedure. Each node keeps
the token it came from, names and operators are the lexemes of their tokens, and
parentheses leave no node. Lexemes matter for keywords and operators only.
-/

namespace ThreeAddress.Grammar

/-- The levels of an expression, the tightest first. -/
inductive Level where
  | factor
  | term
  | arith
  | expr
  deriving DecidableEq, Repr

/-- A token that joins factors to a term. -/
def IsTimes (t : Token) : Prop := t.Is .operator "*" ∨ t.Is .operator "/"

/-- A token that joins terms to a sum. -/
def IsPlus (t : Token) : Prop := t.Is .operator "+" ∨ t.Is .operator "-"

/-- The tokens spell the expression on the given level. -/
inductive Expression : Level → List Token → Expr → Prop where
  | name {t : Token} (kind : t.kind = .identifier) : Expression .factor [t] (.var (.ofToken t))
  | number {t : Token} (kind : t.kind = .number) : Expression .factor [t] (.num t t.lexeme)
  | parens {l r : Token} {ts : List Token} {e : Expr} (left : l.kind = .leftParen)
      (inner : Expression .expr ts e) (right : r.kind = .rightParen) :
      Expression .factor (l :: (ts ++ [r])) e
  | factor {ts : List Token} {e : Expr} (only : Expression .factor ts e) : Expression .term ts e
  | product {op : Token} {ts us : List Token} {a b : Expr} (left : Expression .term ts a)
      (times : IsTimes op) (right : Expression .factor us b) :
      Expression .term (ts ++ op :: us) (.binary op op.lexeme a b)
  | term {ts : List Token} {e : Expr} (only : Expression .term ts e) : Expression .arith ts e
  | sum {op : Token} {ts us : List Token} {a b : Expr} (left : Expression .arith ts a)
      (plus : IsPlus op) (right : Expression .term us b) :
      Expression .arith (ts ++ op :: us) (.binary op op.lexeme a b)
  | arith {ts : List Token} {e : Expr} (only : Expression .arith ts e) : Expression .expr ts e
  | comparison {op : Token} {ts us : List Token} {a b : Expr} (left : Expression .arith ts a)
      (comparator : op.kind = .comparator) (right : Expression .arith us b) :
      Expression .expr (ts ++ op :: us) (.binary op op.lexeme a b)

mutual

/-- The tokens spell one statement. -/
inductive Statement : List Token → Stmt → Prop where
  | declaration {word x stop : Token} (intWord : word.Is .keyword "int")
      (name : x.kind = .identifier) (semicolon : stop.kind = .semicolon) :
      Statement [word, x, stop] (.declare word (.ofToken x))
  | assignment {x sign stop : Token} {ts : List Token} {e : Expr} (name : x.kind = .identifier)
      (assign : sign.kind = .assignOp) (value : Expression .expr ts e)
      (semicolon : stop.kind = .semicolon) :
      Statement (x :: sign :: (ts ++ [stop])) (.assign x (.ofToken x) e)
  | ifThen {word l r brace : Token} {ts us : List Token} {e : Expr} {body : List Stmt}
      (ifWord : word.Is .keyword "if") (left : l.kind = .leftParen)
      (cond : Expression .expr ts e) (right : r.kind = .rightParen) (block : Block us brace body) :
      Statement (word :: l :: (ts ++ r :: us)) (.ifThen word e brace body)
  | ifElse {word l r brace other elseBrace : Token} {ts us vs : List Token} {e : Expr}
      {body elseBody : List Stmt} (ifWord : word.Is .keyword "if") (left : l.kind = .leftParen)
      (cond : Expression .expr ts e) (right : r.kind = .rightParen) (block : Block us brace body)
      (elseWord : other.Is .keyword "else") (elseBlock : Block vs elseBrace elseBody) :
      Statement (word :: l :: (ts ++ r :: (us ++ other :: vs)))
        (.ifElse word e brace body elseBrace elseBody)
  | whileDo {word l r brace : Token} {ts us : List Token} {e : Expr} {body : List Stmt}
      (whileWord : word.Is .keyword "while") (left : l.kind = .leftParen)
      (cond : Expression .expr ts e) (right : r.kind = .rightParen) (block : Block us brace body) :
      Statement (word :: l :: (ts ++ r :: us)) (.whileDo word e brace body)
  | print {word l r stop : Token} {ts : List Token} {e : Expr}
      (printWord : word.Is .keyword "print") (left : l.kind = .leftParen)
      (value : Expression .expr ts e) (right : r.kind = .rightParen)
      (semicolon : stop.kind = .semicolon) :
      Statement (word :: l :: (ts ++ [r, stop])) (.print word e)

/-- The tokens spell a block with that brace and those statements. -/
inductive Block : List Token → Token → List Stmt → Prop where
  | braces {l r : Token} {ts : List Token} {body : List Stmt} (left : l.kind = .leftBrace)
      (inner : Statements ts body) (right : r.kind = .rightBrace) :
      Block (l :: (ts ++ [r])) l body

/-- The tokens spell the statements one after another. -/
inductive Statements : List Token → List Stmt → Prop where
  | nil : Statements [] []
  | cons {ts us : List Token} {s : Stmt} {rest : List Stmt} (first : Statement ts s)
      (others : Statements us rest) : Statements (ts ++ us) (s :: rest)

end

lemma IsTimes.kind {t : Token} (h : IsTimes t) : t.kind = .operator :=
  h.elim And.left And.left

lemma IsPlus.kind {t : Token} (h : IsPlus t) : t.kind = .operator :=
  h.elim And.left And.left

lemma Statements.append {ts us : List Token} {p q : List Stmt} (hp : Statements ts p)
    (hq : Statements us q) : Statements (ts ++ us) (p ++ q) := by
  induction p generalizing ts with
  | nil => cases hp; exact hq
  | cons s rest ih =>
    cases hp with
    | cons first others =>
      rw [List.append_assoc]
      exact .cons first (ih others)

/-- The grammar reads a further statement at the right end as well. -/
lemma Statements.snoc {ts us : List Token} {p : List Stmt} {s : Stmt} (hp : Statements ts p)
    (hs : Statement us s) : Statements (ts ++ us) (p ++ [s]) := by
  have last : Statements (us ++ []) [s] := .cons hs .nil
  rw [List.append_nil] at last
  exact hp.append last

end ThreeAddress.Grammar
