import ThreeAddress.Digest

/-!
# Tokens

A token is a lexeme with its kind and the place where it stands. Tokens that are built by
hand may have any kind, any lexeme and any place.
-/

namespace ThreeAddress

/-- The kinds of token. Any further kind is kept by its name and has no meaning. -/
inductive Kind where
  | unrecognized
  | eof
  | keyword
  | identifier
  | number
  | assignOp
  | semicolon
  | operator
  | comparator
  | leftParen
  | rightParen
  | leftBrace
  | rightBrace
  | other (name : Text)
  deriving DecidableEq, Repr

namespace Kind

/-- The kinds that have a meaning. -/
def known : List Kind :=
  [unrecognized, eof, keyword, identifier, number, assignOp, semicolon, operator, comparator,
    leftParen, rightParen, leftBrace, rightBrace]

def name : Kind → Text
  | unrecognized => "UNRECOGNIZED"
  | eof => "EOF"
  | keyword => "KEYWORD"
  | identifier => "IDENTIFIER"
  | number => "NUMBER"
  | assignOp => "ASSIGN_OP"
  | semicolon => "SEMICOLON"
  | operator => "OPERATOR"
  | comparator => "COMPARATOR"
  | leftParen => "LEFT_PAREN"
  | rightParen => "RIGHT_PAREN"
  | leftBrace => "LEFT_BRACE"
  | rightBrace => "RIGHT_BRACE"
  | other name => name

/-- The kind of that name. -/
def ofName (name : Text) : Kind :=
  (known.find? fun k => k.name == name).getD (other name)

/-- A kind that has a meaning is told by its name. -/
theorem ofName_name {k : Kind} (h : k ∈ known) : ofName k.name = k := by
  have all : ∀ k ∈ known, ofName k.name = k := by decide +kernel
  exact all k h

end Kind

/-- The reserved words. -/
def reserved : List Text := ["int", "if", "else", "while", "print"]

/-- The kind of a word: reserved words are keywords, all others identifiers. -/
def Kind.ofWord (word : Text) : Kind :=
  if word ∈ reserved then keyword else identifier

structure Token where
  kind : Kind
  lexeme : Text
  line : Int
  column : Int
  deriving DecidableEq, Repr

namespace Token

/-- The form in which tokens are listed and quoted in messages. -/
def text (t : Token) : Text := "(" ++ t.kind.name ++ ", " ++ t.lexeme ++ ")"

/-- The token is of that kind and spelled that way. -/
def Is (t : Token) (kind : Kind) (lexeme : Text) : Prop :=
  t.kind = kind ∧ t.lexeme = lexeme

instance (t : Token) (kind : Kind) (lexeme : Text) : Decidable (t.Is kind lexeme) :=
  inferInstanceAs (Decidable (_ ∧ _))

/-- The column right behind the token, which counts its bytes. A column has 64 bits: behind
the greatest of them comes the least. -/
def endColumn (t : Token) : Int := (t.column + t.lexeme.length).bmod 0x10000000000000000

theorem endColumn_eq {t : Token} (low : -0x8000000000000000 ≤ t.column + t.lexeme.length)
    (high : t.column + t.lexeme.length < 0x8000000000000000) :
    t.endColumn = t.column + t.lexeme.length :=
  Int.bmod_eq_of_le_mul_two (by omega) (by omega)

/-- The tokens, one on a line. -/
def listing (ts : List Token) : Text := Text.lines (ts.map text)

/-- The digest of a token sequence sees kinds and lexemes, not places. -/
def digest (ts : List Token) : Text := Text.digest (listing ts)

end Token
end ThreeAddress
