import ThreeAddress.Code.Lower
import ThreeAddress.Scope.Check
import ThreeAddress.Scope.Scan
import ThreeAddress.Source.Reader
import ThreeAddress.Syntax.Parse

/-!
# From source to code

A source is read, parsed, checked and lowered. The first error ends the run, and no later
stage sees the program.
-/

namespace ThreeAddress

/-- How the scope of names is checked. -/
inductive ScopeMode where
  /-- On the tree. -/
  | tree
  /-- On the tokens. -/
  | tokens
  deriving DecidableEq, Repr

namespace ScopeMode

def name : ScopeMode → Text
  | tree => "tree"
  | tokens => "tokens"

/-- The mode of that name, if it is one. -/
def ofName? (name : Text) : Option ScopeMode :=
  if name = utf8 "tree" then some tree
  else if name = utf8 "tokens" then some tokens
  else none

/-- The mode that a name selects. Any name but that of the token scan selects the tree. -/
def select (name : Text) : ScopeMode := (ofName? name).getD tree

end ScopeMode

structure Options where
  policy : Policy
  scope : ScopeMode
  deriving DecidableEq, Repr

inductive CompileError where
  | lexical (e : LexicalError)
  | grammar (e : SyntaxError)
  | scope (v : Violation)
  deriving DecidableEq, Repr

namespace CompileError

def message : CompileError → Text
  | lexical e => e.message
  | grammar e => e.message
  | scope v => v.message

/-- The stage that an error ended. -/
def stage : CompileError → Text
  | lexical _ => "lex"
  | grammar _ => "syntax"
  | scope _ => "semantic"

end CompileError

/-- A source read and parsed. -/
structure Parsed where
  tokens : List Token
  /-- The characters that were skipped. -/
  skipped : List Token
  program : Program
  deriving Repr

/-- What the stages made of a source. -/
structure Compiled extends Parsed where
  symbols : List Symbol
  code : Code
  deriving Repr

/-- The tokens of a source and the characters skipped. -/
def readTokens (policy : Policy) (source : Text) : Except LexicalError (List Token × List Token) :=
  match (Reader.ofSource policy source).readAll with
  | (.ok tokens, r) => .ok (tokens, r.skipped)
  | (.error e, _) => .error e

def readProgram (policy : Policy) (source : Text) : Except CompileError Parsed :=
  match readTokens policy source with
  | .error e => .error (.lexical e)
  | .ok (tokens, skipped) =>
    match parse tokens with
    | .error e => .error (.grammar e)
    | .ok program => .ok { tokens, skipped, program }

/-- The table of a program that was read from some tokens. -/
def checkScope (mode : ScopeMode) (tokens : List Token) (program : Program) :
    Except Violation Table :=
  match mode with
  | .tree => Program.check program
  | .tokens => scanTokens tokens

def compile (options : Options) (source : Text) : Except CompileError Compiled :=
  match readProgram options.policy source with
  | .error e => .error e
  | .ok parsed =>
    match checkScope options.scope parsed.tokens parsed.program with
    | .error v => .error (.scope v)
    | .ok table =>
      .ok { parsed with symbols := table.symbols, code := Program.lower parsed.program }

end ThreeAddress
