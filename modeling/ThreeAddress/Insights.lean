import ThreeAddress.Compile
import ThreeAddress.Syntax.Visit

/-!
# Figures about a program

Counts of the statements, the depth of nested blocks, and what the other stages say about
the same program, with the text that presents them.
-/

namespace ThreeAddress

mutual

/-- How deep the blocks of a statement are nested. A block of its own does not count. -/
def Stmt.depth : Stmt → Nat
  | .ifThen _ _ _ body => 1 + Stmt.depthAll body
  | .ifElse _ _ _ body _ elseBody => max (1 + Stmt.depthAll body) (1 + Stmt.depthAll elseBody)
  | .whileDo _ _ _ body => 1 + Stmt.depthAll body
  | _ => 0

def Stmt.depthAll : List Stmt → Nat
  | [] => 0
  | s :: rest => max s.depth (Stmt.depthAll rest)

end

/-- The statements that are counted. -/
inductive StatementKind where
  | declaration
  | assignment
  | ifStatement
  | whileStatement
  | printStatement
  deriving DecidableEq, Repr

namespace StatementKind

def all : List StatementKind :=
  [declaration, assignment, ifStatement, whileStatement, printStatement]

def name : StatementKind → Text
  | declaration => "int"
  | assignment => "assign"
  | ifStatement => "if"
  | whileStatement => "while"
  | printStatement => "print"

/-- The kind of statement a node is. -/
def of? : Node → Option StatementKind
  | .stmt (.declare ..) => some declaration
  | .stmt (.assign ..) => some assignment
  | .stmt (.ifThen ..) => some ifStatement
  | .stmt (.ifElse ..) => some ifStatement
  | .stmt (.whileDo ..) => some whileStatement
  | .stmt (.print ..) => some printStatement
  | _ => none

end StatementKind

/-- How many statements of a kind there are in a program. -/
def Program.countKind (p : Program) (k : StatementKind) : Nat :=
  (Node.program p).visit.countP fun n => StatementKind.of? n == some k

structure Insights where
  /-- The declared names with their lines. -/
  symbols : List (Text × Int)
  count : StatementKind → Nat
  maxDepth : Nat
  temporaries : Nat
  fallbacks : Nat
  omissions : List Omission
  tokenDigest : Text
  codeDigest : Text

namespace Insights

def of (tokens : List Token) (symbols : List Symbol) (program : Program) (code : Code) : Insights :=
  { symbols := symbols.map fun s => (s.name, s.token.line)
    count := Program.countKind program
    maxDepth := Stmt.depthAll program
    temporaries := code.temporaries
    fallbacks := code.fallbacks
    omissions := code.omissions
    tokenDigest := Token.digest tokens
    codeDigest := code.digest }

def ofCompiled (c : Compiled) : Insights := of c.tokens c.symbols c.program c.code

/-- One item of a list of figures. -/
def item (t : Text) : Text := Text.line ("  · " ++ t)

def symbolText (i : Insights) : Text :=
  Text.line ("Symbols (" ++ Text.ofNat i.symbols.length ++ ")") ++
    match i.symbols with
    | [] => item "No variables declared."
    | symbols =>
      symbols.flatMap fun (name, line) =>
        item ("int " ++ name ++ " (line " ++ Text.ofInt line ++ ")")

def statementText (i : Insights) : Text :=
  Text.line "Statements" ++
    (StatementKind.all.flatMap fun k =>
      item (Text.padRight 7 k.name ++ " " ++ Text.ofNat (i.count k))) ++
    item ("nesting " ++ Text.ofNat i.maxDepth)

def codeText (i : Insights) : Text :=
  let omitted := i.omissions.map fun o => o.statement ++ "@" ++ Text.ofInt o.line
  Text.line "Intermediate Code" ++
    item ("temporaries " ++ Text.ofNat i.temporaries) ++
    item ("fallbacks   " ++ Text.ofNat i.fallbacks) ++
    (if omitted.isEmpty then [] else item ("not lowered " ++ List.intercalate ", " omitted)) ++
    item ("tokens  " ++ i.tokenDigest) ++
    item ("ir      " ++ i.codeDigest)

def text (i : Insights) : Text := i.symbolText ++ i.statementText ++ i.codeText

end Insights
end ThreeAddress
