import ThreeAddress.Syntax.Tree

/-!
# Symbol tables

All names of a program share one namespace. A table lists its symbols in the order of
their definition and counts the definitions made. Defining a name again replaces its
symbol, so the count may exceed the number of symbols.
-/

namespace ThreeAddress

/-- A defined name, the number of definitions before it, and the token it was defined by. -/
structure Symbol where
  name : Text
  index : Nat
  token : Token
  deriving DecidableEq, Repr

structure Table where
  symbols : List Symbol
  count : Nat
  deriving DecidableEq, Repr

namespace Table

def empty : Table := ⟨[], 0⟩

def resolve (t : Table) (name : Text) : Option Symbol := t.symbols.find? (·.name = name)

def define (t : Table) (name : Text) (token : Token) : Symbol × Table :=
  let s : Symbol := ⟨name, t.count, token⟩
  (s, ⟨t.symbols.filter (·.name ≠ name) ++ [s], t.count + 1⟩)

theorem resolve_define_self (t : Table) (name : Text) (token : Token) :
    (t.define name token).2.resolve name = some (t.define name token).1 := by
  have none_left : (t.symbols.filter (·.name ≠ name)).find? (·.name = name) = none := by
    rw [List.find?_eq_none]
    intro s hs
    simpa using (List.mem_filter.mp hs).2
  simp only [resolve, define, List.find?_append, none_left]
  simp

theorem resolve_define_of_ne (t : Table) {name other : Text} (token : Token) (h : other ≠ name) :
    (t.define name token).2.resolve other = t.resolve other := by
  have same : (t.symbols.filter (·.name ≠ name)).find? (·.name = other) =
      t.symbols.find? (·.name = other) := by
    rw [List.find?_filter]
    congr 1
    funext s
    by_cases hs : s.name = other
    · simp [hs, h]
    · simp [hs]
  simp only [resolve, define, List.find?_append, same]
  simp [h.symm]

end Table

inductive ViolationKind where
  | redeclared
  | undeclared
  deriving DecidableEq, Repr

/-- An occurrence of a name that breaks a rule: no name is declared twice, and none is used
before its declaration. -/
structure Violation where
  kind : ViolationKind
  name : Text
  token : Token
  deriving DecidableEq, Repr

def Violation.message (v : Violation) : Text :=
  "semantic error: variable '" ++ v.name ++
    match v.kind with
    | .redeclared => utf8 "' already declared"
    | .undeclared => utf8 "' used before declaration"

namespace Table

/-- The table with the name declared, unless it is there already. -/
def declare (t : Table) (id : Ident) : Except Violation Table :=
  match t.resolve id.name with
  | some _ => .error ⟨.redeclared, id.name, id.token⟩
  | none => .ok (t.define id.name id.token).2

/-- What is wrong with a use of the name. -/
def use (t : Table) (id : Ident) : Option Violation :=
  match t.resolve id.name with
  | some _ => none
  | none => some ⟨.undeclared, id.name, id.token⟩

end Table
end ThreeAddress
