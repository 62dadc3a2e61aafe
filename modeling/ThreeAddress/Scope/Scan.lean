import ThreeAddress.Scope.Table

/-!
# Checking the scope of a token list

The same rules without a tree: an identifier right behind `int` is declared, and every
other identifier is used. Nothing is asked about the rest of the tokens.
-/

namespace ThreeAddress

/-- Scans a token list. Behind `int` it looks one token ahead, and passes over a name that it
finds there. -/
def Table.scan (t : Table) : List Token → Except Violation Table
  | [] => .ok t
  | tok :: rest =>
    if tok.Is .keyword "int" then
      match rest with
      | [] => .ok t
      | next :: behind =>
        if next.kind = .identifier then
          match t.declare (.ofToken next) with
          | .ok t => t.scan behind
          | .error e => .error e
        else t.scan (next :: behind)
    else if tok.kind = .identifier then
      match t.use (.ofToken tok) with
      | none => t.scan rest
      | some e => .error e
    else t.scan rest

/-- The table of a token list whose names are in scope. -/
def scanTokens (ts : List Token) : Except Violation Table := Table.empty.scan ts

end ThreeAddress
