import ThreeAddress.Source.Position
import ThreeAddress.Source.Segment
import ThreeAddress.Text.Quoted

/-!
# Reading a source token by token

The tokens of a source stand in a stream, the characters without meaning among them. A
policy says what becomes of the latter: they are skipped and remembered, or the first of
them ends the reading for good.
-/

namespace ThreeAddress

/-- What to do about characters without meaning. Policies without a name skip. -/
inductive Policy where
  | skip
  | reject
  | unnamed (number : Int)
  deriving DecidableEq, Repr

namespace Policy

def ofNumber (n : Int) : Policy :=
  if n = 0 then skip else if n = 1 then reject else unnamed n

def name : Policy → Text
  | skip => "skip"
  | reject => "reject"
  | unnamed n => "Policy(" ++ Text.ofInt n ++ ")"

def rejects : Policy → Bool
  | reject => true
  | _ => false

end Policy

/-- A character without meaning was met and may not be skipped. -/
structure LexicalError where
  token : Token
  deriving DecidableEq, Repr

def LexicalError.message (e : LexicalError) : Text :=
  "lexical error: unrecognized character " ++ Text.quoted e.token.lexeme ++ " at " ++
    Text.ofInt e.token.line ++ ":" ++ Text.ofInt e.token.column

namespace Source

/-- The tokens of the segments, the first of which stands at `p`. -/
def tokensAt : Position → List Segment → List Token
  | _, [] => []
  | p, s :: rest =>
    let more := tokensAt (p.after s.glyphs) rest
    match s.kind? with
    | some k => ⟨k, s.lexeme, p.line, p.column⟩ :: more
    | none => more

/-- The stream of a source: its tokens and its characters without meaning, in order. -/
def stream (source : Text) : List Token :=
  tokensAt .start (Segment.ofGlyphs source.glyphs)

/-- The token that stands for the end of a source. -/
def endToken (source : Text) : Token :=
  let p := Position.start.after source.glyphs
  ⟨.eof, [], p.line, p.column⟩

end Source

/-- A reading under way. -/
structure Reader where
  policy : Policy
  /-- What is left of the stream. -/
  ahead : List Token
  endToken : Token
  /-- The characters skipped so far. -/
  skipped : List Token
  /-- The error that ended the reading. -/
  failure : Option LexicalError
  ends : endToken.kind = .eof
  deriving DecidableEq, Repr

namespace Reader

def ofSource (policy : Policy) (source : Text) : Reader :=
  { policy, ahead := Source.stream source, endToken := Source.endToken source,
    skipped := [], failure := none, ends := rfl }

/-- Hands out the first token of `ahead`, past the characters to be skipped. -/
def nextIn (r : Reader) : (ahead skipped : List Token) → Except LexicalError Token × Reader
  | [], skipped => (.ok r.endToken, { r with ahead := [], skipped })
  | t :: ts, skipped =>
    if t.kind = .unrecognized then
      if r.policy.rejects then
        (.error ⟨t⟩, { r with ahead := ts, skipped, failure := some ⟨t⟩ })
      else r.nextIn ts (skipped ++ [t])
    else (.ok t, { r with ahead := ts, skipped })

/-- The next token, or the end token for ever once the source is used up. -/
def next (r : Reader) : Except LexicalError Token × Reader :=
  match r.failure with
  | some e => (.error e, r)
  | none => r.nextIn r.ahead r.skipped

theorem length_nextIn_lt {r last : Reader} {ahead skipped : List Token} {t : Token}
    (h : r.nextIn ahead skipped = (.ok t, last)) (inside : t.kind ≠ .eof) :
    last.ahead.length < ahead.length := by
  induction ahead generalizing skipped with
  | nil =>
    cases h
    exact absurd r.ends inside
  | cons s ahead ih =>
    unfold nextIn at h
    split at h
    · split at h
      · cases h
      · exact Nat.lt_succ_of_lt (ih h)
    · cases h
      exact Nat.lt_succ_self _

/-- A token that is handed out is no longer ahead. -/
theorem length_next_lt {r last : Reader} {t : Token} (h : r.next = (.ok t, last))
    (inside : t.kind ≠ .eof) : last.ahead.length < r.ahead.length := by
  unfold next at h
  split at h
  · cases h
  · exact length_nextIn_lt h inside

/-- Asks for tokens until the end. An error takes with it the tokens that stand before it. -/
def readAll (r : Reader) : Except LexicalError (List Token) × Reader :=
  match h : r.next with
  | (.error e, last) => (.error e, last)
  | (.ok t, last) =>
    if atEnd : t.kind = .eof then (.ok [], last)
    else
      have := length_next_lt h atEnd
      let (tokens, last) := last.readAll
      (tokens.map (t :: ·), last)
termination_by r.ahead.length

end Reader
end ThreeAddress
