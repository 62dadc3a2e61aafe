import ThreeAddress.Proofs.ReaderSessions

/-!
# Tokens tell where they stand

The position of a token is carried along from match to match. It is the true one: the line
counts the newlines of the text before the token, the column the characters behind the last of
them (`Token.StandsBehind`). This holds of all that a reader tells about, the strays, the token
of an error and the end of the source included.
-/

namespace ThreeAddress

/-- The line and the column of the token count what stands in the text before it. -/
structure Token.StandsBehind (before : Text) (t : Token) : Prop where
  line : t.line = 1 + before.count Text.newline
  column : ∃ n, Characters before.lastLine n ∧ t.column = 1 + n

lemma Token.At.standsBehind {before : Text} {t : Token}
    (h : t.At (Position.start.after before.glyphs)) : t.StandsBehind before := by
  obtain ⟨line, column⟩ := h
  rw [Position.after_glyphs] at line column
  refine ⟨line, before.lastLine.glyphs.length, Text.characters_iff.mpr rfl, ?_⟩
  by_cases newline : Text.newline ∈ before
  · simpa [newline] using column
  · rw [Text.lastLine_of_notMem newline]
    simpa [newline, Position.start] using column

/-- The matches lead from one position to another. Each entry of the stream stands where its
match begins. -/
inductive Scanned : Position → List Piece → Position → Prop where
  | nil {p : Position} : Scanned p [] p
  | cons {p q finish : Position} {piece : Piece} {pieces : List Piece}
      (place : ∀ t ∈ piece.item?, t.At p) (advances : p.Advances piece.text q)
      (others : Scanned q pieces finish) : Scanned p (piece :: pieces) finish

/-- The entries stand behind all the text of the earlier pieces, counted from `p`. -/
def Placed (p : Position) (pieces : List Piece) : Prop :=
  ∀ before piece after, pieces = before ++ piece :: after →
    ∀ t ∈ piece.item?, t.At (p.after (Text.glyphs (before.flatMap Piece.text)))

/-- A piece in front moves the places of the others by its own characters. -/
lemma Placed.cons {p : Position} {piece : Piece} {rest : Text} {pieces : List Piece}
    (leads : piece.Leads p rest) (cut : Cut rest pieces)
    (h : Placed (p.after piece.text.glyphs) pieces) : Placed p (piece :: pieces) := by
  rintro (_ | ⟨first, before⟩) other after split t mem
  · obtain ⟨rfl, rfl⟩ := List.cons.inj split
    exact leads.place t mem
  · obtain ⟨rfl, others⟩ := List.cons.inj split
    have apart := leads.detaches.glyphs
    rw [← cut.text, others, List.append_eq, List.flatMap_append] at apart
    rw [List.flatMap_cons, Text.glyphs_append_left apart, Position.after_append]
    exact h before other after others t mem

/-- Every source is scanned to its end, and the entries of its stream are in their places. -/
lemma exists_scanned (p : Position) (source : Text) : ∃ pieces, Cut source pieces ∧
    Source.tokensFrom p source = pieces.filterMap Piece.item? ∧
    Scanned p pieces (p.after source.glyphs) ∧ Placed p pieces := by
  induction p, source using Piece.induction with
  | nil p => exact ⟨[], .nil, rfl, .nil, by simp [Placed]⟩
  | cons p piece rest leads ih =>
    obtain ⟨pieces, cut, items, scanned, placed⟩ := ih
    refine ⟨piece :: pieces, .cons leads.fits cut, leads.tokensFrom_eq items, ?_,
      placed.cons leads cut⟩
    rw [leads.detaches.glyphs, Position.after_append]
    exact .cons leads.place (p.advances_after piece.text) scanned

namespace Source

lemma tokens_sublist (policy : Policy) (source : Text) :
    (tokens policy source).Sublist (stream source) := by
  unfold tokens Policy.readable
  split
  · exact List.takeWhile_sublist _
  · exact List.filter_sublist

lemma straysBefore_sublist (source : Text) (ts : List Token) :
    (straysBefore source ts).Sublist (stream source) := by
  unfold straysBefore
  split
  · exact List.filter_sublist.trans List.filter_sublist
  · exact List.nil_sublist _

/-- An error is about a stray of the source. -/
lemma token_mem_stream {policy : Policy} {source : Text} {e : LexicalError}
    (h : ending policy source = .error e) : e.token ∈ stream source := by
  rcases policy.ending_cases (endToken source) (stream source) with
    ⟨t, others, _, strays, fails⟩ | ⟨_, _, ends⟩
  · cases fails.symm.trans h
    have first : t ∈ (stream source).filter (·.kind = .unrecognized) := by
      rw [strays]
      exact List.mem_cons_self
    exact List.mem_of_mem_filter first
  · cases ends.symm.trans h

end Source

namespace Reader

/-- The tokens that an answer tells about. -/
def Answer.mentioned : Answer → List Token
  | token (.ok t) => [t]
  | token (.error e) => [e.token]
  | tokens (.ok ts) => ts
  | tokens (.error e) => [e.token]
  | skipped ts => ts

section Mentioned

variable {policy : Policy} {source : Text} {k : Nat} {r : Reader}

lemma mentioned_ending (policy : Policy) (source : Text) :
    (Answer.token (Source.ending policy source)).mentioned.Sublist
      (Source.stream source ++ [Source.endToken source]) := by
  rcases Source.ending_eq policy source with ends | ⟨e, fails⟩
  · rw [ends]
    exact List.sublist_append_right _ _
  · rw [fails]
    exact List.singleton_sublist.mpr (List.mem_append_left _ (Source.token_mem_stream fails))

lemma Reads.skipped_sublist (h : Reads policy source k r) :
    r.skipped.Sublist (Source.stream source) := by
  rcases h.skipped_cases with ⟨_, none⟩ | ⟨_, _, all⟩ | ⟨_, _, some⟩
  · rw [none]
    exact List.nil_sublist _
  · rw [all]
    exact List.filter_sublist
  · rw [some]
    exact Source.straysBefore_sublist source _

lemma Reads.mentioned_sublist (h : Reads policy source k r) (c : Call) :
    (r.call c).1.mentioned.Sublist (Source.stream source ++ [Source.endToken source]) := by
  have within := List.sublist_append_left (Source.stream source) [Source.endToken source]
  have tokens := (Source.tokens_sublist policy source).trans within
  have ending := mentioned_ending policy source
  cases c with
  | next =>
    simp only [Reader.call, h.next.1]
    rcases Source.nth_cases policy source k with ⟨_, t, mem, _, eq⟩ | ⟨_, eq⟩
    · rw [eq]
      exact List.singleton_sublist.mpr (tokens.subset mem)
    · rw [eq]
      exact ending
  | readAll =>
    simp only [Reader.call, h.readAll.1]
    cases outcome : Source.ending policy source with
    | ok last => exact (List.drop_sublist k _).trans tokens
    | error e =>
      rw [outcome] at ending
      exact ending
  | skipped =>
    exact h.skipped_sublist.trans within

/-- All that the answers of a session tell about stands in the stream, or is its end. -/
lemma mentioned_sublist_of_mem (policy : Policy) (source : Text) (calls : List Call) :
    ∀ a ∈ (ofSource policy source).answers calls,
      a.mentioned.Sublist (Source.stream source ++ [Source.endToken source]) := by
  induction calls using List.reverseRecOn with
  | nil => exact List.forall_mem_nil _
  | append_singleton calls c ih =>
    rw [answers_concat, List.forall_mem_append, List.forall_mem_singleton]
    exact ⟨ih, (reads_after policy source calls).mentioned_sublist c⟩

end Mentioned
end Reader

/-- A source is cut into pieces, and the position is carried along from piece to piece. Each
token and each stray stands, by its line and its column, behind the text of the pieces before it,
and the end behind the whole source. All of them are in strict order, and whatever is asked of a
reader, its answers tell about these only and hand them out in their order. -/
theorem reading_tells_places (source : Text) : ∃ pieces, Cut source pieces ∧
    (∃ finish, Scanned .start pieces finish ∧ (Source.endToken source).At finish) ∧
    (∀ before piece after, pieces = before ++ piece :: after →
      ∀ t ∈ piece.item?, t.StandsBehind (before.flatMap Piece.text)) ∧
    (Source.endToken source).StandsBehind source ∧
    (pieces.filterMap Piece.item? ++ [Source.endToken source]).Pairwise Token.Before ∧
    ∀ (policy : Policy) (calls : List Reader.Call),
      (∀ a ∈ (Reader.ofSource policy source).answers calls,
        a.mentioned.Sublist (pieces.filterMap Piece.item? ++ [Source.endToken source])) ∧
      (((Reader.ofSource policy source).answers calls).flatMap Reader.Answer.handed ++
        [Source.endToken source]).Pairwise Token.Before := by
  obtain ⟨pieces, cut, items, scanned, placed⟩ := exists_scanned .start source
  have stream : Source.stream source = pieces.filterMap Piece.item? := items
  have ordered := Source.pairwise_stream source
  have last : (Source.endToken source).At (Position.start.after source.glyphs) := ⟨rfl, rfl⟩
  refine ⟨pieces, cut, ⟨_, scanned, last⟩, ?_, last.standsBehind, stream ▸ ordered, ?_⟩
  · intro before piece after split t mem
    exact (placed before piece after split t mem).standsBehind
  · intro policy calls
    constructor
    · rw [← stream]
      exact Reader.mentioned_sublist_of_mem policy source calls
    · have handed := (Reader.handed_prefix policy source calls).sublist.trans
        (Source.tokens_sublist policy source)
      exact ordered.sublist (handed.append_right [Source.endToken source])

/-- Four lines, of which one is blank, with a stray and a byte that begins no character. -/
def ragged : Text := utf8 "x = 1;\n \t\n  # y\n é" ++ [0xFF]

/-- The two characters of the last line and the blank before them count. -/
theorem reading_tells_places_ragged : (Source.endToken ragged).StandsBehind ragged ∧
    Source.endToken ragged = ⟨.eof, [], 4, 4⟩ := by
  obtain ⟨_, _, _, _, last, _⟩ := reading_tells_places ragged
  exact ⟨last, by decide +kernel⟩

end ThreeAddress
