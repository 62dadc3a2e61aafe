import Mathlib.Data.List.Basic
import ThreeAddress.Proofs.Scanning
import ThreeAddress.Proofs.WholeReadings

/-!
# Every source is cut into pieces

A source is made of runs of blanks, tokens and strays, and of nothing else. Each piece is of
its class and as long as the text behind it allows; a stray is one character at which nothing
else begins. The tokens and the strays of a source, in order, are what reading gives.
-/

namespace ThreeAddress

/-- The bytes with which a lexeme of the kind could go on. -/
def Kind.goesOn : Kind → UInt8 → Bool
  | .keyword, b => isLetter b || isDigit b
  | .identifier, b => isLetter b || isDigit b
  | .number, b => isDigit b
  | _, _ => false

/-- A piece of a source. -/
inductive Piece where
  | blanks (w : Text)
  | token (t : Token)
  | stray (t : Token)
  deriving DecidableEq, Repr

namespace Piece

def text : Piece → Text
  | blanks w => w
  | token t => t.lexeme
  | stray t => t.lexeme

def token? : Piece → Option Token
  | token t => some t
  | _ => none

def stray? : Piece → Option Token
  | stray t => some t
  | _ => none

/-- What the piece adds to the stream of a source. -/
def item? : Piece → Option Token
  | blanks _ => none
  | token t => some t
  | stray t => some t

/-- The piece is of its class, and ends where the text behind it makes it end. -/
def Fits (rest : Text) : Piece → Prop
  | blanks w => w ≠ [] ∧ (∀ b ∈ w, isBlank b) ∧ ∀ b ∈ rest.head?, ¬ isBlank b
  | token t => t.kind.Admits t.lexeme ∧ ∀ b ∈ rest.head?, ¬ t.kind.goesOn b
  | stray t => t.kind = .unrecognized ∧ IsFirst t.lexeme rest ∧
      (∀ b ∈ t.lexeme.head?, ¬ isBlank b) ∧
      ∀ (k : Kind) (w : Text), k.Admits w → ¬ w <+: t.lexeme ++ rest

end Piece

/-- The source is those pieces, one behind another. -/
inductive Cut : Text → List Piece → Prop where
  | nil : Cut [] []
  | cons {piece : Piece} {rest : Text} {pieces : List Piece} (fits : piece.Fits rest)
      (others : Cut rest pieces) : Cut (piece.text ++ rest) (piece :: pieces)

lemma Cut.text {source : Text} {pieces : List Piece} (h : Cut source pieces) :
    pieces.flatMap Piece.text = source := by
  induction h with
  | nil => rfl
  | cons _ _ ih => rw [List.flatMap_cons, ih]

/-! What a lexeme begins with. -/

lemma isWord_of_mem_reserved {w : Text} (h : w ∈ reserved) : IsWord w := by
  have all : ∀ w ∈ reserved, ∃ b ∈ w.head?, isLetter b ∧
      ∀ c ∈ w.tail, isLetter c ∨ isDigit c := by decide +kernel
  obtain ⟨b, head, letter, others⟩ := all w h
  exact ⟨b, w.tail, List.eq_cons_of_mem_head? head, letter, others⟩

lemma IsWord.exists_cons {w : Text} (h : IsWord w) : ∃ b v, w = b :: v ∧ isLetter b := by
  obtain ⟨b, v, rfl, letter, _⟩ := h
  exact ⟨b, v, rfl, letter⟩

/-- A lexeme of any class begins with a letter, a digit or a mark. -/
lemma Kind.Admits.exists_cons {k : Kind} {w : Text} (h : k.Admits w) :
    ∃ b v, w = b :: v ∧ (isLetter b ∨ isDigit b ∨ b ∈ marks) := by
  cases k with
  | keyword =>
    obtain ⟨b, v, same, letter⟩ := (isWord_of_mem_reserved h).exists_cons
    exact ⟨b, v, same, Or.inl letter⟩
  | identifier =>
    obtain ⟨b, v, same, letter⟩ := h.1.exists_cons
    exact ⟨b, v, same, Or.inl letter⟩
  | number =>
    obtain ⟨nonempty, digits⟩ := h
    cases w with
    | nil => exact absurd rfl nonempty
    | cons b v => exact ⟨b, v, rfl, Or.inr (Or.inl (digits b List.mem_cons_self))⟩
  | operator => rcases h with rfl | rfl | rfl | rfl <;> exact ⟨_, [], rfl, by decide⟩
  | comparator => rcases h with rfl | rfl <;> exact ⟨_, [], rfl, by decide⟩
  | assignOp | semicolon | leftParen | rightParen | leftBrace | rightBrace =>
    exact ⟨_, [], h, by decide⟩
  | unrecognized | eof | other => exact h.elim

lemma Piece.Fits.text_ne_nil {piece : Piece} {rest : Text} (h : piece.Fits rest) :
    piece.text ≠ [] := by
  cases piece with
  | blanks w => exact h.1
  | token t =>
    obtain ⟨b, v, same, _⟩ := h.1.exists_cons
    rw [text, same]
    exact List.cons_ne_nil b v
  | stray t => exact h.2.1.ne_nil

/-- The piece fits what stands behind it. Reading adds its entry, which stands at `p`, and goes
on behind it. -/
structure Piece.Leads (p : Position) (rest : Text) (piece : Piece) : Prop where
  fits : piece.Fits rest
  place : ∀ t ∈ piece.item?, t.line = p.line ∧ t.column = p.column
  detaches : Source.Detaches p piece.text piece.item?.toList rest

section Leading

variable {p : Position} {w rest : Text}

lemma goesOn_ofWord (w : Text) (b : UInt8) :
    (Kind.ofWord w).goesOn b ↔ isLetter b ∨ isDigit b := by
  unfold Kind.ofWord
  split <;> simp [Kind.goesOn]

lemma not_goesOn_of_markKind? {b : UInt8} {k : Kind} (h : markKind? b = some k) (c : UInt8) :
    ¬ k.goesOn c := by
  have all : ∀ b ∈ marks, ∀ k ∈ markKind? b, k ≠ .keyword ∧ k ≠ .identifier ∧ k ≠ .number := by
    decide +kernel
  obtain ⟨keyword, identifier, number⟩ := all b (mem_marks h) k h
  cases k <;> simp_all [Kind.goesOn]

lemma leads_word (word : IsWord w) (stop : ∀ b ∈ rest.head?, ¬ (isLetter b ∨ isDigit b)) :
    Piece.Leads p rest (.token ⟨.ofWord w, w, p.line, p.column⟩) := by
  refine ⟨⟨admits_ofWord word, ?_⟩, by simp [Piece.item?],
    Source.detaches_ascii word.ascii (Source.tokensFrom_word p word stop)⟩
  intro b hb goes
  exact stop b hb ((goesOn_ofWord w b).mp goes)

lemma leads_number (numeral : IsNumeral w) (stop : ∀ b ∈ rest.head?, ¬ isDigit b) :
    Piece.Leads p rest (.token ⟨.number, w, p.line, p.column⟩) :=
  ⟨⟨numeral, stop⟩, by simp [Piece.item?],
    Source.detaches_ascii numeral.ascii (Source.tokensFrom_number p numeral stop)⟩

lemma leads_blanks (nonempty : w ≠ []) (run : ∀ b ∈ w, isBlank b)
    (stop : ∀ b ∈ rest.head?, ¬ isBlank b) : Piece.Leads p rest (.blanks w) :=
  ⟨⟨nonempty, run, stop⟩, by simp [Piece.item?],
    Source.detaches_ascii (fun b hb => (of_isBlank (run b hb)).1)
      (Source.tokensFrom_blanks p run rest)⟩

lemma leads_mark {b : UInt8} {k : Kind} (mark : markKind? b = some k) :
    Piece.Leads p rest (.token ⟨k, [b], p.line, p.column⟩) :=
  ⟨⟨admits_of_markKind? mark, fun c _ => not_goesOn_of_markKind? mark c⟩, by simp [Piece.item?],
    Source.detaches_ascii (by simpa [Piece.text] using (of_markKind? mark).1)
      (Source.tokensFrom_mark p mark rest)⟩

/-- A first character at which no segment begins is a stray. -/
lemma leads_stray {a : UInt8} {v : Text} (first : IsFirst (a :: v) rest)
    (letter : ¬ isLetter a) (digit : ¬ isDigit a) (blank : ¬ isBlank a)
    (mark : markKind? a = none) :
    Piece.Leads p rest (.stray ⟨.unrecognized, a :: v, p.line, p.column⟩) := by
  have noMark : a ∉ marks := by
    have all : ∀ b ∈ marks, markKind? b ≠ none := by decide +kernel
    exact fun mem => all a mem mark
  refine ⟨⟨rfl, first, by simpa using blank, ?_⟩, by simp [Piece.item?],
    Source.detaches_stray first (Shape.startingWith_stray letter digit blank mark)⟩
  rintro k u admits ⟨more, same⟩
  obtain ⟨c, v', rfl, begins⟩ := admits.exists_cons
  obtain ⟨rfl, _⟩ := List.cons.inj same
  rcases begins with h | h | h
  · exact letter h
  · exact digit h
  · exact noMark h

lemma Leading.exists_piece (h : Leading w rest) :
    ∃ piece, Piece.Leads p rest piece ∧ piece.text = w := by
  cases h with
  | word word stop => exact ⟨_, leads_word word stop, rfl⟩
  | number numeral stop => exact ⟨_, leads_number numeral stop, rfl⟩
  | blanks nonempty run stop => exact ⟨_, leads_blanks nonempty run stop, rfl⟩
  | mark mark => exact ⟨_, leads_mark mark, rfl⟩
  | stray first letter digit blank mark =>
    exact ⟨_, leads_stray first letter digit blank mark, rfl⟩

/-- A lexeme that is neither a word nor a number is one mark. -/
lemma Kind.Admits.exists_mark {k : Kind} {w : Text} (h : k.Admits w) (keyword : k ≠ .keyword)
    (identifier : k ≠ .identifier) (number : k ≠ .number) :
    ∃ b, w = [b] ∧ markKind? b = some k := by
  cases k with
  | keyword => exact absurd rfl keyword
  | identifier => exact absurd rfl identifier
  | number => exact absurd rfl number
  | operator => rcases h with rfl | rfl | rfl | rfl <;> exact ⟨_, rfl, by decide⟩
  | comparator => rcases h with rfl | rfl <;> exact ⟨_, rfl, by decide⟩
  | assignOp | semicolon | leftParen | rightParen | leftBrace | rightBrace =>
    exact ⟨_, h, by decide⟩
  | unrecognized | eof | other => exact h.elim

lemma leads_token {t : Token} (fits : (Piece.token t).Fits rest) (line : t.line = p.line)
    (column : t.column = p.column) : Piece.Leads p rest (.token t) := by
  obtain ⟨k, w, l, c⟩ := t
  obtain ⟨admits, stop⟩ := fits
  dsimp only at admits stop line column
  subst line column
  have word (isWord : IsWord w) (kind : Kind.ofWord w = k) :
      Piece.Leads p rest (.token ⟨k, w, p.line, p.column⟩) := by
    subst kind
    exact leads_word isWord fun b hb goes => stop b hb ((goesOn_ofWord w b).mpr goes)
  by_cases keyword : k = .keyword
  · subst keyword
    exact word (isWord_of_mem_reserved admits) (if_pos admits)
  by_cases identifier : k = .identifier
  · subst identifier
    exact word admits.1 (if_neg admits.2)
  by_cases number : k = .number
  · subst number
    exact leads_number admits stop
  obtain ⟨b, rfl, mark⟩ := admits.exists_mark keyword identifier number
  exact leads_mark mark

/-- No segment begins with the first byte of a stray. -/
lemma exists_cons_of_fits_stray {t : Token} (fits : (Piece.stray t).Fits rest) :
    ∃ a v, t.lexeme = a :: v ∧ ¬ isLetter a ∧ ¬ isDigit a ∧ ¬ isBlank a ∧ markKind? a = none := by
  obtain ⟨_, first, blank, none⟩ := fits
  cases lexeme : t.lexeme with
  | nil => exact absurd lexeme first.ne_nil
  | cons a v =>
    rw [lexeme] at none blank
    -- A first byte of any class would be a lexeme by itself.
    have alone (k : Kind) : ¬ k.Admits [a] := fun admits => none k [a] admits ⟨v ++ rest, rfl⟩
    refine ⟨a, v, rfl, fun letter => ?_, fun digit => ?_, blank a rfl, ?_⟩
    · exact alone _ (admits_ofWord ⟨a, [], rfl, letter, by simp⟩)
    · exact alone .number ⟨by simp, by simpa using digit⟩
    · cases mark : markKind? a with
      | none => rfl
      | some k => exact absurd (admits_of_markKind? mark) (alone k)

/-- A piece that fits the text behind it is what reading finds first, wherever it stands. -/
lemma Piece.Fits.leads {piece : Piece} (fits : piece.Fits rest)
    (place : ∀ t ∈ piece.item?, t.line = p.line ∧ t.column = p.column) : piece.Leads p rest := by
  cases piece with
  | blanks w => exact leads_blanks fits.1 fits.2.1 fits.2.2
  | token t =>
    obtain ⟨line, column⟩ := place t rfl
    exact leads_token fits line column
  | stray t =>
    obtain ⟨line, column⟩ := place t rfl
    obtain ⟨a, v, lexeme, letter, digit, blank, mark⟩ := exists_cons_of_fits_stray fits
    obtain ⟨kind, first, _⟩ := fits
    obtain ⟨k, w, l, c⟩ := t
    dsimp only at kind first line column lexeme
    subst kind lexeme line column
    exact leads_stray first letter digit blank mark

end Leading

/-- What holds of the empty text and goes over from a text to one with a further piece in front
holds of every text, wherever it stands. -/
lemma Piece.induction {P : Position → Text → Prop} (nil : ∀ p, P p [])
    (cons : ∀ p piece rest, Piece.Leads p rest piece → P (p.after piece.text.glyphs) rest →
      P p (piece.text ++ rest)) (p : Position) (source : Text) : P p source := by
  induction length : source.length using Nat.strongRecOn generalizing source p with
  | ind n ih =>
    cases source with
    | nil => exact nil p
    | cons a r =>
      obtain ⟨w, rest, whole, leading⟩ := exists_leading a r
      obtain ⟨piece, leads, rfl⟩ := leading.exists_piece (p := p)
      have shorter : rest.length < n := by
        have positive := List.length_pos_iff.mpr leads.fits.text_ne_nil
        rw [whole, List.length_append] at length
        omega
      rw [whole]
      exact cons p piece rest leads (ih _ shorter _ rest rfl)

lemma Piece.Leads.tokensFrom_eq {p : Position} {rest : Text} {piece : Piece} {pieces : List Piece}
    (h : piece.Leads p rest)
    (items : Source.tokensFrom (p.after piece.text.glyphs) rest = pieces.filterMap Piece.item?) :
    Source.tokensFrom p (piece.text ++ rest) = (piece :: pieces).filterMap Piece.item? := by
  rw [h.detaches.tokens, items, List.filterMap_cons]
  cases piece.item? <;> rfl

/-- The stream of a source lists the items of its pieces. -/
lemma exists_cut_of_tokensFrom (p : Position) (source : Text) :
    ∃ pieces, Cut source pieces ∧ Source.tokensFrom p source = pieces.filterMap Piece.item? := by
  induction p, source using Piece.induction with
  | nil p => exact ⟨[], .nil, rfl⟩
  | cons p piece rest leads ih =>
    obtain ⟨pieces, cut, items⟩ := ih
    exact ⟨piece :: pieces, .cons leads.fits cut, leads.tokensFrom_eq items⟩

lemma Cut.exists_fits {source : Text} {pieces : List Piece} (h : Cut source pieces) :
    ∀ piece ∈ pieces, ∃ rest, piece.Fits rest := by
  induction h with
  | nil => exact List.forall_mem_nil _
  | cons fits _ ih => exact List.forall_mem_cons.mpr ⟨⟨_, fits⟩, ih⟩

lemma Kind.Admits.ne {k : Kind} {w : Text} (h : k.Admits w) : k ≠ .eof ∧ k ≠ .unrecognized := by
  constructor
  · rintro rfl
    exact h
  · rintro rfl
    exact h

/-- Tokens and strays are told apart by their kind. -/
lemma Piece.Fits.filter_item? {piece : Piece} {rest : Text} (h : piece.Fits rest) :
    piece.item?.filter (·.kind ≠ .unrecognized) = piece.token? ∧
      piece.item?.filter (·.kind = .unrecognized) = piece.stray? := by
  cases piece with
  | blanks w => exact ⟨rfl, rfl⟩
  | token t => simp [item?, token?, stray?, h.1.ne]
  | stray t => simp [item?, token?, stray?, h.1]

lemma Cut.filter_items {source : Text} {pieces : List Piece} (h : Cut source pieces) :
    (pieces.filterMap Piece.item?).filter (·.kind ≠ .unrecognized) =
        pieces.filterMap Piece.token? ∧
      (pieces.filterMap Piece.item?).filter (·.kind = .unrecognized) =
        pieces.filterMap Piece.stray? := by
  have each : ∀ piece ∈ pieces, piece.item?.filter (·.kind ≠ .unrecognized) = piece.token? ∧
      piece.item?.filter (·.kind = .unrecognized) = piece.stray? := by
    intro piece mem
    obtain ⟨rest, fits⟩ := h.exists_fits piece mem
    exact fits.filter_item?
  simp only [List.filter_filterMap]
  exact ⟨List.filterMap_congr fun piece mem => (each piece mem).1,
    List.filterMap_congr fun piece mem => (each piece mem).2⟩

/-- Every source is made of pieces that are of their classes and as long as they can be, and
reading it under the skipping policy gives its tokens and its strays in order. -/
theorem exists_cut (source : Text) : ∃ pieces, Cut source pieces ∧
    pieces.flatMap Piece.text = source ∧ (∀ piece ∈ pieces, piece.text ≠ []) ∧
    readTokens .skip source =
      .ok (pieces.filterMap Piece.token?, pieces.filterMap Piece.stray?) ∧
    ∀ t ∈ pieces.filterMap Piece.token?, t.kind ≠ .eof ∧ t.kind ≠ .unrecognized := by
  obtain ⟨pieces, cut, items⟩ := exists_cut_of_tokensFrom .start source
  have stream : Source.stream source = pieces.filterMap Piece.item? := items
  have read : readTokens .skip source =
      .ok (pieces.filterMap Piece.token?, pieces.filterMap Piece.stray?) := by
    rw [readTokens_skip, stream, cut.filter_items.1, cut.filter_items.2]
  refine ⟨pieces, cut, cut.text, ?_, read, fun t ht => (admits_of_mem_tokens read t ht).ne⟩
  intro piece mem
  obtain ⟨rest, fits⟩ := cut.exists_fits piece mem
  exact fits.text_ne_nil

end ThreeAddress
