import Mathlib.Data.List.TakeWhile
import Mathlib.Tactic.ByContra
import ThreeAddress.Proofs.Characters
import ThreeAddress.Proofs.Lexemes

/-!
# Scanning a source from the left

What stands at the left end of a source decides the first segment, and the tokens of the
rest follow: one equation for each sort of segment (`Source.tokensFrom_word` and so on).
Behind a text that ends with a blank or a mark reading begins anew, whatever that text is
(`Source.tokensFrom_append_of_endsApart`).
-/

namespace ThreeAddress

/-- A character of one byte. -/
def Glyph.byte (b : UInt8) : Glyph := ⟨[b]⟩

lemma Text.ofGlyphs_map_byte (w : Text) : ofGlyphs (w.map Glyph.byte) = w := by
  induction w with
  | nil => rfl
  | cons b w ih => rw [List.map_cons, ofGlyphs_cons, ih]; rfl

/-- Characters of one byte are cut off one by one. -/
lemma Text.glyphs_ascii {w : Text} (ascii : ∀ b ∈ w, b.toNat < 0x80) (rest : Text) :
    (w ++ rest).glyphs = w.map Glyph.byte ++ rest.glyphs := by
  induction w with
  | nil => rfl
  | cons b w ih =>
    obtain ⟨hb, hw⟩ := List.forall_mem_cons.mp ascii
    have first : IsFirst [b] (w ++ rest) := Or.inl (isCharacter_single hb)
    have cut := Text.glyphs_of_isFirst first
    rw [ih hw] at cut
    exact cut

lemma Text.glyphs_of_ascii {w : Text} (ascii : ∀ b ∈ w, b.toNat < 0x80) :
    w.glyphs = w.map Glyph.byte := by
  simpa using Text.glyphs_ascii ascii []

/-! The bytes that have a meaning are characters by themselves, and no byte has two. -/

section Bytes

variable {b : UInt8}

lemma toNat_lt_of_isLetter (h : isLetter b) : b.toNat < 0x80 := by
  simp only [isLetter, Bool.or_eq_true, Bool.and_eq_true, decide_eq_true_eq, beq_iff_eq,
    UInt8.le_iff_toNat_le, ← UInt8.toNat_inj] at h
  simp at h
  omega

lemma toNat_lt_of_isDigit (h : isDigit b) : b.toNat < 0x80 := by
  simp only [isDigit, Bool.and_eq_true, decide_eq_true_eq, UInt8.le_iff_toNat_le] at h
  simp at h
  omega

lemma not_isLetter_of_isDigit (h : isDigit b) : ¬ isLetter b := by
  intro letter
  have word : IsWord [b] := ⟨b, [], rfl, letter, by simp⟩
  exact not_isNumeral_of_isWord word ⟨by simp, by simpa using h⟩

/-- The blank bytes. -/
def blanks : List UInt8 := [0x09, 0x0A, 0x0C, 0x0D, 0x20]

lemma isBlank_iff : isBlank b ↔ b ∈ blanks := by
  simp [isBlank, blanks, or_assoc]

lemma of_isBlank (h : isBlank b) : b.toNat < 0x80 ∧ ¬ isLetter b ∧ ¬ isDigit b := by
  have all : ∀ b ∈ blanks, b.toNat < 0x80 ∧ ¬ isLetter b ∧ ¬ isDigit b := by decide +kernel
  exact all b (isBlank_iff.mp h)

/-- The bytes that are tokens by themselves. -/
def marks : List UInt8 :=
  [0x3D, 0x3B, 0x2B, 0x2D, 0x2A, 0x2F, 0x3C, 0x3E, 0x28, 0x29, 0x7B, 0x7D]

lemma mem_marks {k : Kind} (h : markKind? b = some k) : b ∈ marks := by
  by_contra absent
  simp only [marks, List.mem_cons, List.not_mem_nil, or_false, not_or] at absent
  simp [markKind?, absent] at h

lemma of_markKind? {k : Kind} (h : markKind? b = some k) :
    b.toNat < 0x80 ∧ ¬ isLetter b ∧ ¬ isDigit b ∧ ¬ isBlank b := by
  have all : ∀ b ∈ marks, b.toNat < 0x80 ∧ ¬ isLetter b ∧ ¬ isDigit b ∧ ¬ isBlank b := by
    decide +kernel
  exact all b (mem_marks h)

end Bytes

lemma IsWord.ne_nil {w : Text} (h : IsWord w) : w ≠ [] := by
  obtain ⟨b, v, rfl, _⟩ := h
  exact List.cons_ne_nil b v

lemma IsWord.forall_mem {w : Text} (h : IsWord w) : ∀ b ∈ w, isLetter b ∨ isDigit b := by
  obtain ⟨b, v, rfl, letter, others⟩ := h
  exact List.forall_mem_cons.mpr ⟨Or.inl letter, others⟩

lemma IsWord.ascii {w : Text} (h : IsWord w) : ∀ b ∈ w, b.toNat < 0x80 :=
  fun b hb => (h.forall_mem b hb).elim toNat_lt_of_isLetter toNat_lt_of_isDigit

lemma IsNumeral.ascii {w : Text} (h : IsNumeral w) : ∀ b ∈ w, b.toNat < 0x80 :=
  fun b hb => toNat_lt_of_isDigit (h.2 b hb)

/-! The ways in which a text begins. -/

lemma not_of_mem_head_dropWhile {α : Type} {f : α → Bool} {r : List α} :
    ∀ b ∈ (r.dropWhile f).head?, ¬ f b := by
  intro b hb
  have stops := List.head?_dropWhile_not f r
  rw [Option.mem_def.mp hb] at stops
  simpa using stops

/-- `w` is the first segment of `w ++ rest`. -/
inductive Leading : (w rest : Text) → Prop where
  | word {w rest : Text} (word : IsWord w)
      (stop : ∀ b ∈ rest.head?, ¬ (isLetter b ∨ isDigit b)) : Leading w rest
  | number {w rest : Text} (numeral : IsNumeral w) (stop : ∀ b ∈ rest.head?, ¬ isDigit b) :
      Leading w rest
  | blanks {w rest : Text} (nonempty : w ≠ []) (run : ∀ b ∈ w, isBlank b)
      (stop : ∀ b ∈ rest.head?, ¬ isBlank b) : Leading w rest
  | mark {b : UInt8} {k : Kind} {rest : Text} (mark : markKind? b = some k) : Leading [b] rest
  | stray {b : UInt8} {v rest : Text} (first : IsFirst (b :: v) rest) (letter : ¬ isLetter b)
      (digit : ¬ isDigit b) (blank : ¬ isBlank b) (mark : markKind? b = none) :
      Leading (b :: v) rest

lemma exists_leading (a : UInt8) (r : Text) :
    ∃ w rest, a :: r = w ++ rest ∧ Leading w rest := by
  have whole (f : UInt8 → Bool) : a :: r = a :: r.takeWhile f ++ r.dropWhile f := by
    rw [List.cons_append, List.takeWhile_append_dropWhile]
  by_cases letter : isLetter a
  · refine ⟨_, _, whole fun b => isLetter b || isDigit b, .word ⟨a, _, rfl, letter, ?_⟩ ?_⟩
    · exact fun b hb => by simpa using List.mem_takeWhile_imp hb
    · exact fun b hb => by simpa using not_of_mem_head_dropWhile b hb
  by_cases digit : isDigit a
  · have numeral : IsNumeral (a :: r.takeWhile isDigit) :=
      ⟨List.cons_ne_nil _ _, List.forall_mem_cons.mpr ⟨digit, fun _ => List.mem_takeWhile_imp⟩⟩
    exact ⟨_, _, whole isDigit, .number numeral not_of_mem_head_dropWhile⟩
  by_cases blank : isBlank a
  · have run : ∀ b ∈ a :: r.takeWhile isBlank, isBlank b :=
      List.forall_mem_cons.mpr ⟨blank, fun _ => List.mem_takeWhile_imp⟩
    exact ⟨_, _, whole isBlank, .blanks (List.cons_ne_nil _ _) run not_of_mem_head_dropWhile⟩
  cases mark : markKind? a with
  | some k => exact ⟨[a], r, rfl, .mark mark⟩
  | none =>
    obtain ⟨v, rest, whole, first⟩ := Text.exists_isFirst a r
    exact ⟨a :: v, rest, whole, .stray first letter digit blank mark⟩

namespace Segment

lemma ofGlyphs_cons (g : Glyph) (gs : List Glyph) :
    ofGlyphs (g :: gs) = ⟨.startingWith g, g :: (cut (.startingWith g) gs).1⟩ ::
      (cut (.startingWith g) gs).2 := by
  simp [ofGlyphs, cut, Shape.goesOn]

/-- An open segment takes the characters that it goes on with. -/
lemma cut_eq (s : Shape) (gs : List Glyph) :
    cut s gs = (gs.takeWhile s.goesOn, ofGlyphs (gs.dropWhile s.goesOn)) := by
  induction gs with
  | nil => rfl
  | cons g gs ih =>
    by_cases goes : s.goesOn g
    · simp [cut, goes, ih]
    · simp [cut, goes, ofGlyphs_cons]

/-- A segment ends where the next character does not go on with it. -/
lemma ofGlyphs_append {s : Shape} {g : Glyph} {more rest : List Glyph}
    (begins : .startingWith g = s) (inside : ∀ h ∈ more, s.goesOn h)
    (stop : ∀ h ∈ rest.head?, ¬ s.goesOn h) :
    ofGlyphs (g :: more ++ rest) = ⟨s, g :: more⟩ :: ofGlyphs rest := by
  have taken : rest.takeWhile s.goesOn = [] := by
    cases rest with
    | nil => rfl
    | cons h rest => simp [stop h rfl]
  have left : rest.dropWhile s.goesOn = rest := by
    cases rest with
    | nil => rfl
    | cons h rest => simp [stop h rfl]
  rw [List.cons_append, ofGlyphs_cons, begins, cut_eq, List.takeWhile_append_of_pos inside,
    List.dropWhile_append_of_pos inside, taken, left, List.append_nil]

end Segment

namespace Shape

variable {b : UInt8}

lemma startingWith_letter (h : isLetter b) : startingWith (.byte b) = word := by
  simp [startingWith, Glyph.byte, h]

lemma startingWith_digit (h : isDigit b) : startingWith (.byte b) = number := by
  simp [startingWith, Glyph.byte, h, not_isLetter_of_isDigit h]

lemma startingWith_blank (h : isBlank b) : startingWith (.byte b) = blank := by
  obtain ⟨_, noLetter, noDigit⟩ := of_isBlank h
  simp [startingWith, Glyph.byte, h, noLetter, noDigit]

lemma startingWith_mark {k : Kind} (h : markKind? b = some k) :
    startingWith (.byte b) = mark k := by
  obtain ⟨_, noLetter, noDigit, noBlank⟩ := of_markKind? h
  simp [startingWith, Glyph.byte, h, noLetter, noDigit, noBlank]

lemma startingWith_stray {v : Text} (letter : ¬ isLetter b) (digit : ¬ isDigit b)
    (blank : ¬ isBlank b) (mark : markKind? b = none) : startingWith ⟨b :: v⟩ = unknown := by
  cases v with
  | nil => simp [startingWith, letter, digit, blank, mark]
  | cons => rfl

lemma goesOn_blank {g : Glyph} (h : blank.goesOn g) : ∃ b, g.bytes = [b] ∧ isBlank b := by
  unfold goesOn at h
  split at h <;> simp_all

/-- Only characters of one byte go on with a segment. -/
lemma not_goesOn_head {s : Shape} {rest : Text} (stop : ∀ b ∈ rest.head?, ¬ s.goesOn (.byte b)) :
    ∀ g ∈ rest.glyphs.head?, ¬ s.goesOn g := by
  cases rest with
  | nil => simp
  | cons a r =>
    rw [Text.glyphs_cons]
    intro g hg
    cases hg
    cases r.take (Text.firstWidth (a :: r) - 1) with
    | nil => exact stop a rfl
    | cons b more => cases s <;> simp [goesOn]

end Shape

namespace Source

/-- The tokens of a text that stands at `p`. -/
def tokensFrom (p : Position) (t : Text) : List Token := tokensAt p (Segment.ofGlyphs t.glyphs)

/-- The first segment of a text, then the tokens of the rest. -/
lemma tokensFrom_append {s : Shape} {g : Glyph} {more : List Glyph} {w rest : Text} (p : Position)
    (cut : (w ++ rest).glyphs = g :: more ++ rest.glyphs) (begins : .startingWith g = s)
    (inside : ∀ h ∈ more, s.goesOn h) (stop : ∀ b ∈ rest.head?, ¬ s.goesOn (.byte b)) :
    tokensFrom p (w ++ rest) =
      tokensAt p [⟨s, g :: more⟩] ++ tokensFrom (p.after (g :: more)) rest := by
  rw [tokensFrom, cut, Segment.ofGlyphs_append begins inside (Shape.not_goesOn_head stop)]
  simp only [tokensAt, tokensFrom]
  split <;> rfl

/-- The same for a segment whose characters have one byte each. -/
lemma tokensFrom_run {s : Shape} {b : UInt8} {v rest : Text} (p : Position)
    (begins : .startingWith (.byte b) = s) (ascii : ∀ c ∈ b :: v, c.toNat < 0x80)
    (inside : ∀ c ∈ v, s.goesOn (.byte c)) (stop : ∀ c ∈ rest.head?, ¬ s.goesOn (.byte c)) :
    tokensFrom p (b :: v ++ rest) = tokensAt p [⟨s, (b :: v).map .byte⟩] ++
      tokensFrom (p.after ((b :: v).map .byte)) rest := by
  refine tokensFrom_append p (Text.glyphs_ascii ascii rest) begins ?_ stop
  intro g hg
  obtain ⟨c, hc, rfl⟩ := List.mem_map.mp hg
  exact inside c hc

lemma tokensFrom_word {w rest : Text} (p : Position) (h : IsWord w)
    (stop : ∀ b ∈ rest.head?, ¬ (isLetter b ∨ isDigit b)) :
    tokensFrom p (w ++ rest) =
      ⟨.ofWord w, w, p.line, p.column⟩ :: tokensFrom (p.after (w.map .byte)) rest := by
  have ascii := h.ascii
  obtain ⟨b, v, rfl, letter, others⟩ := h
  have goes (c : UInt8) : Shape.word.goesOn (.byte c) ↔ isLetter c ∨ isDigit c := by
    simp [Shape.goesOn, Glyph.byte]
  rw [tokensFrom_run p (Shape.startingWith_letter letter) ascii
    (fun c hc => (goes c).mpr (others c hc)) fun c hc hgoes => stop c hc ((goes c).mp hgoes)]
  simp [tokensAt, Segment.kind?, Text.ofGlyphs_map_byte, Glyph.byte]

lemma tokensFrom_number {w rest : Text} (p : Position) (h : IsNumeral w)
    (stop : ∀ b ∈ rest.head?, ¬ isDigit b) :
    tokensFrom p (w ++ rest) =
      ⟨.number, w, p.line, p.column⟩ :: tokensFrom (p.after (w.map .byte)) rest := by
  have ascii := h.ascii
  obtain ⟨nonempty, digits⟩ := h
  cases w with
  | nil => exact absurd rfl nonempty
  | cons b v =>
    obtain ⟨digit, others⟩ := List.forall_mem_cons.mp digits
    rw [tokensFrom_run p (Shape.startingWith_digit digit) ascii others stop]
    simp [tokensAt, Segment.kind?, Text.ofGlyphs_map_byte, Glyph.byte]

lemma tokensFrom_mark {b : UInt8} {k : Kind} (p : Position) (h : markKind? b = some k)
    (rest : Text) : tokensFrom p (b :: rest) =
      ⟨k, [b], p.line, p.column⟩ :: tokensFrom (p.step (.byte b)) rest := by
  have ascii : ∀ c ∈ [b], c.toNat < 0x80 := by simpa using (of_markKind? h).1
  have alone : tokensFrom p ([b] ++ rest) = tokensAt p [⟨.mark k, [.byte b]⟩] ++
      tokensFrom (p.after [.byte b]) rest :=
    tokensFrom_run p (Shape.startingWith_mark h) ascii (by simp) (by simp [Shape.goesOn])
  simpa [tokensAt, Segment.kind?, Glyph.byte] using alone

/-- Blanks that still go on make no tokens. -/
lemma tokensAt_dropWhile_blank (p : Position) (gs : List Glyph) :
    tokensAt (p.after (gs.takeWhile Shape.blank.goesOn))
      (Segment.ofGlyphs (gs.dropWhile Shape.blank.goesOn)) = tokensAt p (Segment.ofGlyphs gs) := by
  cases gs with
  | nil => rfl
  | cons g gs =>
    by_cases goes : Shape.blank.goesOn g
    · obtain ⟨c, hc, blank⟩ := Shape.goesOn_blank goes
      have begins : Shape.startingWith g = .blank := by
        obtain ⟨bytes⟩ := g
        cases hc
        exact Shape.startingWith_blank blank
      rw [Segment.ofGlyphs_cons, begins, Segment.cut_eq]
      simp [goes, tokensAt, Segment.kind?]
    · simp [goes]

/-- A blank makes no token, whether or not more blanks follow. -/
lemma tokensFrom_blank {b : UInt8} (p : Position) (h : isBlank b) (rest : Text) :
    tokensFrom p (b :: rest) = tokensFrom (p.step (.byte b)) rest := by
  have ascii : ∀ c ∈ [b], c.toNat < 0x80 := by simpa using (of_isBlank h).1
  have cut : Text.glyphs (b :: rest) = .byte b :: rest.glyphs := Text.glyphs_ascii ascii rest
  rw [tokensFrom, cut, Segment.ofGlyphs_cons, Shape.startingWith_blank h, Segment.cut_eq]
  exact tokensAt_dropWhile_blank _ _

lemma tokensFrom_blanks {w : Text} (p : Position) (run : ∀ b ∈ w, isBlank b) (rest : Text) :
    tokensFrom p (w ++ rest) = tokensFrom (p.after (w.map .byte)) rest := by
  induction w generalizing p with
  | nil => rfl
  | cons b w ih =>
    obtain ⟨blank, others⟩ := List.forall_mem_cons.mp run
    rw [List.cons_append, tokensFrom_blank p blank, ih _ others]
    rfl

lemma tokensFrom_stray {w rest : Text} (p : Position) (first : IsFirst w rest)
    (h : .startingWith ⟨w⟩ = Shape.unknown) :
    tokensFrom p (w ++ rest) =
      ⟨.unrecognized, w, p.line, p.column⟩ :: tokensFrom (p.step ⟨w⟩) rest := by
  have alone : tokensFrom p (w ++ rest) = tokensAt p [⟨.unknown, [⟨w⟩]⟩] ++
      tokensFrom (p.after [⟨w⟩]) rest :=
    tokensFrom_append p (Text.glyphs_of_isFirst first) h (by simp) (by simp [Shape.goesOn])
  simpa [tokensAt, Segment.kind?] using alone

end Source

/-! A text that ends with a blank or a mark is read by itself, whatever follows it. -/

/-- A byte with which no segment of letters or digits goes on. -/
def Separates (b : UInt8) : Prop := isBlank b ∨ (markKind? b).isSome

instance : DecidablePred Separates := fun _ => inferInstanceAs (Decidable (_ ∨ _))

lemma of_separates {b : UInt8} (h : Separates b) :
    b.toNat < 0x80 ∧ ¬ isLetter b ∧ ¬ isDigit b := by
  rcases h with blank | mark
  · exact of_isBlank blank
  · obtain ⟨k, hk⟩ := Option.isSome_iff_exists.mp mark
    obtain ⟨ascii, letter, digit, _⟩ := of_markKind? hk
    exact ⟨ascii, letter, digit⟩

/-- The text ends with a byte that separates it from any other. -/
def Text.EndsApart (w : Text) : Prop := ∃ b ∈ w.getLast?, Separates b

instance : DecidablePred Text.EndsApart := fun _ => inferInstanceAs (Decidable (∃ _ ∈ _, _))

lemma Text.EndsApart.of_append {v r : Text} (h : (v ++ r).EndsApart) : r = [] ∨ r.EndsApart := by
  rcases r.eq_nil_or_concat with rfl | ⟨r, b, rfl⟩
  · exact Or.inl rfl
  · exact Or.inr (by simpa [EndsApart, ← List.append_assoc] using h)

/-- Such a text does not end within a run of letters and digits. -/
lemma Text.EndsApart.ne_nil {v r : Text} (h : (v ++ r).EndsApart)
    (run : ∀ b ∈ v, isLetter b ∨ isDigit b) : r ≠ [] := by
  rintro rfl
  rw [List.append_nil] at h
  obtain ⟨b, last, separates⟩ := h
  obtain ⟨_, letter, digit⟩ := of_separates separates
  exact (run b (List.mem_of_mem_getLast? last)).elim letter digit

namespace Source

/-- In front of `rest`, the text `w` at `p` makes the tokens `ts` and no others. -/
structure Detaches (p : Position) (w : Text) (ts : List Token) (rest : Text) : Prop where
  glyphs : (w ++ rest).glyphs = w.glyphs ++ rest.glyphs
  tokens : tokensFrom p (w ++ rest) = ts ++ tokensFrom (p.after w.glyphs) rest

section Detaching

variable {p : Position} {w rest : Text} {ts : List Token}

lemma detaches_ascii (ascii : ∀ b ∈ w, b.toNat < 0x80)
    (tokens : tokensFrom p (w ++ rest) = ts ++ tokensFrom (p.after (w.map .byte)) rest) :
    Detaches p w ts rest := by
  have alone := Text.glyphs_of_ascii ascii
  exact ⟨alone ▸ Text.glyphs_ascii ascii rest, alone ▸ tokens⟩

lemma detaches_stray (first : IsFirst w rest) (h : .startingWith ⟨w⟩ = Shape.unknown) :
    Detaches p w [⟨.unrecognized, w, p.line, p.column⟩] rest := by
  have alone := Text.glyphs_self first
  exact ⟨alone ▸ Text.glyphs_of_isFirst first, alone ▸ tokensFrom_stray p first h⟩

/-- The first segment of a text that ends apart does not depend on what follows the text. -/
lemma exists_detaches (ends : w.EndsApart) (p : Position) :
    ∃ v r ts, w = v ++ r ∧ v ≠ [] ∧ ∀ rest, Detaches p v ts (r ++ rest) := by
  obtain ⟨b, last, separates⟩ := id ends
  cases w with
  | nil => cases last
  | cons a s =>
    obtain ⟨v, r, whole, leading⟩ := exists_leading a s
    rw [whole] at ends last ⊢
    cases leading with
    | word word stop =>
      obtain ⟨c, r, rfl⟩ := List.exists_cons_of_ne_nil (ends.ne_nil word.forall_mem)
      refine ⟨v, c :: r, [⟨.ofWord v, v, p.line, p.column⟩], rfl, word.ne_nil, fun rest => ?_⟩
      exact detaches_ascii word.ascii (tokensFrom_word p word stop)
    | number numeral stop =>
      have digits : ∀ b ∈ v, isLetter b ∨ isDigit b := fun b hb => Or.inr (numeral.2 b hb)
      obtain ⟨c, r, rfl⟩ := List.exists_cons_of_ne_nil (ends.ne_nil digits)
      refine ⟨v, c :: r, [⟨.number, v, p.line, p.column⟩], rfl, numeral.1, fun rest => ?_⟩
      exact detaches_ascii numeral.ascii (tokensFrom_number p numeral stop)
    | blanks nonempty run stop =>
      refine ⟨v, r, [], rfl, nonempty, fun rest => ?_⟩
      exact detaches_ascii (fun b hb => (of_isBlank (run b hb)).1) (tokensFrom_blanks p run _)
    | @mark b k _ mark =>
      refine ⟨[b], r, [⟨k, [b], p.line, p.column⟩], rfl, List.cons_ne_nil b [], fun rest => ?_⟩
      exact detaches_ascii (by simpa using (of_markKind? mark).1) (tokensFrom_mark p mark _)
    | @stray b v _ first letter digit blank mark =>
      refine ⟨b :: v, r, [⟨.unrecognized, b :: v, p.line, p.column⟩], rfl, first.ne_nil,
        fun rest => ?_⟩
      exact detaches_stray (first.append last (of_separates separates).1 rest)
        (Shape.startingWith_stray letter digit blank mark)

end Detaching

/-- Behind a text that ends apart reading begins anew. -/
lemma tokensFrom_append_of_endsApart {w : Text} (ends : w = [] ∨ w.EndsApart) (p : Position)
    (rest : Text) :
    tokensFrom p (w ++ rest) = tokensFrom p w ++ tokensFrom (p.after w.glyphs) rest := by
  induction length : w.length using Nat.strongRecOn generalizing w p with
  | ind n ih =>
    rcases ends with rfl | ends
    · rfl
    · obtain ⟨v, r, ts, rfl, nonempty, detaches⟩ := exists_detaches ends p
      have shorter : r.length < n := by
        have := List.length_pos_iff.mpr nonempty
        rw [List.length_append] at length
        omega
      have alone := detaches []
      rw [List.append_nil] at alone
      rw [List.append_assoc, (detaches rest).tokens, alone.tokens, alone.glyphs,
        Position.after_append, ih _ shorter ends.of_append _ rfl, List.append_assoc]

end Source
end ThreeAddress
