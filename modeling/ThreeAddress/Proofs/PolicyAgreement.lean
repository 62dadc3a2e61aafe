import ThreeAddress.Proofs.Positions
import ThreeAddress.Proofs.SourceForm

/-!
# The policies agree

Both policies find the same tokens and the same strays. They part at the first stray only, which
the one passes over and the other reports. A space in place of each stray is as good as passing
over it: the text may become shorter, but every token keeps its line and its column
(`Source.tokensFrom_cleared`), since a stray never ends a line and counts as one character.
-/

namespace ThreeAddress

/-- The byte put in the place of a stray. -/
def Text.space : UInt8 := 0x20

namespace Glyph

/-- No segment with a meaning begins at the character. -/
def IsStray (g : Glyph) : Prop := Shape.startingWith g = .unknown

instance : DecidablePred IsStray := fun _ => inferInstanceAs (Decidable (_ = _))

/-- A space in place of a stray, and any other character as it is. -/
def cleared (g : Glyph) : Glyph := if g.IsStray then .byte Text.space else g

end Glyph

namespace Text

/-- The text with a space in place of each stray. -/
def cleared (t : Text) : Text := ofGlyphs (t.glyphs.map Glyph.cleared)

example : cleared (utf8 "a@1 é" ++ [0xC3]) = "a 1   " := by decide

lemma cleared_append {a b : Text} (apart : (a ++ b).glyphs = a.glyphs ++ b.glyphs) :
    (a ++ b).cleared = a.cleared ++ b.cleared := by
  simp [cleared, apart]

lemma cleared_eq_self {t : Text} (known : ∀ g ∈ t.glyphs, ¬ g.IsStray) : t.cleared = t := by
  have same : t.glyphs.map Glyph.cleared = t.glyphs :=
    (List.map_congr_left fun g hg => if_neg (known g hg)).trans (List.map_id _)
  rw [cleared, same, ofGlyphs_glyphs]

/-- A cleared text begins as before, or with a space. -/
lemma head?_cleared {t : Text} : ∀ b ∈ t.cleared.head?, b = space ∨ b ∈ t.head? := by
  intro b hb
  cases t with
  | nil => exact Or.inr hb
  | cons a r =>
    rw [cleared, glyphs_cons, List.map_cons, ofGlyphs_cons, Glyph.cleared] at hb
    split at hb
    · exact Or.inl (Option.some.inj hb).symm
    · exact Or.inr hb

end Text

/-! Of the pieces of a source, just the strays are made of strays. -/

/-- The byte belongs to some class of segments. -/
def HasMeaning (b : UInt8) : Prop :=
  isLetter b ∨ isDigit b ∨ isBlank b ∨ (markKind? b).isSome

lemma HasMeaning.not_isStray {b : UInt8} (h : HasMeaning b) :
    b.toNat < 0x80 ∧ ¬ (Glyph.byte b).IsStray := by
  have other {s : Shape} (begins : Shape.startingWith (.byte b) = s) (known : s ≠ .unknown) :
      ¬ (Glyph.byte b).IsStray := fun stray => known (begins.symm.trans stray)
  rcases h with letter | digit | blank | mark
  · exact ⟨toNat_lt_of_isLetter letter, other (Shape.startingWith_letter letter) (by simp)⟩
  · exact ⟨toNat_lt_of_isDigit digit, other (Shape.startingWith_digit digit) (by simp)⟩
  · exact ⟨(of_isBlank blank).1, other (Shape.startingWith_blank blank) (by simp)⟩
  · obtain ⟨k, hk⟩ := Option.isSome_iff_exists.mp mark
    exact ⟨(of_markKind? hk).1, other (Shape.startingWith_mark hk) (by simp)⟩

lemma not_isStray_of_hasMeaning {w : Text} (h : ∀ b ∈ w, HasMeaning b) :
    ∀ g ∈ w.glyphs, ¬ g.IsStray := by
  intro g hg
  rw [Text.glyphs_of_ascii fun b hb => (h b hb).not_isStray.1] at hg
  obtain ⟨b, hb, rfl⟩ := List.mem_map.mp hg
  exact (h b hb).not_isStray.2

/-- A lexeme of any class is made of letters, digits and marks. -/
lemma Kind.Admits.forall_mem {k : Kind} {w : Text} (h : k.Admits w) :
    ∀ b ∈ w, isLetter b ∨ isDigit b ∨ (markKind? b).isSome := by
  intro b hb
  have word (isWord : IsWord w) : isLetter b ∨ isDigit b ∨ (markKind? b).isSome := by
    rcases isWord.forall_mem b hb with letter | digit
    · exact Or.inl letter
    · exact Or.inr (Or.inl digit)
  by_cases keyword : k = .keyword
  · subst keyword
    exact word (isWord_of_mem_reserved h)
  by_cases identifier : k = .identifier
  · subst identifier
    exact word h.1
  by_cases number : k = .number
  · subst number
    exact Or.inr (Or.inl (h.2 b hb))
  obtain ⟨c, rfl, mark⟩ := h.exists_mark keyword identifier number
  cases List.mem_singleton.mp hb
  exact Or.inr (Or.inr (Option.isSome_of_mem mark))

lemma Kind.Admits.hasMeaning {k : Kind} {w : Text} (h : k.Admits w) : ∀ b ∈ w, HasMeaning b := by
  intro b hb
  rcases h.forall_mem b hb with letter | digit | mark
  · exact Or.inl letter
  · exact Or.inr (Or.inl digit)
  · exact Or.inr (Or.inr (Or.inr mark))

namespace Piece.Fits

variable {rest : Text}

lemma not_isStray_blanks {w : Text} (h : (blanks w).Fits rest) : ∀ g ∈ w.glyphs, ¬ g.IsStray :=
  not_isStray_of_hasMeaning fun b hb => Or.inr (Or.inr (Or.inl (h.2.1 b hb)))

lemma not_isStray_token {t : Token} (h : (token t).Fits rest) :
    ∀ g ∈ t.lexeme.glyphs, ¬ g.IsStray :=
  not_isStray_of_hasMeaning h.1.hasMeaning

/-- A stray is one character, and not a newline. -/
lemma isStray_stray {t : Token} (h : (stray t).Fits rest) :
    t.lexeme.glyphs = [⟨t.lexeme⟩] ∧ Glyph.IsStray ⟨t.lexeme⟩ ∧ t.lexeme ≠ [Text.newline] := by
  obtain ⟨a, v, lexeme, letter, digit, blank, mark⟩ := exists_cons_of_fits_stray h
  refine ⟨Text.glyphs_self h.2.1, ?_, ?_⟩
  · rw [lexeme]
    exact Shape.startingWith_stray letter digit blank mark
  · intro newline
    rw [lexeme] at newline
    cases newline
    exact blank (by decide)

end Piece.Fits

/-! Reading a cleared text. -/

section Clearing

variable {p : Position} {rest : Text}

lemma Kind.not_goesOn_of_isBlank (k : Kind) {b : UInt8} (h : isBlank b) : ¬ k.goesOn b := by
  obtain ⟨_, letter, digit⟩ := of_isBlank h
  cases k <;> simp [goesOn, letter, digit]

/-- A token ends in front of a cleared text where it ended before. -/
lemma Piece.Fits.cleared {t : Token} (h : (token t).Fits rest) : (token t).Fits rest.cleared := by
  refine ⟨h.1, ?_⟩
  intro b hb goes
  rcases Text.head?_cleared b hb with rfl | same
  · exact t.kind.not_goesOn_of_isBlank (by decide) goes
  · exact h.2 b same goes

/-- The first piece of a text, cleared. Strays become blanks, and all else stays. -/
lemma Piece.Leads.tokensFrom_cleared {piece : Piece} (h : piece.Leads p rest) :
    Source.tokensFrom p (piece.text.cleared ++ rest.cleared) = piece.token?.toList ++
      Source.tokensFrom (p.after piece.text.glyphs) rest.cleared := by
  obtain ⟨fits, place, _⟩ := h
  cases piece with
  | blanks w =>
    have single := Text.glyphs_of_ascii fun b hb => (of_isBlank (fits.2.1 b hb)).1
    rw [text, Text.cleared_eq_self fits.not_isStray_blanks, Source.tokensFrom_blanks p fits.2.1,
      single]
    rfl
  | token t =>
    rw [text, Text.cleared_eq_self fits.not_isStray_token]
    exact (fits.cleared.leads place).detaches.tokens
  | stray t =>
    obtain ⟨single, stray, newline⟩ := fits.isStray_stray
    have cleared : t.lexeme.cleared = [Text.space] := by
      simp [Text.cleared, single, Glyph.cleared, stray, Glyph.byte]
    have step : p.step (.byte Text.space) = p.step ⟨t.lexeme⟩ := by
      rw [Position.step, if_neg (by decide), Position.step, if_neg newline]
    rw [text, cleared, List.singleton_append, Source.tokensFrom_blank p (by decide), step, single]
    rfl

/-- Clearing a text takes the strays out of its stream and leaves the tokens in their places. -/
lemma Source.tokensFrom_cleared (p : Position) (source : Text) :
    tokensFrom p source.cleared = (tokensFrom p source).filter (·.kind ≠ .unrecognized) := by
  induction p, source using Piece.induction with
  | nil p => rfl
  | cons p piece rest leads ih =>
    have kept : piece.item?.toList.filter (·.kind ≠ .unrecognized) = piece.token?.toList := by
      rw [← leads.fits.filter_item?.1]
      exact Option.toList_filter.symm
    rw [Text.cleared_append leads.detaches.glyphs, leads.tokensFrom_cleared, ih,
      leads.detaches.tokens, List.filter_append, kept]

/-- The strays of a stream are the characters that clearing replaces. -/
lemma Source.lexemes_strays (p : Position) (source : Text) :
    ((tokensFrom p source).filter (·.kind = .unrecognized)).map Token.lexeme =
      (source.glyphs.filter (·.IsStray)).map Glyph.bytes := by
  induction p, source using Piece.induction with
  | nil p => rfl
  | cons p piece rest leads ih =>
    have first : (piece.item?.toList.filter (·.kind = .unrecognized)).map Token.lexeme =
        (piece.text.glyphs.filter (·.IsStray)).map Glyph.bytes := by
      have fits := leads.fits
      cases piece with
      | blanks w =>
        have none : w.glyphs.filter (·.IsStray) = [] :=
          List.filter_eq_nil_iff.mpr (by simpa using fits.not_isStray_blanks)
        simp [Piece.item?, Piece.text, none]
      | token t =>
        have none : t.lexeme.glyphs.filter (·.IsStray) = [] :=
          List.filter_eq_nil_iff.mpr (by simpa using fits.not_isStray_token)
        simp [Piece.item?, Piece.text, none, fits.1.ne]
      | stray t =>
        obtain ⟨single, stray, _⟩ := fits.isStray_stray
        simp [Piece.item?, Piece.text, single, stray, fits.1]
    rw [leads.detaches.tokens, leads.detaches.glyphs, List.filter_append, List.filter_append,
      List.map_append, List.map_append, first, ih]

end Clearing

/-- Reading that skips always comes to an end. Reading that rejects gives the same tokens in the
same places if nothing was skipped, and else the error about the first character that was. What
is skipped are the strays of the source, and with a space in place of each of them both policies
read the tokens that skipping gave, in the same places, and have nothing to skip. -/
theorem policies_agree (source : Text) : ∃ tokens skipped,
    readTokens .skip source = .ok (tokens, skipped) ∧
    ((∃ read, readTokens .reject source = .ok read) ↔ skipped = []) ∧
    (skipped = [] → readTokens .reject source = .ok (tokens, [])) ∧
    (∀ t others, skipped = t :: others → readTokens .reject source = .error ⟨t⟩) ∧
    skipped.map Token.lexeme = (source.glyphs.filter (·.IsStray)).map Glyph.bytes ∧
    ∀ policy, readTokens policy source.cleared = .ok (tokens, []) := by
  have cleared : Source.stream source.cleared =
      (Source.stream source).filter (·.kind ≠ .unrecognized) :=
    Source.tokensFrom_cleared .start source
  refine ⟨_, _, readTokens_skip source, ⟨?_, ?_⟩, readTokens_reject_of_clean,
    fun t others => readTokens_of_stray rfl, Source.lexemes_strays .start source, ?_⟩
  · rintro ⟨read, accepted⟩
    cases strays : (Source.stream source).filter (·.kind = .unrecognized) with
    | nil => rfl
    | cons t others => cases (readTokens_of_stray rfl strays).symm.trans accepted
  · intro none
    exact ⟨_, readTokens_reject_of_clean none⟩
  · intro policy
    rw [← cleared]
    apply readTokens_of_known
    intro t mem
    rw [cleared] at mem
    simpa using (List.mem_filter.mp mem).2

end ThreeAddress
