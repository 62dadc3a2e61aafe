import Mathlib.Tactic.Lemma
import ThreeAddress.Source.Reader

/-!
# The lexemes of each kind of token

A token that was read from a source has a lexeme of the class that belongs to its kind.
The class follows from the shape of the segment: how it begins and what it goes on with.
-/

namespace ThreeAddress

/-- A letter and then letters and digits. -/
def IsWord (w : Text) : Prop :=
  ∃ b rest, w = b :: rest ∧ isLetter b ∧ ∀ c ∈ rest, isLetter c ∨ isDigit c

/-- One or more digits. -/
def IsNumeral (w : Text) : Prop := w ≠ [] ∧ ∀ b ∈ w, isDigit b

instance : DecidablePred IsNumeral := fun _ => inferInstanceAs (Decidable (_ ∧ _))

/-- The class of lexemes that belongs to a kind. The kinds that no source has admit none. -/
def Kind.Admits : Kind → Text → Prop
  | .keyword, w => w ∈ reserved
  | .identifier, w => IsWord w ∧ w ∉ reserved
  | .number, w => IsNumeral w
  | .assignOp, w => w = "="
  | .semicolon, w => w = ";"
  | .operator, w => w = "+" ∨ w = "-" ∨ w = "*" ∨ w = "/"
  | .comparator, w => w = "<" ∨ w = ">"
  | .leftParen, w => w = "("
  | .rightParen, w => w = ")"
  | .leftBrace, w => w = "\x7b"
  | .rightBrace, w => w = "\x7d"
  | _, _ => False

lemma not_isNumeral_of_isWord {w : Text} (h : IsWord w) : ¬ IsNumeral w := by
  obtain ⟨b, rest, rfl, letter, _⟩ := h
  intro numeral
  have digit := numeral.2 b List.mem_cons_self
  simp only [isLetter, isDigit, Bool.or_eq_true, Bool.and_eq_true, decide_eq_true_eq,
    beq_iff_eq, UInt8.le_iff_toNat_le, ← UInt8.toNat_inj] at letter digit
  simp at letter digit
  omega

namespace Shape

lemma goesOn_word {g : Glyph} (h : word.goesOn g) :
    ∃ b, g.bytes = [b] ∧ (isLetter b ∨ isDigit b) := by
  unfold goesOn at h
  split at h <;> simp_all

lemma goesOn_number {g : Glyph} (h : number.goesOn g) : ∃ b, g.bytes = [b] ∧ isDigit b := by
  unfold goesOn at h
  split at h <;> simp_all

lemma goesOn_mark (k : Kind) (g : Glyph) : (mark k).goesOn g = false := rfl

/-- What the first character of a segment of this shape is. -/
def Begins : Shape → Glyph → Prop
  | word, g => ∃ b, g.bytes = [b] ∧ isLetter b
  | number, g => ∃ b, g.bytes = [b] ∧ isDigit b
  | blank, g => ∃ b, g.bytes = [b] ∧ isBlank b
  | mark k, g => ∃ b, g.bytes = [b] ∧ markKind? b = some k
  | unknown, _ => True

lemma begins_startingWith (g : Glyph) : (startingWith g).Begins g := by
  unfold startingWith
  split
  · rename_i b hb
    split
    · rename_i letter
      exact ⟨b, hb, letter⟩
    split
    · rename_i digit
      exact ⟨b, hb, digit⟩
    split
    · rename_i space
      exact ⟨b, hb, space⟩
    split
    · rename_i k hk
      exact ⟨b, hb, hk⟩
    · trivial
  · trivial

end Shape

namespace Segment

/-- A segment begins as its shape says and goes on as its shape allows. -/
structure Formed (s : Segment) : Prop where
  begins : ∃ g more, s.glyphs = g :: more ∧ s.shape.Begins g ∧ ∀ h ∈ more, s.shape.goesOn h

lemma goesOn_of_mem_cut {s : Shape} {gs : List Glyph} :
    ∀ g ∈ (cut s gs).1, s.goesOn g := by
  induction gs with
  | nil => simp [cut]
  | cons g gs ih =>
    by_cases h : s.goesOn g
    · simpa [cut, h] using ih
    · simp [cut, h]

lemma formed_of_mem_cut {s : Shape} {gs : List Glyph} :
    ∀ segment ∈ (cut s gs).2, segment.Formed := by
  induction gs generalizing s with
  | nil => simp [cut]
  | cons g gs ih =>
    by_cases h : s.goesOn g
    · simpa [cut, h] using ih
    · simp only [cut, h, Bool.false_eq_true, if_false, List.forall_mem_cons]
      exact ⟨⟨g, _, rfl, Shape.begins_startingWith g, goesOn_of_mem_cut⟩, ih⟩

lemma formed_of_mem_ofGlyphs {gs : List Glyph} : ∀ segment ∈ ofGlyphs gs, segment.Formed :=
  formed_of_mem_cut

lemma mem_ofGlyphs {c : UInt8} {gs : List Glyph} (h : c ∈ Text.ofGlyphs gs) :
    ∃ g ∈ gs, c ∈ g.bytes :=
  List.mem_flatMap.mp h

lemma isWord_lexeme {s : Segment} (formed : s.Formed) (h : s.shape = .word) :
    IsWord s.lexeme := by
  obtain ⟨g, more, hg, first, rest⟩ := formed.begins
  rw [h] at first rest
  obtain ⟨b, hb, letter⟩ := first
  refine ⟨b, Text.ofGlyphs more, by simp [lexeme, hg, hb], letter, ?_⟩
  intro c hc
  obtain ⟨k, hk, mem⟩ := mem_ofGlyphs hc
  obtain ⟨d, hd, goes⟩ := Shape.goesOn_word (rest k hk)
  rw [hd, List.mem_singleton] at mem
  exact mem ▸ goes

lemma isNumeral_lexeme {s : Segment} (formed : s.Formed) (h : s.shape = .number) :
    IsNumeral s.lexeme := by
  obtain ⟨g, more, hg, first, rest⟩ := formed.begins
  rw [h] at first rest
  obtain ⟨b, hb, digit⟩ := first
  have same : s.lexeme = b :: Text.ofGlyphs more := by simp [lexeme, hg, hb]
  rw [same]
  refine ⟨List.cons_ne_nil _ _, List.forall_mem_cons.mpr ⟨digit, ?_⟩⟩
  intro c hc
  obtain ⟨k, hk, mem⟩ := mem_ofGlyphs hc
  obtain ⟨d, hd, goes⟩ := Shape.goesOn_number (rest k hk)
  rw [hd, List.mem_singleton] at mem
  exact mem ▸ goes

lemma markKind?_lexeme {s : Segment} {k : Kind} (formed : s.Formed) (h : s.shape = .mark k) :
    ∃ b, s.lexeme = [b] ∧ markKind? b = some k := by
  obtain ⟨g, more, hg, first, rest⟩ := formed.begins
  rw [h] at first rest
  obtain ⟨b, hb, hk⟩ := first
  have alone : more = [] := by
    cases more with
    | nil => rfl
    | cons a more => exact absurd (rest a List.mem_cons_self) (by simp [Shape.goesOn_mark])
  exact ⟨b, by simp [lexeme, hg, hb, alone], hk⟩

end Segment

lemma admits_of_markKind? {b : UInt8} {k : Kind} (h : markKind? b = some k) : k.Admits [b] := by
  unfold markKind? at h
  iterate 2
    split at h
    · rename_i hb
      cases h
      subst hb
      rfl
  split at h
  · rename_i hb
    cases h
    rcases hb with rfl | rfl | rfl | rfl <;> simp only [Kind.Admits] <;> decide
  split at h
  · rename_i hb
    cases h
    rcases hb with rfl | rfl <;> simp only [Kind.Admits] <;> decide
  iterate 4
    split at h
    · rename_i hb
      cases h
      subst hb
      rfl
  cases h

lemma admits_ofWord {w : Text} (h : IsWord w) : (Kind.ofWord w).Admits w := by
  unfold Kind.ofWord
  split
  · rename_i mem
    exact mem
  · rename_i notMem
    exact ⟨h, notMem⟩

/-- The kind of a segment admits its lexeme, unless the segment has no meaning. -/
lemma Segment.admits_of_kind? {s : Segment} {k : Kind} (formed : s.Formed)
    (h : s.kind? = some k) (known : k ≠ .unrecognized) : k.Admits s.lexeme := by
  unfold kind? at h
  split at h
  · rename_i hs
    cases h
    exact admits_ofWord (isWord_lexeme formed hs)
  · rename_i hs
    cases h
    exact isNumeral_lexeme formed hs
  · cases h
  · rename_i hs
    cases h
    obtain ⟨b, hb, hk⟩ := markKind?_lexeme formed hs
    rw [hb]
    exact admits_of_markKind? hk
  · cases h
    exact absurd rfl known

lemma exists_segment_of_mem_tokensAt {p : Position} {segments : List Segment} {t : Token}
    (h : t ∈ Source.tokensAt p segments) :
    ∃ s ∈ segments, s.kind? = some t.kind ∧ s.lexeme = t.lexeme := by
  induction segments generalizing p with
  | nil => cases h
  | cons s rest ih =>
    unfold Source.tokensAt at h
    split at h
    · rename_i k hk
      rcases List.mem_cons.mp h with rfl | later
      · exact ⟨s, List.mem_cons_self, hk, rfl⟩
      · obtain ⟨s', mem, hs'⟩ := ih later
        exact ⟨s', List.mem_cons_of_mem s mem, hs'⟩
    · obtain ⟨s', mem, hs'⟩ := ih h
      exact ⟨s', List.mem_cons_of_mem s mem, hs'⟩

end ThreeAddress
