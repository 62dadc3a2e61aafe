import ThreeAddress.Proofs.Alike
import ThreeAddress.Proofs.Closed
import ThreeAddress.Proofs.PolicyAgreement

/-!
# Printed forms can be read back

Not every printed list of instructions or tokens shows what it was made from: a copy of `a + b`
prints as an addition does. But nothing that comes from a source has a blank in it. So a printed
list of this kind falls apart again into its lines, and each line into its words
(`Text.readBack_lines`), from which the instructions and, up to their places, the tokens are
restored. Different code or tokens can have one digest only if two texts do.
-/

namespace ThreeAddress

namespace Text

/-- No byte of the text is a blank. -/
def Solid (w : Text) : Prop := ∀ b ∈ w, ¬ isBlank b

instance : DecidablePred Solid := fun w => List.decidableBAll (fun b => ¬ isBlank b) w

lemma Solid.append {v w : Text} (hv : v.Solid) (hw : w.Solid) : Solid (v ++ w) :=
  List.forall_mem_append.mpr ⟨hv, hw⟩

/-- The words with a space between neighbours. -/
def spaced (ws : List Text) : Text := [space].intercalate ws

/-- The lines that were ended, without their ends. -/
def endedLines (t : Text) : List Text := (t.splitOn newline).dropLast

/-- What the lines of a text say, each read from its words. -/
def readBack {α : Type} (read : List Text → Option α) (t : Text) : List α :=
  t.endedLines.filterMap fun line => read (line.splitOn space)

/-- Some words, none of which has a blank. -/
structure Words (ws : List Text) : Prop where
  ne_nil : ws ≠ []
  solid : ∀ w ∈ ws, w.Solid

lemma Words.splitOn_spaced {ws : List Text} (h : Words ws) : (spaced ws).splitOn space = ws := by
  apply List.splitOn_intercalate space _ h.ne_nil
  intro w hw mem
  exact h.solid w hw space mem (by decide)

lemma newline_notMem_spaced {ws : List Text} (solid : ∀ w ∈ ws, w.Solid) :
    newline ∉ spaced ws := by
  have without (w : Text) (hw : w.Solid) : newline ∉ w := fun mem => hw newline mem (by decide)
  induction ws with
  | nil => exact List.not_mem_nil
  | cons w ws ih =>
    obtain ⟨first, others⟩ := List.forall_mem_cons.mp solid
    cases ws with
    | nil => simpa [spaced] using without w first
    | cons v ws =>
      rw [spaced, List.intercalate_cons_cons, List.mem_append, List.mem_append]
      rintro ((here | between) | later)
      · exact without w first here
      · exact absurd (List.mem_singleton.mp between) (by decide)
      · exact ih others later

lemma splitOn_lines {ts : List Text} (whole : ∀ t ∈ ts, newline ∉ t) :
    (lines ts).splitOn newline = ts ++ [[]] := by
  induction ts with
  | nil => rfl
  | cons t ts ih =>
    obtain ⟨first, others⟩ := List.forall_mem_cons.mp whole
    have none : ∀ b ∈ t, (b == newline) = false := by
      intro b hb
      rw [beq_eq_false_iff_ne]
      rintro rfl
      exact first hb
    have split : lines (t :: ts) = t ++ newline :: lines ts := by simp [lines, line]
    rw [split, List.cons_append, ← ih others]
    exact List.splitOnP_append_cons_of_forall_mem none newline (beq_self_eq_true _) (lines ts)

/-- Lines of words can be read back if words can. -/
lemma readBack_lines {α β : Type} {read : List Text → Option β} {words : α → List Text}
    {seen : α → β} {as : List α}
    (legible : ∀ a ∈ as, Words (words a) ∧ read (words a) = some (seen a)) :
    readBack read (lines (as.map fun a => spaced (words a))) = as.map seen := by
  have whole : ∀ t ∈ as.map fun a => spaced (words a), newline ∉ t := by
    intro t ht
    obtain ⟨a, ha, rfl⟩ := List.mem_map.mp ht
    exact newline_notMem_spaced (legible a ha).1.solid
  rw [readBack, endedLines, splitOn_lines whole, List.dropLast_concat, List.filterMap_map,
    ← List.filterMap_eq_map]
  apply List.filterMap_congr
  intro a ha
  obtain ⟨solid, same⟩ := legible a ha
  simp [solid.splitOn_spaced, same]

end Text

/-! No blank in what comes from a source. -/

lemma Kind.Admits.solid {k : Kind} {w : Text} (h : k.Admits w) : w.Solid := by
  intro b hb blank
  obtain ⟨_, noLetter, noDigit⟩ := of_isBlank blank
  rcases h.forall_mem b hb with letter | digit | mark
  · exact noLetter letter
  · exact noDigit digit
  · obtain ⟨k, hk⟩ := Option.isSome_iff_exists.mp mark
    exact (of_markKind? hk).2.2.2 blank

lemma IsWord.solid {w : Text} (h : IsWord w) : w.Solid := (admits_ofWord h).solid

lemma Kind.Admits.mem_known {k : Kind} {w : Text} (h : k.Admits w) : k ∈ known := by
  cases k with
  | other => exact h.elim
  | _ => decide

lemma isDigit_toUInt8 {c : Char} (h : c.isDigit) : isDigit c.toUInt8 := by
  obtain ⟨low, high, same⟩ := toNat_toUInt8_of_isDigit h
  simp only [isDigit, Bool.and_eq_true, decide_eq_true_eq, UInt8.le_iff_toNat_le, same]
  exact ⟨low, high⟩

/-- A temporary is named like a variable. -/
lemma isWord_temporary (n : Nat) : IsWord (temporary n) := by
  refine ⟨0x74, Text.ofNat n, rfl, by decide, ?_⟩
  intro b hb
  obtain ⟨c, hc, rfl⟩ := List.mem_map.mp hb
  exact Or.inr (isDigit_toUInt8 (Nat.isDigit_of_mem_toDigits (by omega) (by omega) hc))

/-! Instructions. -/

namespace Instruction

/-- The words that an instruction is printed as. -/
def words (i : Instruction) : List Text :=
  if i.op = .copy then [i.dest, "=", i.left] else [i.dest, "=", i.left, i.op.symbol, i.right]

/-- The instruction with these words. -/
def ofWords? : List Text → Option Instruction
  | [dest, _, value] => some (.copy dest value)
  | [dest, _, left, symbol, right] =>
    (Op.ofSymbol? symbol).map fun op => ⟨dest, op, left, right⟩
  | _ => none

lemma text_eq_spaced (i : Instruction) : i.text = Text.spaced i.words := by
  have equals : utf8 " = " = [Text.space] ++ utf8 "=" ++ [Text.space] := by decide
  have gap : utf8 " " = [Text.space] := by decide
  obtain ⟨dest, op, left, right⟩ := i
  cases op <;> simp [text, words, Text.spaced, List.intercalate, equals, gap]

/-- A copy of one operand or a known operation on two, none of which has a blank. -/
structure Legible (i : Instruction) : Prop where
  op : i.op = .copy ∧ i.right = [] ∨ i.op ∈ Op.binary
  dest : i.dest.Solid
  left : i.left.Solid
  right : i.right.Solid

lemma Legible.words {i : Instruction} (h : i.Legible) : Text.Words i.words := by
  have symbol : i.op.symbol.Solid := by
    have all : ∀ op ∈ Op.copy :: Op.binary, op.symbol.Solid := by decide +kernel
    apply all
    rcases h.op with ⟨copy, _⟩ | binary
    · exact copy ▸ List.mem_cons_self
    · exact List.mem_cons_of_mem _ binary
  have equals : Text.Solid "=" := by decide
  unfold Instruction.words
  split
  · exact ⟨by simp, by simpa using ⟨h.dest, equals, h.left⟩⟩
  · exact ⟨by simp, by simpa using ⟨h.dest, equals, h.left, symbol, h.right⟩⟩

lemma Legible.ofWords?_words {i : Instruction} (h : i.Legible) : ofWords? i.words = some i := by
  obtain ⟨dest, op, left, right⟩ := i
  rcases h.op with ⟨rfl, rfl⟩ | binary
  · rfl
  · have operation : op ≠ .copy := fun copy => Op.copy_notMem_binary (copy ▸ binary)
    have symbol := Op.ofSymbol?_symbol binary
    simp [Instruction.words, ofWords?, operation, symbol]

end Instruction

/-- Legible code is restored from its text. -/
lemma Code.readBack_text {c : Code} (h : ∀ i ∈ c.instructions, i.Legible) :
    c.text.readBack Instruction.ofWords? = c.instructions := by
  have printed : c.text = Text.lines (c.instructions.map fun i => Text.spaced i.words) :=
    congrArg Text.lines (List.map_congr_left fun i _ => i.text_eq_spaced)
  rw [printed, Text.readBack_lines fun i hi => ⟨(h i hi).words, (h i hi).ofWords?_words⟩,
    List.map_id']

-- Other code need not be: here a space within an operand passes for one between words.
example : (Instruction.copy "x" "a + b").text = Instruction.text ⟨"x", .add, "a", "b"⟩ := by decide

/-- A copy has no right operand. -/
lemma Action.right_eq_nil_of_mem_emitAll (n : Nat) (as : List Action) :
    ∀ i ∈ (emitAll n as).instructions, i.op = .copy → i.right = [] := by
  induction as generalizing n with
  | nil => exact List.forall_mem_nil _
  | cons a as ih =>
    rw [emitAll, Code.instructions_append, List.forall_mem_append]
    refine ⟨?_, ih _⟩
    cases a with
    | assign id value =>
      rw [emit, Code.instructions_append, List.forall_mem_append]
      constructor
      · intro i hi copy
        exact absurd copy (Expr.op_ne_copy_of_mem_emit i hi)
      · exact List.forall_mem_singleton.mpr fun _ => rfl
    | leaveOut token => exact List.forall_mem_nil _

namespace Accepted

variable {c : Compiled}

lemma solid_of_declared (h : Accepted c) {name : Text} (declared : ∃ s ∈ c.symbols, s.name = name) :
    name.Solid := by
  obtain ⟨t, ht, _, rfl⟩ := (h.exists_symbol_iff name).mp declared
  exact (h.admitted t ht).solid

/-- Names and numbers are lexemes of the source, and temporaries are words. -/
lemma solid_of_readable (h : Accepted c) {ready : Nat} {o : Text}
    (readable : Readable (fun o => ∃ s ∈ c.symbols, s.name = o)
      (fun o => ∃ t ∈ c.tokens, t.kind = .number ∧ t.lexeme = o) ready o) : o.Solid := by
  rcases readable with ⟨t, ht, _, rfl⟩ | declared | ⟨i, _, rfl⟩
  · exact (h.admitted t ht).solid
  · exact h.solid_of_declared declared
  · exact (isWord_temporary i).solid

lemma legible (h : Accepted c) : ∀ i ∈ c.code.instructions, i.Legible := by
  intro i hi
  obtain ⟨k, here⟩ := List.mem_iff_getElem?.mp hi
  have fits := h.closed.fits k i here
  have left := h.solid_of_readable fits.left
  rcases fits.dest with ⟨copy, declared⟩ | ⟨binary, dest⟩
  · have right : i.right = [] := by
      rw [h.code_eq_actions] at hi
      exact Action.right_eq_nil_of_mem_emitAll 0 _ i hi copy
    refine ⟨Or.inl ⟨copy, right⟩, h.solid_of_declared declared, left, ?_⟩
    rw [right]
    exact List.forall_mem_nil _
  · refine ⟨Or.inr binary, ?_, left, h.solid_of_readable (fits.right binary)⟩
    rw [dest]
    exact (isWord_temporary _).solid

end Accepted

/-! Tokens. -/

namespace Token

/-- The words that a token is printed as. -/
def words (t : Token) : List Text := ["(" ++ t.kind.name ++ ",", t.lexeme ++ ")"]

/-- The token with these words, at no place. -/
def ofWords? : List Text → Option Token
  | [kind, lexeme] => some ⟨.ofName (kind.drop 1).dropLast, lexeme.dropLast, 0, 0⟩
  | _ => none

lemma text_eq_spaced (t : Token) : t.text = Text.spaced t.words := by
  have comma : utf8 ", " = utf8 "," ++ [Text.space] := by decide
  simp [text, words, Text.spaced, List.intercalate, comma]

variable {t : Token}

lemma words_of_admits (h : t.kind.Admits t.lexeme) : Text.Words t.words := by
  have name : t.kind.name.Solid := by
    have all : ∀ k ∈ Kind.known, k.name.Solid := by decide +kernel
    exact all t.kind h.mem_known
  have opening : Text.Solid "(" := by decide
  have comma : Text.Solid "," := by decide
  have closing : Text.Solid ")" := by decide
  refine ⟨by simp [words], ?_⟩
  simp only [words, List.forall_mem_cons]
  exact ⟨(opening.append name).append comma, h.solid.append closing, List.forall_mem_nil _⟩

lemma ofWords?_words (h : t.kind.Admits t.lexeme) : ofWords? t.words = some t.unplaced := by
  have kind : ((utf8 "(" ++ t.kind.name ++ utf8 ",").drop 1).dropLast = t.kind.name :=
    List.dropLast_concat
  have lexeme : (t.lexeme ++ utf8 ")").dropLast = t.lexeme := List.dropLast_concat
  rw [words, ofWords?, kind, lexeme, Kind.ofName_name h.mem_known]
  rfl

/-- The tokens of a source are restored from their listing, up to their places. -/
lemma readBack_listing {ts : List Token} (admitted : ∀ t ∈ ts, t.kind.Admits t.lexeme) :
    (listing ts).readBack ofWords? = ts.map unplaced := by
  have printed : listing ts = Text.lines (ts.map fun t => Text.spaced t.words) :=
    congrArg Text.lines (List.map_congr_left fun t _ => t.text_eq_spaced)
  rw [printed]
  exact Text.readBack_lines fun t ht =>
    ⟨words_of_admits (admitted t ht), ofWords?_words (admitted t ht)⟩

/-- The listing does not show the places. -/
lemma listing_unplaced (ts : List Token) : listing (ts.map unplaced) = listing ts := by
  rw [listing, listing, List.map_map]
  rfl

end Token

/-! What the texts and their digests tell. -/

/-- Different texts with one digest. -/
def Text.Collide (a b : Text) : Prop := a ≠ b ∧ a.digest = b.digest

lemma Text.digest_eq_iff {a b : Text} : a.digest = b.digest ↔ a = b ∨ a.Collide b := by
  constructor
  · intro same
    by_cases equal : a = b
    · exact Or.inl equal
    · exact Or.inr ⟨equal, same⟩
  · rintro (rfl | ⟨_, same⟩)
    · rfl
    · exact same

lemma Accepted.text_eq_iff {c d : Compiled} (hc : Accepted c) (hd : Accepted d) :
    c.code.text = d.code.text ↔ c.code.instructions = d.code.instructions := by
  constructor
  · intro same
    rw [← Code.readBack_text hc.legible, same, Code.readBack_text hd.legible]
  · intro same
    rw [Code.text, Code.text, same]

lemma Token.listing_eq_iff {ts us : List Token} (hts : ∀ t ∈ ts, t.kind.Admits t.lexeme)
    (hus : ∀ u ∈ us, u.kind.Admits u.lexeme) :
    listing ts = listing us ↔ List.Forall₂ Alike ts us := by
  rw [forall₂_alike_iff]
  constructor
  · intro same
    rw [← readBack_listing hts, same, readBack_listing hus]
  · intro same
    rw [← listing_unplaced ts, same, listing_unplaced]

/-- The printed forms of what comes from sources tell all there is to tell. Accepted sources have
the same code text just if they have the same instructions, and sources that were read have the
same listing of their tokens just if these agree in kinds and lexemes. So the digests do too,
unless the very texts printed collide. -/
theorem printed_forms_faithful :
    (∀ (o o' : Options) (source source' : Text) (c d : Compiled),
      compile o source = .ok c → compile o' source' = .ok d →
      (c.code.text = d.code.text ↔ c.code.instructions = d.code.instructions) ∧
      (c.code.digest = d.code.digest ↔
        c.code.instructions = d.code.instructions ∨ c.code.text.Collide d.code.text)) ∧
    (∀ (p p' : Policy) (source source' : Text) (tokens tokens' skipped skipped' : List Token),
      readTokens p source = .ok (tokens, skipped) →
      readTokens p' source' = .ok (tokens', skipped') →
      (Token.listing tokens = Token.listing tokens' ↔ List.Forall₂ Token.Alike tokens tokens') ∧
      (Token.digest tokens = Token.digest tokens' ↔ List.Forall₂ Token.Alike tokens tokens' ∨
        (Token.listing tokens).Collide (Token.listing tokens'))) := by
  constructor
  · intro o o' source source' c d accepted accepted'
    have texts := (accepted_of_compile accepted).text_eq_iff (accepted_of_compile accepted')
    refine ⟨texts, ?_⟩
    rw [← texts]
    exact Text.digest_eq_iff
  · intro p p' source source' tokens tokens' skipped skipped' read read'
    have listings := Token.listing_eq_iff (admits_of_mem_tokens read) (admits_of_mem_tokens read')
    refine ⟨listings, ?_⟩
    rw [← listings]
    exact Text.digest_eq_iff

/-- Sources with the same code but other tokens, and sources with the same tokens at other
places, one with a stray. -/
theorem printed_forms_faithful_relaid :
    (∃ c, compile ⟨.skip, .tokens⟩ (utf8 "int t0; t0 = (t0 + 10) * 2;") = .ok c ∧
      ∃ d, compile ⟨.reject, .tree⟩ (utf8 "int t0; print(7);\nt0 = (t0+10) * (2);") = .ok d ∧
      Token.listing c.tokens ≠ Token.listing d.tokens ∧ c.code.text = d.code.text ∧
      c.code.instructions = d.code.instructions) ∧
    (∃ read, readTokens .skip (utf8 "1abc @<int") = .ok read ∧
      ∃ read', readTokens .reject (utf8 "1\n\tabc < int ") = .ok read' ∧ read.1 ≠ read'.1 ∧
      Token.listing read.1 = Token.listing read'.1 ∧
      List.Forall₂ Token.Alike read.1 read'.1) := by
  obtain ⟨codes, listings⟩ := printed_forms_faithful
  constructor
  · obtain ⟨c, accepted, d, accepted', differ, same⟩ :
        ∃ c, compile ⟨.skip, .tokens⟩ (utf8 "int t0; t0 = (t0 + 10) * 2;") = .ok c ∧
        ∃ d, compile ⟨.reject, .tree⟩ (utf8 "int t0; print(7);\nt0 = (t0+10) * (2);") = .ok d ∧
        Token.listing c.tokens ≠ Token.listing d.tokens ∧ c.code.text = d.code.text := by
      decide +kernel
    have texts := (codes _ _ _ _ c d accepted accepted').1
    exact ⟨c, accepted, d, accepted', differ, same, texts.mp same⟩
  · obtain ⟨read, ok, read', ok', differ, same⟩ :
        ∃ read, readTokens .skip (utf8 "1abc @<int") = .ok read ∧
        ∃ read', readTokens .reject (utf8 "1\n\tabc < int ") = .ok read' ∧ read.1 ≠ read'.1 ∧
        Token.listing read.1 = Token.listing read'.1 := by
      decide +kernel
    have alike := (listings _ _ _ _ read.1 read'.1 read.2 read'.2 ok ok').1
    exact ⟨read, ok, read', ok', differ, same, alike.mp same⟩

end ThreeAddress
