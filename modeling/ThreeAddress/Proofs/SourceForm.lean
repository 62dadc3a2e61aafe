import ThreeAddress.Proofs.Accepted
import ThreeAddress.Proofs.Places
import ThreeAddress.Proofs.Scanning

/-!
# The source form of a program is read back

The source form of a tree is made of the texts of its parts, with fixed texts between them
that keep each part from running into the next. So it spells the tokens of its parts in order
(`Spells`), and these tokens spell the tree again, in parentheses wherever an operation stands.
-/

namespace ThreeAddress

/-- The tokens of a text, wherever it stands. -/
def spelled (t : Text) : List Token := (Source.stream t).map Token.unplaced

/-- No word and no number goes on into the text. -/
def Text.Stops (t : Text) : Prop := ∀ b ∈ t.head?, ¬ (isLetter b ∨ isDigit b)

section Spelled

variable {w rest : Text}

lemma map_unplaced_tokensAt (p q : Position) (segments : List Segment) :
    (Source.tokensAt p segments).map Token.unplaced =
      (Source.tokensAt q segments).map Token.unplaced := by
  induction segments generalizing p q with
  | nil => rfl
  | cons s segments ih =>
    unfold Source.tokensAt
    cases s.kind? with
    | none => exact ih _ _
    | some k => exact congrArg (⟨k, s.lexeme, 0, 0⟩ :: ·) (ih _ _)

lemma map_unplaced_tokensFrom (p : Position) (t : Text) :
    (Source.tokensFrom p t).map Token.unplaced = spelled t :=
  map_unplaced_tokensAt p .start _

lemma spelled_word (h : IsWord w) (stop : rest.Stops) :
    spelled (w ++ rest) = ⟨.ofWord w, w, 0, 0⟩ :: spelled rest := by
  rw [← map_unplaced_tokensFrom .start, Source.tokensFrom_word _ h stop, List.map_cons,
    map_unplaced_tokensFrom]
  rfl

lemma spelled_number (h : IsNumeral w) (stop : ∀ b ∈ rest.head?, ¬ isDigit b) :
    spelled (w ++ rest) = ⟨.number, w, 0, 0⟩ :: spelled rest := by
  rw [← map_unplaced_tokensFrom .start, Source.tokensFrom_number _ h stop, List.map_cons,
    map_unplaced_tokensFrom]
  rfl

lemma spelled_append (ends : w.EndsApart) (rest : Text) :
    spelled (w ++ rest) = spelled w ++ spelled rest := by
  rw [← map_unplaced_tokensFrom .start, Source.tokensFrom_append_of_endsApart (Or.inr ends),
    List.map_append, map_unplaced_tokensFrom, map_unplaced_tokensFrom]

end Spelled

/-- The text begins with a byte that ends any word or number before it. -/
def Text.BeginsApart (t : Text) : Prop := ∃ b ∈ t.head?, ¬ (isLetter b ∨ isDigit b)

instance : DecidablePred Text.BeginsApart := fun _ => inferInstanceAs (Decidable (∃ _ ∈ _, _))

lemma Text.BeginsApart.stops {t : Text} (h : t.BeginsApart) (rest : Text) :
    (t ++ rest).Stops := by
  obtain ⟨b, head, apart⟩ := h
  cases t with
  | nil => cases head
  | cons c t =>
    cases head
    simpa [Stops] using apart

/-- In front of a text with the property `Behind`, the text `w` spells the tokens, and none of
them is a character without meaning. -/
structure Spells (Behind : Text → Prop) (w : Text) (ts : List Token) : Prop where
  tokens : ∀ rest : Text, Behind rest → spelled (w ++ rest) = ts ++ spelled rest
  known : ∀ t ∈ ts, t.kind ≠ .unrecognized

/-- The text spells the tokens, whatever follows it. -/
abbrev SpellsApart : Text → List Token → Prop := Spells fun _ => True

namespace Spells

variable {Behind : Text → Prop} {v w : Text} {ts us : List Token}

lemma nil : SpellsApart [] [] := ⟨fun _ _ => rfl, List.forall_mem_nil _⟩

lemma append (left : SpellsApart w ts) (right : Spells Behind v us) :
    Spells Behind (w ++ v) (ts ++ us) := by
  refine ⟨fun rest behind => ?_, List.forall_mem_append.mpr ⟨left.known, right.known⟩⟩
  rw [List.append_assoc, left.tokens _ trivial, right.tokens rest behind, List.append_assoc]

/-- A word or number needs a text behind it that begins apart. -/
lemma append_apart (left : Spells Text.Stops w ts) (begins : v.BeginsApart)
    (right : SpellsApart v us) : SpellsApart (w ++ v) (ts ++ us) := by
  refine ⟨fun rest _ => ?_, List.forall_mem_append.mpr ⟨left.known, right.known⟩⟩
  rw [List.append_assoc, left.tokens _ (begins.stops rest), right.tokens rest trivial,
    List.append_assoc]

lemma of_apart (h : SpellsApart w ts) : Spells Behind w ts :=
  ⟨fun rest _ => h.tokens rest trivial, h.known⟩

lemma spelled_eq (h : SpellsApart w ts) : spelled w = ts := by
  have alone := h.tokens [] trivial
  rw [List.append_nil] at alone
  exact alone.trans (List.append_nil ts)

end Spells

/-- A text that ends apart is looked at by itself. -/
lemma spellsApart_of {w : Text} {ts : List Token}
    (h : w.EndsApart ∧ spelled w = ts ∧ ∀ t ∈ ts, t.kind ≠ .unrecognized) : SpellsApart w ts := by
  obtain ⟨ends, rfl, known⟩ := h
  exact ⟨fun rest _ => spelled_append ends rest, known⟩

/-! The texts that a source form is made of. -/

section Parts

variable {t : Token}

lemma spells_name (kind : t.kind = .identifier) (admits : t.kind.Admits t.lexeme) :
    Spells Text.Stops t.lexeme [t.unplaced] := by
  rw [kind] at admits
  have ofWord : Kind.ofWord t.lexeme = .identifier := if_neg admits.2
  refine ⟨fun rest stop => ?_, by simp [kind]⟩
  rw [spelled_word admits.1 stop, ofWord, Token.unplaced, kind]
  rfl

lemma spells_number (kind : t.kind = .number) (admits : t.kind.Admits t.lexeme) :
    Spells Text.Stops t.lexeme [t.unplaced] := by
  rw [kind] at admits
  refine ⟨fun rest stop => ?_, by simp [kind]⟩
  rw [spelled_number admits fun b hb digit => stop b hb (Or.inr digit), Token.unplaced, kind]
  rfl

lemma spells_operator (kind : t.kind = .operator) (admits : t.kind.Admits t.lexeme) :
    SpellsApart t.lexeme [t.unplaced] := by
  rw [kind] at admits
  rw [Token.unplaced, kind]
  rcases admits with h | h | h | h <;> rw [h] <;> exact spellsApart_of (by decide)

lemma spells_comparator (kind : t.kind = .comparator) (admits : t.kind.Admits t.lexeme) :
    SpellsApart t.lexeme [t.unplaced] := by
  rw [kind] at admits
  rw [Token.unplaced, kind]
  rcases admits with h | h <;> rw [h] <;> exact spellsApart_of (by decide)

lemma spells_int (h : t.Is .keyword "int") : SpellsApart "int " [t.unplaced] := by
  rw [Token.unplaced_eq h]
  exact spellsApart_of (by decide)

lemma spells_print (h : t.Is .keyword "print") :
    SpellsApart "print(" [t.unplaced, bare .leftParen "("] := by
  rw [Token.unplaced_eq h]
  exact spellsApart_of (by decide)

lemma spells_if (h : t.Is .keyword "if") :
    SpellsApart "if (" [t.unplaced, bare .leftParen "("] := by
  rw [Token.unplaced_eq h]
  exact spellsApart_of (by decide)

lemma spells_while (h : t.Is .keyword "while") :
    SpellsApart "while (" [t.unplaced, bare .leftParen "("] := by
  rw [Token.unplaced_eq h]
  exact spellsApart_of (by decide)

lemma spells_else (h : t.Is .keyword "else") : SpellsApart " \x7d else \x7b"
    [bare .rightBrace "\x7d", t.unplaced, bare .leftBrace "\x7b"] := by
  rw [Token.unplaced_eq h]
  exact spellsApart_of (by decide)

lemma spells_space : SpellsApart " " [] := spellsApart_of (by decide)

lemma spells_newline : SpellsApart [Text.newline] [] := spellsApart_of (by decide)

lemma spells_leftParen : SpellsApart "(" [bare .leftParen "("] := spellsApart_of (by decide)

lemma spells_rightParen : SpellsApart ")" [bare .rightParen ")"] := spellsApart_of (by decide)

lemma spells_semicolon : SpellsApart ";" [bare .semicolon ";"] := spellsApart_of (by decide)

lemma spells_assign : SpellsApart " = " [bare .assignOp "="] := spellsApart_of (by decide)

lemma spells_printEnd : SpellsApart ");" [bare .rightParen ")", bare .semicolon ";"] :=
  spellsApart_of (by decide)

lemma spells_blockOpen : SpellsApart ") \x7b" [bare .rightParen ")", bare .leftBrace "\x7b"] :=
  spellsApart_of (by decide)

lemma spells_blockClose : SpellsApart " \x7d" [bare .rightBrace "\x7d"] :=
  spellsApart_of (by decide)

end Parts

namespace Grammar

lemma Expression.expr {ts : List Token} {e : Expr} (h : Expression .factor ts e) :
    Expression .expr ts e :=
  .arith (.term (.factor h))

/-- The source form of an operation between parts that are read back. -/
lemma exists_spells_binary {op : Token} {ts us : List Token} {a b : Expr}
    (left : Spells Text.Stops a.source ts) (operator : SpellsApart op.lexeme [op.unplaced])
    (right : Spells Text.Stops b.source us)
    (spells : Expression .expr (ts ++ op.unplaced :: us)
      (.binary op.unplaced op.lexeme a.unplaced b.unplaced)) :
    ∃ vs, Expression .factor vs (Expr.binary op op.lexeme a b).unplaced ∧
      Spells Text.Stops (Expr.binary op op.lexeme a b).source vs := by
  refine ⟨_, .parens (kind_bare .leftParen "(") spells (kind_bare .rightParen ")"), ?_⟩
  have behindLeft := (spells_leftParen.append left).append_apart (by decide) spells_space
  have behindSign := (behindLeft.append operator).append spells_space
  have whole := (behindSign.append right).append_apart (by decide) spells_rightParen
  simpa [Expr.source] using whole.of_apart

/-- The source form of an expression is read back as a factor. -/
lemma Expression.exists_spells_source {level : Level} {ts : List Token} {e : Expr}
    (h : Expression level ts e) (admitted : ∀ t ∈ ts, t.kind.Admits t.lexeme) :
    ∃ us, Expression .factor us e.unplaced ∧ Spells Text.Stops e.source us := by
  induction h with
  | @name t kind =>
    exact ⟨_, .name (t := t.unplaced) kind, spells_name kind (admitted t List.mem_cons_self)⟩
  | @number t kind =>
    exact ⟨_, .number (t := t.unplaced) kind, spells_number kind (admitted t List.mem_cons_self)⟩
  | parens _ _ _ ih =>
    -- These parentheses are not kept. An operation inside them comes with its own.
    simp only [List.forall_mem_cons, List.forall_mem_append] at admitted
    exact ih admitted.2.1
  | factor _ ih => exact ih admitted
  | term _ ih => exact ih admitted
  | arith _ ih => exact ih admitted
  | product _ times _ ihl ihr =>
    simp only [List.forall_mem_cons, List.forall_mem_append] at admitted
    obtain ⟨us, left, spellsLeft⟩ := ihl admitted.1
    obtain ⟨vs, right, spellsRight⟩ := ihr admitted.2.2
    have operator := spells_operator times.kind admitted.2.1
    exact exists_spells_binary spellsLeft operator spellsRight
      (.arith (.term (.product (.factor left) times right)))
  | sum _ plus _ ihl ihr =>
    simp only [List.forall_mem_cons, List.forall_mem_append] at admitted
    obtain ⟨us, left, spellsLeft⟩ := ihl admitted.1
    obtain ⟨vs, right, spellsRight⟩ := ihr admitted.2.2
    have operator := spells_operator plus.kind admitted.2.1
    exact exists_spells_binary spellsLeft operator spellsRight
      (.arith (.sum (.term (.factor left)) plus (.factor right)))
  | comparison _ comparator _ ihl ihr =>
    simp only [List.forall_mem_cons, List.forall_mem_append] at admitted
    obtain ⟨us, left, spellsLeft⟩ := ihl admitted.1
    obtain ⟨vs, right, spellsRight⟩ := ihr admitted.2.2
    have operator := spells_comparator comparator admitted.2.1
    exact exists_spells_binary spellsLeft operator spellsRight
      (.comparison (.term (.factor left)) comparator (.term (.factor right)))

mutual

/-- The source form of a statement is read back, whatever follows it. -/
lemma Statement.exists_spells_source {ts : List Token} {s : Stmt}
    (admitted : ∀ t ∈ ts, t.kind.Admits t.lexeme) :
    Statement ts s → ∃ us, Statement us s.unplaced ∧ SpellsApart s.source us
  | .declaration (x := x) intWord name _ => by
    have admits := admitted x (by simp)
    refine ⟨_, .declaration intWord name (kind_bare .semicolon ";"), ?_⟩
    have behindName := (spells_int intWord).append (spells_name name admits)
    exact behindName.append_apart (by decide) spells_semicolon
  | .assignment name _ value _ => by
    simp only [List.forall_mem_cons, List.forall_mem_append] at admitted
    obtain ⟨us, value', spellsValue⟩ := value.exists_spells_source admitted.2.2.1
    refine ⟨_, .assignment name (kind_bare .assignOp "=") value'.expr
      (kind_bare .semicolon ";"), ?_⟩
    have behindSign := (spells_name name admitted.1).append_apart (by decide) spells_assign
    have whole := (behindSign.append spellsValue).append_apart (by decide) spells_semicolon
    simpa [Stmt.source, Ident.ofToken] using whole
  | .print printWord _ value _ _ => by
    simp only [List.forall_mem_cons, List.forall_mem_append] at admitted
    obtain ⟨us, value', spellsValue⟩ := value.exists_spells_source admitted.2.2.1
    refine ⟨_, .print printWord (kind_bare .leftParen "(") value'.expr
      (kind_bare .rightParen ")") (kind_bare .semicolon ";"), ?_⟩
    have behindValue := (spells_print printWord).append spellsValue
    simpa [Stmt.source] using behindValue.append_apart (by decide) spells_printEnd
  | .ifThen ifWord _ cond _ block => by
    simp only [List.forall_mem_cons, List.forall_mem_append] at admitted
    obtain ⟨us, cond', spellsCond⟩ := cond.exists_spells_source admitted.2.2.1
    obtain ⟨brace, vs, body', spellsBody⟩ := block.exists_spells_source admitted.2.2.2.2
    refine ⟨_, .ifThen ifWord (kind_bare .leftParen "(") cond'.expr (kind_bare .rightParen ")")
      (.braces brace.1 body' (kind_bare .rightBrace "\x7d")), ?_⟩
    have behindCond := (spells_if ifWord).append spellsCond
    have behindOpen := behindCond.append_apart (by decide) spells_blockOpen
    rw [Token.unplaced_eq brace]
    simpa [Stmt.source] using (behindOpen.append spellsBody).append spells_blockClose
  | .ifElse ifWord _ cond _ block elseWord elseBlock => by
    simp only [List.forall_mem_cons, List.forall_mem_append] at admitted
    obtain ⟨us, cond', spellsCond⟩ := cond.exists_spells_source admitted.2.2.1
    obtain ⟨brace, vs, body', spellsBody⟩ := block.exists_spells_source admitted.2.2.2.2.1
    obtain ⟨elseBrace, ws, elseBody', spellsElse⟩ :=
      elseBlock.exists_spells_source admitted.2.2.2.2.2.2
    refine ⟨_, .ifElse ifWord (kind_bare .leftParen "(") cond'.expr (kind_bare .rightParen ")")
      (.braces brace.1 body' (kind_bare .rightBrace "\x7d"))
      ((Token.is_unplaced _ _ _).mpr elseWord)
      (.braces elseBrace.1 elseBody' (kind_bare .rightBrace "\x7d")), ?_⟩
    have behindCond := (spells_if ifWord).append spellsCond
    have behindOpen := behindCond.append_apart (by decide) spells_blockOpen
    have behindElse := (behindOpen.append spellsBody).append (spells_else elseWord)
    rw [Token.unplaced_eq brace, Token.unplaced_eq elseBrace]
    simpa [Stmt.source] using (behindElse.append spellsElse).append spells_blockClose
  | .whileDo whileWord _ cond _ block => by
    simp only [List.forall_mem_cons, List.forall_mem_append] at admitted
    obtain ⟨us, cond', spellsCond⟩ := cond.exists_spells_source admitted.2.2.1
    obtain ⟨brace, vs, body', spellsBody⟩ := block.exists_spells_source admitted.2.2.2.2
    refine ⟨_, .whileDo whileWord (kind_bare .leftParen "(") cond'.expr
      (kind_bare .rightParen ")") (.braces brace.1 body' (kind_bare .rightBrace "\x7d")), ?_⟩
    have behindCond := (spells_while whileWord).append spellsCond
    have behindOpen := behindCond.append_apart (by decide) spells_blockOpen
    rw [Token.unplaced_eq brace]
    simpa [Stmt.source] using (behindOpen.append spellsBody).append spells_blockClose

lemma Block.exists_spells_source {ts : List Token} {brace : Token} {body : List Stmt}
    (admitted : ∀ t ∈ ts, t.kind.Admits t.lexeme) :
    Block ts brace body → brace.Is .leftBrace "\x7b" ∧
      ∃ us, Statements us (Stmt.unplacedAll body) ∧ SpellsApart (Stmt.bodySource body) us
  | .braces left inner _ => by
    simp only [List.forall_mem_cons, List.forall_mem_append] at admitted
    have lexeme := admitted.1
    rw [left] at lexeme
    exact ⟨⟨left, lexeme⟩, inner.exists_spells_bodySource admitted.2.1⟩

lemma Statements.exists_spells_bodySource {ts : List Token} {body : List Stmt}
    (admitted : ∀ t ∈ ts, t.kind.Admits t.lexeme) :
    Statements ts body →
      ∃ us, Statements us (Stmt.unplacedAll body) ∧ SpellsApart (Stmt.bodySource body) us
  | .nil => ⟨[], .nil, .nil⟩
  | .cons first others => by
    rw [List.forall_mem_append] at admitted
    obtain ⟨us, first', spellsFirst⟩ := first.exists_spells_source admitted.1
    obtain ⟨vs, others', spellsOthers⟩ := others.exists_spells_bodySource admitted.2
    exact ⟨us ++ vs, .cons first' others', (spells_space.append spellsFirst).append spellsOthers⟩

end

/-- The source form of a program is read back. -/
lemma Statements.exists_spells_source {ts : List Token} {p : Program} (h : Statements ts p)
    (admitted : ∀ t ∈ ts, t.kind.Admits t.lexeme) :
    ∃ us, Statements us (Stmt.unplacedAll p) ∧ SpellsApart (Program.source p) us := by
  induction p generalizing ts with
  | nil => exact ⟨[], .nil, .nil⟩
  | cons s p ih =>
    cases h with
    | cons first others =>
      rw [List.forall_mem_append] at admitted
      obtain ⟨us, first', spellsFirst⟩ := first.exists_spells_source admitted.1
      obtain ⟨vs, others', spellsOthers⟩ := ih others admitted.2
      refine ⟨us ++ vs, .cons first' others', ?_⟩
      have line := (spellsFirst.append spells_newline).append spellsOthers
      rwa [List.append_nil] at line

end Grammar

/-- The source form of a program that was read is read without any skipping as that program,
up to the places of its tokens. So the source form and the code stay the same. -/
theorem parse_source_eq {policy : Policy} {source : Text} {parsed : Parsed}
    (h : readProgram policy source = .ok parsed) :
    ∃ tokens q, readTokens .reject (Program.source parsed.program) = .ok (tokens, []) ∧
      parse tokens = .ok q ∧ Stmt.unplacedAll q = Stmt.unplacedAll parsed.program ∧
      Program.source q = Program.source parsed.program ∧
      (Program.lower q).instructions = (Program.lower parsed.program).instructions ∧
      (Program.lower q).temporaries = (Program.lower parsed.program).temporaries ∧
      (Program.lower q).fallbacks = (Program.lower parsed.program).fallbacks := by
  obtain ⟨us, statements, spells⟩ :=
    (statements_of_readProgram h).exists_spells_source (admitted_of_readProgram h)
  have stream : (Source.stream (Program.source parsed.program)).map Token.unplaced = us :=
    spells.spelled_eq
  have known : ∀ t ∈ Source.stream (Program.source parsed.program), t.kind ≠ .unrecognized := by
    intro t ht
    have mem : t.unplaced ∈ us := stream ▸ List.mem_map_of_mem ht
    exact spells.known t.unplaced mem
  have parsedBare := parse_of_statements statements
  rw [← stream] at parsedBare
  obtain ⟨q, parsedAgain, same⟩ := exists_parse_of_unplaced parsedBare
  have text : Program.source q = Program.source parsed.program := by
    rw [← Program.source_unplacedAll q, same, Program.source_unplacedAll]
  have code : (Program.lower q).unplaced = (Program.lower parsed.program).unplaced := by
    rw [← Program.lower_unplacedAll, same, Program.lower_unplacedAll]
  obtain ⟨instructions, _, temporaries, fallbacks⟩ := Code.mk.inj code
  exact ⟨_, q, readTokens_of_known .reject known, parsedAgain, same, text, instructions,
    temporaries, fallbacks⟩

/-- A source with few blanks, a stray character and parentheses that its tree does not keep. -/
def crowded : Text :=
  "a=1-2-(a<3)*4@;if(a>0)\x7bprint((a));\x7delse\x7bwhile(a)\x7b\x7d\x7d"

/-- Its source form. -/
def spaced : Text :=
  "a = ((1 - 2) - ((a < 3) * 4));\n" ++
    "if ((a > 0)) \x7b print(a); \x7d else \x7b while (a) \x7b \x7d \x7d\n"

theorem parse_source_eq_crowded : ∃ parsed tokens q,
    readProgram .skip crowded = .ok parsed ∧ Program.source parsed.program = spaced ∧
      readTokens .reject spaced = .ok (tokens, []) ∧ parse tokens = .ok q ∧
      Stmt.unplacedAll q = Stmt.unplacedAll parsed.program := by
  obtain ⟨parsed, read, source⟩ : ∃ parsed, readProgram .skip crowded = .ok parsed ∧
      Program.source parsed.program = spaced := by decide +kernel
  obtain ⟨tokens, q, again, parsedAgain, same, _⟩ := parse_source_eq read
  rw [source] at again
  exact ⟨parsed, tokens, q, read, source, again, parsedAgain, same⟩

end ThreeAddress
