import ThreeAddress.Proofs.Reading
import ThreeAddress.Syntax.Print

/-!
# Parsing is deriving

Whatever the machine has taken is spelled out by its state: the open blocks with what
stands before them, the finished statements, and the phrase it is in the middle of
(`Reads`). Each step keeps this up, so a run that ends well has derived its program.
With the converse from `Reading`, parsing succeeds on exactly the token lists of the
grammar, and no token list has two derivations with different trees.
-/

namespace ThreeAddress.Parse

open Grammar

/-- The tokens of an operation that waits for its right operand. -/
inductive ReadsHalf (level : Level) (Joins : Token → Prop) : List Token → Option Half → Prop where
  | none : ReadsHalf level Joins [] none
  | some {ts : List Token} {a : Expr} {op : Token} (left : Expression level ts a)
      (joins : Joins op) : ReadsHalf level Joins (ts ++ [op]) (some (a, op))

/-- The tokens of all the operations that wait in one expression, the loosest first. -/
inductive ReadsPending : List Token → Pending → Prop where
  | mk {as bs cs : List Token} {comparison sum product : Option Half}
      (loose : ReadsHalf .arith (fun op => op.kind = .comparator) as comparison)
      (middle : ReadsHalf .arith IsPlus bs sum) (tight : ReadsHalf .term IsTimes cs product) :
      ReadsPending (as ++ (bs ++ cs)) ⟨comparison, sum, product⟩

/-- The tokens up to the innermost open parenthesis. -/
inductive ReadsParens : List Token → List Pending → Prop where
  | nil : ReadsParens [] []
  | cons {ts us : List Token} {parens : List Pending} {p : Pending} {l : Token}
      (outer : ReadsParens ts parens) (pending : ReadsPending us p) (left : l.kind = .leftParen) :
      ReadsParens (ts ++ (us ++ [l])) (p :: parens)

/-- The tokens of a statement up to its expression. -/
inductive ReadsSlot : List Token → Slot → Prop where
  | value {x sign : Token} (name : x.kind = .identifier) (assign : sign.kind = .assignOp) :
      ReadsSlot [x, sign] (.value x)
  | ifCond {word l : Token} (ifWord : word.Is .keyword "if") (left : l.kind = .leftParen) :
      ReadsSlot [word, l] (.ifCond word)
  | whileCond {word l : Token} (whileWord : word.Is .keyword "while") (left : l.kind = .leftParen) :
      ReadsSlot [word, l] (.whileCond word)
  | printed {word l : Token} (printWord : word.Is .keyword "print") (left : l.kind = .leftParen) :
      ReadsSlot [word, l] (.printed word)

/-- The tokens of a statement up to a block of it. -/
inductive ReadsOwner : List Token → Owner → Prop where
  | ifThen {word l r : Token} {ts : List Token} {e : Expr} (ifWord : word.Is .keyword "if")
      (left : l.kind = .leftParen) (cond : Expression .expr ts e) (right : r.kind = .rightParen) :
      ReadsOwner (word :: l :: (ts ++ [r])) (.ifThen word e)
  | ifElse {word l r brace other : Token} {ts us : List Token} {e : Expr} {body : List Stmt}
      (ifWord : word.Is .keyword "if") (left : l.kind = .leftParen) (cond : Expression .expr ts e)
      (right : r.kind = .rightParen) (block : Block us brace body)
      (elseWord : other.Is .keyword "else") :
      ReadsOwner (word :: l :: (ts ++ r :: (us ++ [other]))) (.ifElse word e brace body)
  | whileDo {word l r : Token} {ts : List Token} {e : Expr} (whileWord : word.Is .keyword "while")
      (left : l.kind = .leftParen) (cond : Expression .expr ts e) (right : r.kind = .rightParen) :
      ReadsOwner (word :: l :: (ts ++ [r])) (.whileDo word e)

/-- The tokens of what the machine is in the middle of. -/
inductive ReadsMode : List Token → Mode → Prop where
  | statement : ReadsMode [] .statement
  | declared {word : Token} (intWord : word.Is .keyword "int") : ReadsMode [word] (.declared word)
  | declaredName {word x : Token} (intWord : word.Is .keyword "int")
      (name : x.kind = .identifier) : ReadsMode [word, x] (.declaredName word x)
  | assigned {x : Token} (name : x.kind = .identifier) : ReadsMode [x] (.assigned x)
  | ifWord {word : Token} (ifWord : word.Is .keyword "if") : ReadsMode [word] (.ifWord word)
  | whileWord {word : Token} (whileWord : word.Is .keyword "while") :
      ReadsMode [word] (.whileWord word)
  | printWord {word : Token} (printWord : word.Is .keyword "print") :
      ReadsMode [word] (.printWord word)
  | operand {ss ps qs : List Token} {slot : Slot} {parens : List Pending} {pending : Pending}
      (start : ReadsSlot ss slot) (outer : ReadsParens ps parens)
      (waiting : ReadsPending qs pending) :
      ReadsMode (ss ++ (ps ++ qs)) (.operand slot parens pending)
  | operator {ss ps qs ts : List Token} {slot : Slot} {parens : List Pending} {pending : Pending}
      {e : Expr} (start : ReadsSlot ss slot) (outer : ReadsParens ps parens)
      (waiting : ReadsPending qs pending) (last : Expression .factor ts e) :
      ReadsMode (ss ++ (ps ++ (qs ++ ts))) (.operator slot parens pending e)
  | printed {word l r : Token} {ts : List Token} {e : Expr} (printWord : word.Is .keyword "print")
      (left : l.kind = .leftParen) (value : Expression .expr ts e) (right : r.kind = .rightParen) :
      ReadsMode (word :: l :: (ts ++ [r])) (.printed word e)
  | block {ts : List Token} {owner : Owner} (before : ReadsOwner ts owner) :
      ReadsMode ts (.block owner)
  | ifBlock {word l r brace : Token} {ts us : List Token} {e : Expr} {body : List Stmt}
      (ifWord : word.Is .keyword "if") (left : l.kind = .leftParen) (cond : Expression .expr ts e)
      (right : r.kind = .rightParen) (block : Block us brace body) :
      ReadsMode (word :: l :: (ts ++ r :: us)) (.ifBlock word e brace body)

/-- The tokens up to the innermost open brace. -/
inductive ReadsFrames : List Token → List Frame → Prop where
  | nil : ReadsFrames [] []
  | cons {ts us vs : List Token} {frames : List Frame} {owner : Owner} {brace : Token}
      {before : List Stmt} (outer : ReadsFrames ts frames) (earlier : Statements us before)
      (start : ReadsOwner vs owner) (left : brace.kind = .leftBrace) :
      ReadsFrames (ts ++ (us ++ (vs ++ [brace]))) (⟨owner, brace, before⟩ :: frames)

/-- The tokens that brought the machine into a state. -/
inductive Reads : List Token → State → Prop where
  | mk {fs ds ms ts : List Token} {frames : List Frame} {done : List Stmt} {mode : Mode}
      (blocks : ReadsFrames fs frames) (finished : Statements ds done)
      (current : ReadsMode ms mode) (all : ts = fs ++ (ds ++ ms)) :
      Reads ts ⟨frames, done, mode⟩

lemma reads_initial : Reads [] .initial := .mk .nil .nil .statement rfl

lemma readsPending_none : ReadsPending [] .none :=
  @ReadsPending.mk [] [] [] _ _ _ .none .none .none

section Joining

variable {ts us : List Token} {half : Option Half} {e : Expr}

lemma ReadsHalf.endProduct (h : ReadsHalf .term IsTimes ts half)
    (last : Expression .factor us e) : Expression .term (ts ++ us) (join half e) := by
  cases h with
  | none => exact .factor last
  | some left times =>
    rw [List.append_assoc]
    exact .product left times last

lemma ReadsHalf.endSum (h : ReadsHalf .arith IsPlus ts half)
    (last : Expression .term us e) : Expression .arith (ts ++ us) (join half e) := by
  cases h with
  | none => exact .term last
  | some left plus =>
    rw [List.append_assoc]
    exact .sum left plus last

lemma ReadsHalf.endExpr (h : ReadsHalf .arith (fun op => op.kind = .comparator) ts half)
    (last : Expression .arith us e) : Expression .expr (ts ++ us) (join half e) := by
  cases h with
  | none => exact .arith last
  | some left comparator =>
    rw [List.append_assoc]
    exact .comparison left comparator last

lemma ReadsPending.endExpr {p : Pending} (h : ReadsPending ts p)
    (last : Expression .factor us e) : Expression .expr (ts ++ us) (p.endExpr e) := by
  obtain ⟨loose, middle, tight⟩ := h
  simp only [List.append_assoc]
  exact loose.endExpr (middle.endSum (tight.endProduct last))

end Joining

section Steps

variable {frames : List Frame} {done : List Stmt} {fs ds : List Token} {t : Token} {next : State}

lemma reads_close {mode : Mode} (blocks : ReadsFrames fs frames) (finished : Statements ds done)
    (right : t.kind = .rightBrace) (h : State.close ⟨frames, done, mode⟩ = some next) :
    Reads (fs ++ (ds ++ [t])) next := by
  cases blocks with
  | nil => cases h
  | cons outer earlier start left =>
    have block := Block.braces left finished right
    cases start with
    | ifThen ifWord left cond right =>
      cases h
      exact .mk outer earlier (.ifBlock ifWord left cond right block) (by simp)
    | ifElse ifWord left cond right first elseWord =>
      cases h
      exact .mk outer (earlier.snoc (.ifElse ifWord left cond right first elseWord block))
        .statement (by simp)
    | whileDo whileWord left cond right =>
      cases h
      exact .mk outer (earlier.snoc (.whileDo whileWord left cond right block)) .statement (by simp)

lemma reads_begin {mode : Mode} (blocks : ReadsFrames fs frames) (finished : Statements ds done)
    (h : State.begin ⟨frames, done, mode⟩ t = some next) : Reads (fs ++ (ds ++ [t])) next := by
  unfold State.begin at h
  split at h
  · rename_i intWord
    cases h
    exact .mk blocks finished (.declared intWord) rfl
  split at h
  · rename_i name
    cases h
    exact .mk blocks finished (.assigned name) rfl
  split at h
  · rename_i ifWord
    cases h
    exact .mk blocks finished (.ifWord ifWord) rfl
  split at h
  · rename_i whileWord
    cases h
    exact .mk blocks finished (.whileWord whileWord) rfl
  split at h
  · rename_i printWord
    cases h
    exact .mk blocks finished (.printWord printWord) rfl
  split at h
  · rename_i right
    exact reads_close blocks finished right h
  · cases h

lemma reads_fill {mode : Mode} {slot : Slot} {ss ts : List Token} {e : Expr}
    (blocks : ReadsFrames fs frames) (finished : Statements ds done) (start : ReadsSlot ss slot)
    (full : Expression .expr ts e)
    (h : State.fill ⟨frames, done, mode⟩ slot e t = some next) :
    Reads (fs ++ (ds ++ (ss ++ (ts ++ [t])))) next := by
  cases start with
  | value name assign =>
    obtain ⟨semicolon, h⟩ := Option.ite_none_right_eq_some.mp h
    cases h
    exact .mk blocks (finished.snoc (.assignment name assign full semicolon)) .statement (by simp)
  | ifCond ifWord left =>
    obtain ⟨right, h⟩ := Option.ite_none_right_eq_some.mp h
    cases h
    exact .mk blocks finished (.block (.ifThen ifWord left full right)) (by simp)
  | whileCond whileWord left =>
    obtain ⟨right, h⟩ := Option.ite_none_right_eq_some.mp h
    cases h
    exact .mk blocks finished (.block (.whileDo whileWord left full right)) (by simp)
  | printed printWord left =>
    obtain ⟨right, h⟩ := Option.ite_none_right_eq_some.mp h
    cases h
    exact .mk blocks finished (.printed printWord left full right) (by simp)

lemma reads_takeOperand {mode : Mode} {slot : Slot} {parens : List Pending} {p : Pending}
    {ss ps qs : List Token} (blocks : ReadsFrames fs frames) (finished : Statements ds done)
    (start : ReadsSlot ss slot) (outer : ReadsParens ps parens) (waiting : ReadsPending qs p)
    (h : State.takeOperand ⟨frames, done, mode⟩ slot parens p t = some next) :
    Reads (fs ++ (ds ++ (ss ++ (ps ++ (qs ++ [t]))))) next := by
  unfold State.takeOperand at h
  split at h
  · rename_i name
    cases h
    exact .mk blocks finished (.operator start outer waiting (.name name)) rfl
  split at h
  · rename_i number
    cases h
    exact .mk blocks finished (.operator start outer waiting (.number number)) rfl
  split at h
  · rename_i left
    cases h
    exact .mk blocks finished (.operand start (.cons outer waiting left) readsPending_none)
      (by simp)
  · cases h

lemma reads_takeOperator {mode : Mode} {slot : Slot} {parens : List Pending} {p : Pending}
    {ss ps qs ts : List Token} {e : Expr} (blocks : ReadsFrames fs frames)
    (finished : Statements ds done) (start : ReadsSlot ss slot) (outer : ReadsParens ps parens)
    (waiting : ReadsPending qs p) (last : Expression .factor ts e)
    (h : State.takeOperator ⟨frames, done, mode⟩ slot parens p e t = some next) :
    Reads (fs ++ (ds ++ (ss ++ (ps ++ (qs ++ (ts ++ [t])))))) next := by
  have full := waiting.endExpr last
  obtain ⟨loose, middle, tight⟩ := waiting
  unfold State.takeOperator at h
  split at h
  · rename_i times
    cases h
    have product := tight.endProduct last
    exact .mk blocks finished (.operand start outer (.mk loose middle (.some product times)))
      (by simp)
  split at h
  · rename_i plus
    cases h
    have sum := middle.endSum (tight.endProduct last)
    exact .mk blocks finished (.operand start outer (.mk loose (.some sum plus) .none)) (by simp)
  split at h
  · rename_i comparator
    obtain ⟨comparator, free⟩ := comparator
    cases h
    cases loose with
    | none =>
      have sum := middle.endSum (tight.endProduct last)
      exact .mk blocks finished
        (.operand start outer (.mk (.some sum comparator) .none .none)) (by simp)
    | some => cases free
  cases outer with
  | nil => simpa using reads_fill blocks finished start full h
  | cons outer waiting left =>
    obtain ⟨right, h⟩ := Option.ite_none_right_eq_some.mp h
    cases h
    exact .mk blocks finished (.operator start outer waiting (.parens left full right)) (by simp)

/-- A step adds its token to what was read. -/
lemma reads_step {ts : List Token} {st : State} (reads : Reads ts st)
    (h : st.step t = some next) : Reads (ts ++ [t]) next := by
  obtain ⟨blocks, finished, current, rfl⟩ := reads
  cases current with
  | statement => simpa using reads_begin blocks finished h
  | declared intWord =>
    obtain ⟨name, h⟩ := Option.ite_none_right_eq_some.mp h
    cases h
    exact .mk blocks finished (.declaredName intWord name) (by simp)
  | declaredName intWord name =>
    obtain ⟨semicolon, h⟩ := Option.ite_none_right_eq_some.mp h
    cases h
    exact .mk blocks (finished.snoc (.declaration intWord name semicolon)) .statement (by simp)
  | assigned name =>
    obtain ⟨assign, h⟩ := Option.ite_none_right_eq_some.mp h
    cases h
    exact .mk blocks finished (.operand (.value name assign) .nil readsPending_none) (by simp)
  | ifWord ifWord =>
    obtain ⟨left, h⟩ := Option.ite_none_right_eq_some.mp h
    cases h
    exact .mk blocks finished (.operand (.ifCond ifWord left) .nil readsPending_none) (by simp)
  | whileWord whileWord =>
    obtain ⟨left, h⟩ := Option.ite_none_right_eq_some.mp h
    cases h
    exact .mk blocks finished (.operand (.whileCond whileWord left) .nil readsPending_none)
      (by simp)
  | printWord printWord =>
    obtain ⟨left, h⟩ := Option.ite_none_right_eq_some.mp h
    cases h
    exact .mk blocks finished (.operand (.printed printWord left) .nil readsPending_none)
      (by simp)
  | operand start outer waiting =>
    simpa using reads_takeOperand blocks finished start outer waiting h
  | operator start outer waiting last =>
    simpa using reads_takeOperator blocks finished start outer waiting last h
  | printed printWord left value right =>
    obtain ⟨semicolon, h⟩ := Option.ite_none_right_eq_some.mp h
    cases h
    exact .mk blocks (finished.snoc (.print printWord left value right semicolon)) .statement
      (by simp)
  | block before =>
    obtain ⟨left, h⟩ := Option.ite_none_right_eq_some.mp h
    cases h
    exact .mk (.cons blocks finished before left) .nil .statement (by simp)
  | ifBlock ifWord left cond right block =>
    change (if _ then _ else _) = _ at h
    split at h
    · rename_i elseWord
      cases h
      exact .mk blocks finished (.block (.ifElse ifWord left cond right block elseWord)) (by simp)
    · have settled := finished.snoc (.ifThen ifWord left cond right block)
      simpa using reads_begin blocks settled h

lemma reads_advance {ts us : List Token} {st last : State} (reads : Reads ts st)
    (h : st.advance us = some last) : Reads (ts ++ us) last := by
  induction us generalizing ts st with
  | nil =>
    cases h
    rwa [List.append_nil]
  | cons u us ih =>
    obtain ⟨mid, hstep, hrest⟩ := Option.bind_eq_some_iff.mp h
    simpa using ih (reads_step reads hstep) hrest

lemma statements_of_finish {ts : List Token} {st : State} {p : Program} (reads : Reads ts st)
    (h : st.finish = .ok p) : Statements ts p := by
  obtain ⟨blocks, finished, current, rfl⟩ := reads
  cases blocks with
  | nil =>
    cases current with
    | statement =>
      cases h
      simpa using finished
    | ifBlock ifWord left cond right block =>
      cases h
      exact finished.snoc (.ifThen ifWord left cond right block)
    | _ => cases h
  | cons => cases current <;> cases h

end Steps

end Parse

open Grammar

lemma parse_eq_ok_iff_run {ts : List Token} {p : Program} :
    parse ts = .ok p ↔ ∃ rest, Parse.State.initial.run ts = (.ok p, rest) := by
  unfold parse Parser.read Parser.ofTokens
  rcases Parse.State.initial.run ts with ⟨_ | q, rest⟩ <;> simp

lemma Parser.read_snd (p : Parser) :
    p.read.2 = ⟨p.tokens, (Parse.State.initial.run p.rest).2⟩ := by
  unfold read
  rcases Parse.State.initial.run p.rest with ⟨_ | q, rest⟩ <;> rfl

lemma statements_of_parse {ts : List Token} {p : Program} (noEnd : ∀ t ∈ ts, t.kind ≠ .eof)
    (h : parse ts = .ok p) : Statements ts p := by
  obtain ⟨rest, hrun⟩ := parse_eq_ok_iff_run.mp h
  obtain ⟨last, hadvance, hfinish⟩ := Parse.State.advance_of_run_eq_ok hrun noEnd
  exact Parse.statements_of_finish (Parse.reads_advance Parse.reads_initial hadvance) hfinish

lemma parse_of_statements {ts : List Token} {p : Program} (h : Statements ts p) :
    parse ts = .ok p := by
  obtain ⟨last, hadvance, rests⟩ := Parse.advance_statements Parse.between_statement h
  refine parse_eq_ok_iff_run.mpr ⟨[], (Parse.State.run_of_advance hadvance).trans ?_⟩
  rw [Parse.finish_of_between rests]
  rfl

/-- Whether there is a result with a property can be found out by evaluation. -/
instance decidableExistsOk {ε α : Type} (x : Except ε α) (P : α → Prop) [DecidablePred P] :
    Decidable (∃ a, x = .ok a ∧ P a) :=
  match x with
  | .error _ => isFalse fun ⟨_, h, _⟩ => nomatch h
  | .ok a => decidable_of_decidable_of_iff (p := P a)
    ⟨fun h => ⟨a, rfl, h⟩, fun ⟨_, h, p⟩ => Except.ok.inj h ▸ p⟩

/-- Parsing gives a program on exactly the token lists that spell it, and no token list
spells two programs. -/
theorem parse_eq_ok_iff_statements (ts : List Token) (noEnd : ∀ t ∈ ts, t.kind ≠ .eof) :
    (∀ p : Program, parse ts = .ok p ↔ Statements ts p) ∧
      ∀ p q : Program, Statements ts p → Statements ts q → p = q := by
  refine ⟨fun p => ⟨statements_of_parse noEnd, parse_of_statements⟩, ?_⟩
  intro p q hp hq
  exact Except.ok.inj ((parse_of_statements hp).symm.trans (parse_of_statements hq))

/-- The tokens of `x = a - 1 - (b < 2);`. -/
def differences : List Token :=
  [⟨.identifier, "x", 1, 1⟩, ⟨.assignOp, "=", 1, 3⟩, ⟨.identifier, "a", 1, 5⟩,
    ⟨.operator, "-", 1, 7⟩, ⟨.number, "1", 1, 9⟩, ⟨.operator, "-", 1, 11⟩,
    ⟨.leftParen, "(", 1, 13⟩, ⟨.identifier, "b", 1, 14⟩, ⟨.comparator, "<", 1, 16⟩,
    ⟨.number, "2", 1, 18⟩, ⟨.rightParen, ")", 1, 19⟩, ⟨.semicolon, ";", 1, 20⟩]

theorem statements_differences : ∃ p, parse differences = .ok p ∧
    Program.source p = utf8 "x = ((a - 1) - (b < 2));\n" ∧ Statements differences p ∧
    ∀ q, Statements differences q → q = p := by
  have noEnd : ∀ t ∈ differences, t.kind ≠ .eof := by decide
  obtain ⟨p, parsed, source⟩ : ∃ p, parse differences = .ok p ∧
      Program.source p = utf8 "x = ((a - 1) - (b < 2));\n" := by decide +kernel
  have spells : Statements differences p :=
    ((parse_eq_ok_iff_statements differences noEnd).1 p).mp parsed
  exact ⟨p, parsed, source, spells, fun q hq =>
    (parse_eq_ok_iff_statements differences noEnd).2 q p hq spells⟩

end ThreeAddress
