import ThreeAddress.Proofs.Lexemes
import ThreeAddress.Proofs.Parsing

/-!
# Syntax errors are found at once

Every state of the machine leads to the end of some program: the tokens that are missing
can be read off from the state (`State.missing`). So whatever was taken without an error
can be completed, and the first token that is refused is the first after which no program
is possible. A token list without such a token can only be too short.
-/

namespace ThreeAddress

/-- Some further tokens of the kind that sources have make a program of the list. -/
def Viable (ts : List Token) : Prop :=
  ∃ us : List Token, (∀ u ∈ us, u.kind.Admits u.lexeme) ∧ ∃ p, parse (ts ++ us) = .ok p

namespace Parse

/-- A token that stands for its kind. -/
def filler : Kind → Token
  | .identifier => ⟨.identifier, "x", 0, 0⟩
  | .number => ⟨.number, "0", 0, 0⟩
  | .assignOp => ⟨.assignOp, "=", 0, 0⟩
  | .semicolon => ⟨.semicolon, ";", 0, 0⟩
  | .leftParen => ⟨.leftParen, "(", 0, 0⟩
  | .rightParen => ⟨.rightParen, ")", 0, 0⟩
  | .leftBrace => ⟨.leftBrace, "\x7b", 0, 0⟩
  | .rightBrace => ⟨.rightBrace, "\x7d", 0, 0⟩
  | k => ⟨k, [], 0, 0⟩

@[simp] lemma kind_filler (k : Kind) : (filler k).kind = k := by
  cases k <;> rfl

/-- The kinds that complete a statement behind the expression in its slot. -/
def Slot.missing : Slot → List Kind
  | value _ => [.semicolon]
  | ifCond _ => [.rightParen, .leftBrace, .rightBrace]
  | whileCond _ => [.rightParen, .leftBrace, .rightBrace]
  | printed _ => [.rightParen, .semicolon]

/-- The kinds that complete a statement behind an operand inside some parentheses. -/
def Slot.missingBehind (slot : Slot) (parens : List Pending) : List Kind :=
  parens.map (fun _ => Kind.rightParen) ++ slot.missing

/-- The kinds that complete the statement at hand. -/
def Mode.missing : Mode → List Kind
  | statement => []
  | declared _ => [.identifier, .semicolon]
  | declaredName .. => [.semicolon]
  | assigned name => .assignOp :: .number :: (Slot.value name).missing
  | ifWord token => .leftParen :: .number :: (Slot.ifCond token).missing
  | whileWord token => .leftParen :: .number :: (Slot.whileCond token).missing
  | printWord token => .leftParen :: .number :: (Slot.printed token).missing
  | operand slot parens _ => .number :: slot.missingBehind parens
  | operator slot parens .. => slot.missingBehind parens
  | printed .. => [.semicolon]
  | block _ => [.leftBrace, .rightBrace]
  | ifBlock .. => []

/-- The kinds that complete the program: the rest of the statement, then a brace for each
open block. -/
def State.missing (st : State) : List Kind :=
  st.mode.missing ++ st.frames.map fun _ => Kind.rightBrace

/-- Tokens of those kinds lead behind a statement, with those blocks open. -/
def State.Completes (st : State) (frames : List Frame) (ks : List Kind) : Prop :=
  ∃ next done, st.advance (ks.map filler) = some next ∧ next.Between frames done

section Completion

variable {st next : State} {frames : List Frame} {done : List Stmt} {ks : List Kind} {k : Kind}

lemma completes_nil (h : st.Between frames done) : st.Completes frames [] :=
  ⟨st, done, rfl, h⟩

lemma completes_cons (step : st.step (filler k) = some next) (rest : next.Completes frames ks) :
    st.Completes frames (k :: ks) := by
  obtain ⟨last, done, advanced, between⟩ := rest
  exact ⟨last, done, (State.advance_cons_of_step step _).trans advanced, between⟩

lemma exists_close (f : Frame) (frames : List Frame) (done : List Stmt) : ∃ next before,
    State.close ⟨f :: frames, done, .statement⟩ = some next ∧ next.Between frames before := by
  obtain ⟨owner, brace, before⟩ := f
  cases owner with
  | ifThen token cond => exact ⟨_, _, rfl, rfl⟩
  | ifElse token cond ifBrace body => exact ⟨_, _, rfl, rfl⟩
  | whileDo token cond => exact ⟨_, _, rfl, rfl⟩

lemma completes_block (owner : Owner) :
    State.Completes ⟨frames, done, .block owner⟩ frames [.leftBrace, .rightBrace] := by
  obtain ⟨next, before, closed, between⟩ := exists_close ⟨owner, filler .leftBrace, done⟩ frames []
  refine completes_cons (step_leftBrace (kind_filler .leftBrace)) ?_
  refine completes_cons ?_ (completes_nil between)
  exact (step_rightBrace between_statement (kind_filler .rightBrace)).trans closed

/-- Behind a complete expression the statement can be completed. -/
lemma completes_slot (slot : Slot) (p : Pending) (e : Expr) :
    State.Completes ⟨frames, done, .operator slot [] p e⟩ frames slot.missing := by
  have fill (k : Kind) (ho : k ≠ .operator) (hc : k ≠ .comparator) :
      State.step ⟨frames, done, .operator slot [] p e⟩ (filler k) =
        State.fill ⟨frames, done, .operator slot [] p e⟩ slot (p.endExpr e) (filler k) :=
    step_fill (by simpa using ho) (by simpa using hc)
  cases slot with
  | value name =>
    exact completes_cons (fill .semicolon (by decide) (by decide)) (completes_nil between_statement)
  | ifCond token =>
    exact completes_cons (fill .rightParen (by decide) (by decide)) (completes_block _)
  | whileCond token =>
    exact completes_cons (fill .rightParen (by decide) (by decide)) (completes_block _)
  | printed token =>
    refine completes_cons (fill .rightParen (by decide) (by decide)) ?_
    exact completes_cons (step_printed (kind_filler .semicolon)) (completes_nil between_statement)

/-- Behind an operand the open parentheses can be closed, then the statement completed. -/
lemma completes_operator (slot : Slot) (parens : List Pending) (p : Pending) (e : Expr) :
    State.Completes ⟨frames, done, .operator slot parens p e⟩ frames
      (slot.missingBehind parens) := by
  induction parens generalizing p e with
  | nil => exact completes_slot slot p e
  | cons outer parens ih =>
    exact completes_cons (step_rightParen (kind_filler .rightParen)) (ih outer (p.endExpr e))

lemma completes_operand (slot : Slot) (parens : List Pending) (p : Pending) :
    State.Completes ⟨frames, done, .operand slot parens p⟩ frames
      (.number :: slot.missingBehind parens) :=
  completes_cons (step_number (kind_filler .number)) (completes_operator slot parens p _)

/-- Whatever the machine is in the middle of, the statement at hand can be completed. -/
lemma completes_missing (frames : List Frame) (done : List Stmt) (mode : Mode) :
    State.Completes ⟨frames, done, mode⟩ frames mode.missing := by
  cases mode with
  | statement => exact completes_nil between_statement
  | declared token =>
    refine completes_cons (step_declared (kind_filler .identifier)) ?_
    exact completes_cons (step_declaredName (kind_filler .semicolon))
      (completes_nil between_statement)
  | declaredName token name =>
    exact completes_cons (step_declaredName (kind_filler .semicolon))
      (completes_nil between_statement)
  | assigned name =>
    exact completes_cons (step_assigned (kind_filler .assignOp)) (completes_operand _ [] _)
  | ifWord token =>
    exact completes_cons (step_ifWord (kind_filler .leftParen)) (completes_operand _ [] _)
  | whileWord token =>
    exact completes_cons (step_whileWord (kind_filler .leftParen)) (completes_operand _ [] _)
  | printWord token =>
    exact completes_cons (step_printWord (kind_filler .leftParen)) (completes_operand _ [] _)
  | operand slot parens p => exact completes_operand slot parens p
  | operator slot parens p e => exact completes_operator slot parens p e
  | printed token value =>
    exact completes_cons (step_printed (kind_filler .semicolon)) (completes_nil between_statement)
  | block owner => exact completes_block owner
  | ifBlock token cond brace body => exact ⟨_, _, rfl, rfl⟩

/-- Closing braces lead out of all the open blocks. -/
lemma exists_advance_braces (h : st.Between frames done) : ∃ last p,
    st.advance ((frames.map fun _ => Kind.rightBrace).map filler) = some last ∧
      last.finish = .ok p := by
  induction frames generalizing st done with
  | nil => exact ⟨st, done, rfl, finish_of_between h⟩
  | cons f frames ih =>
    obtain ⟨next, before, closed, between⟩ := exists_close f frames done
    obtain ⟨last, p, rest, finished⟩ := ih between
    have step := (step_rightBrace h (kind_filler .rightBrace)).trans closed
    exact ⟨last, p, (State.advance_cons_of_step step _).trans rest, finished⟩

/-- The missing tokens of a state lead to the end of a program. -/
lemma exists_advance_missing (st : State) : ∃ last p,
    st.advance (st.missing.map filler) = some last ∧ last.finish = .ok p := by
  obtain ⟨frames, done, mode⟩ := st
  obtain ⟨next, before, completed, between⟩ := completes_missing frames done mode
  obtain ⟨last, p, closed, finished⟩ := exists_advance_braces between
  refine ⟨last, p, ?_, finished⟩
  rw [State.missing, List.map_append, State.advance_append_of_advance completed]
  exact closed

end Completion

/-- The kinds that may be missing. -/
def fillers : List Kind :=
  [.identifier, .number, .assignOp, .semicolon, .leftParen, .rightParen, .leftBrace, .rightBrace]

lemma admits_filler {k : Kind} (h : k ∈ fillers) : k.Admits (filler k).lexeme := by
  have word : IsWord (utf8 "x") := ⟨120, [], by decide, by decide, by simp⟩
  simp only [fillers, List.mem_cons, List.not_mem_nil, or_false] at h
  rcases h with rfl | rfl | rfl | rfl | rfl | rfl | rfl | rfl
  · exact ⟨word, by decide⟩
  · show IsNumeral (utf8 "0")
    decide +kernel
  all_goals rfl

lemma Slot.mem_fillers_of_mem_missingBehind (slot : Slot) (parens : List Pending) :
    ∀ k ∈ slot.missingBehind parens, k ∈ fillers := by
  have close : Kind.rightParen ∈ fillers := by decide
  simp only [missingBehind, List.forall_mem_append, List.forall_mem_map]
  refine ⟨fun _ _ => close, ?_⟩
  cases slot <;> simp only [missing] <;> decide

lemma Mode.mem_fillers_of_mem_missing (mode : Mode) : ∀ k ∈ mode.missing, k ∈ fillers := by
  cases mode with
  | operand slot parens p =>
    rw [missing, List.forall_mem_cons]
    exact ⟨by decide, slot.mem_fillers_of_mem_missingBehind parens⟩
  | operator slot parens p e => exact slot.mem_fillers_of_mem_missingBehind parens
  | _ =>
    simp only [missing, Slot.missing]
    decide

lemma State.mem_fillers_of_mem_missing (st : State) : ∀ k ∈ st.missing, k ∈ fillers := by
  have close : Kind.rightBrace ∈ fillers := by decide
  simp only [missing, List.forall_mem_append, List.forall_mem_map]
  exact ⟨st.mode.mem_fillers_of_mem_missing, fun _ _ => close⟩

namespace State

/-- A run without an end mark that gives an error has taken all its tokens and misses more,
or has met a token that does not fit. -/
lemma advance_of_run_eq_error {st : State} {ts rest : List Token} {expected : Expectation}
    (h : st.run ts = (.error expected, rest)) (noEnd : ∀ t ∈ ts, t.kind ≠ .eof) :
    (rest = [] ∧ ∃ last, st.advance ts = some last) ∨
    ∃ before t after last, ts = before ++ t :: after ∧ rest = t :: after ∧
      st.advance before = some last ∧ last.step t = none ∧ last.mode.expectation = expected := by
  rcases st.run_cases noEnd with
    ⟨last, taken, run⟩ | ⟨before, t, after, last, split, taken, refused, run⟩
  · exact Or.inl ⟨(Prod.mk.inj (run.symm.trans h)).2.symm, last, taken⟩
  · cases run.symm.trans h
    exact Or.inr ⟨before, t, after, last, split, rfl, taken, refused, rfl⟩

/-- What a run to a program begins with runs to a program as well, or takes all tokens and
misses more. -/
lemma run_of_run_append {st : State} {us vs rest : List Token} {p : Program}
    (h : st.run (us ++ vs) = (.ok p, rest)) :
    (∃ q left, st.run us = (.ok q, left)) ∨ ∃ expected, st.run us = (.error expected, []) := by
  induction us generalizing st with
  | nil =>
    rw [run]
    cases st.finish with
    | ok q => exact Or.inl ⟨q, [], rfl⟩
    | error expected => exact Or.inr ⟨expected, rfl⟩
  | cons u us ih =>
    rw [List.cons_append, run] at h
    rw [run]
    cases hstep : st.step u with
    | none =>
      rw [hstep] at h
      exact Or.inl ⟨p, u :: us, by rw [← (Prod.mk.inj h).1]⟩
    | some next =>
      rw [hstep] at h
      exact ih h

end State
end Parse

section Errors

variable {ts : List Token} {e : SyntaxError} {last : Parse.State}

/-- Whatever the machine takes can be completed. -/
lemma viable_of_advance (h : Parse.State.initial.advance ts = some last) : Viable ts := by
  obtain ⟨stop, p, completed, finished⟩ := Parse.exists_advance_missing last
  have admitted : ∀ u ∈ last.missing.map Parse.filler, u.kind.Admits u.lexeme := by
    intro u hu
    obtain ⟨k, hk, rfl⟩ := List.mem_map.mp hu
    rw [Parse.kind_filler]
    exact Parse.admits_filler (last.mem_fillers_of_mem_missing k hk)
  refine ⟨last.missing.map Parse.filler, admitted, p, parse_eq_ok_iff_run.mpr ⟨[], ?_⟩⟩
  rw [Parse.State.run_append_of_advance h, Parse.State.run_of_advance completed, finished]

lemma Parser.read_of_run_eq_error {p : Parser} {expected : Expectation} {rest : List Token}
    (h : Parse.State.initial.run p.rest = (.error expected, rest)) :
    p.read = (.error ⟨expected, rest.head?.getD (endOf p.tokens)⟩, ⟨p.tokens, rest⟩) := by
  simp [read, h]

lemma parse_of_run_eq_error {rest : List Token} {expected : Expectation}
    (h : Parse.State.initial.run ts = (.error expected, rest)) :
    parse ts = .error ⟨expected, rest.head?.getD (endOf ts)⟩ :=
  congrArg Prod.fst (Parser.read_of_run_eq_error h)

/-- A token that does not fit is reported, whatever follows it. -/
lemma parse_of_refused {t : Token} (h : Parse.State.initial.advance ts = some last)
    (ht : t.kind ≠ .eof) (refused : last.step t = none) (us : List Token) :
    parse (ts ++ t :: us) = .error ⟨last.mode.expectation, t⟩ := by
  have stopped : Parse.State.initial.run (ts ++ t :: us) =
      (.error last.mode.expectation, t :: us) := by
    rw [Parse.State.run_append_of_advance h, Parse.State.run_of_refused ht refused]
  exact parse_of_run_eq_error stopped

lemma exists_run_of_parse_eq_error (h : parse ts = .error e) : ∃ rest,
    Parse.State.initial.run ts = (.error e.expected, rest) ∧
      e.token = rest.head?.getD (endOf ts) := by
  unfold parse Parser.read Parser.ofTokens at h
  cases run : Parse.State.initial.run ts with
  | mk result rest =>
    cases result with
    | ok p => simp [run] at h
    | error expected =>
      simp only [run, Except.error.injEq] at h
      subst h
      exact ⟨rest, rfl, rfl⟩

lemma kind_endOf (ts : List Token) : (endOf ts).kind = .eof := by
  unfold endOf
  split <;> rfl

/-- An error that is not at the end is at the first token that does not fit. -/
lemma exists_refused (noEnd : ∀ t ∈ ts, t.kind ≠ .eof) (h : parse ts = .error e)
    (inside : ¬ e.AtEnd) : ∃ before after last, ts = before ++ e.token :: after ∧
      Parse.State.initial.advance before = some last ∧ last.step e.token = none ∧
      last.mode.expectation = e.expected := by
  obtain ⟨rest, run, token⟩ := exists_run_of_parse_eq_error h
  rcases Parse.State.advance_of_run_eq_error run noEnd with
    ⟨rfl, _⟩ | ⟨before, t, after, last, split, rfl, advanced, refused, expected⟩
  · rw [SyntaxError.AtEnd, token] at inside
    exact absurd (kind_endOf ts) inside
  · cases token
    exact ⟨before, after, last, split, advanced, refused, expected⟩

/-- An error at the end comes after all tokens have been taken. -/
lemma exists_advance_of_atEnd (noEnd : ∀ t ∈ ts, t.kind ≠ .eof) (h : parse ts = .error e)
    (atEnd : e.AtEnd) :
    e.token = endOf ts ∧ ∃ last, Parse.State.initial.advance ts = some last := by
  obtain ⟨rest, run, token⟩ := exists_run_of_parse_eq_error h
  rcases Parse.State.advance_of_run_eq_error run noEnd with
    ⟨rfl, advanced⟩ | ⟨before, t, after, last, split, rfl, _⟩
  · exact ⟨token, advanced⟩
  · have mem : t ∈ ts := by simp [split]
    rw [SyntaxError.AtEnd, token] at atEnd
    exact absurd atEnd (noEnd t mem)

/-- A list that a program begins with is a program or ends too early. -/
lemma parse_beginning {us : List Token} {p : Program} (begins : us <+: ts)
    (h : parse ts = .ok p) :
    (∃ q, parse us = .ok q) ∨ ∃ e, parse us = .error e ∧ e.AtEnd := by
  obtain ⟨vs, rfl⟩ := begins
  obtain ⟨rest, run⟩ := parse_eq_ok_iff_run.mp h
  rcases Parse.State.run_of_run_append run with ⟨q, left, whole⟩ | ⟨expected, short⟩
  · exact Or.inl ⟨q, parse_eq_ok_iff_run.mpr ⟨left, whole⟩⟩
  · refine Or.inr ⟨⟨expected, endOf us⟩, ?_, kind_endOf us⟩
    exact parse_of_run_eq_error short

end Errors

/-- A syntax error is at the first token after which no program is possible: what stands
before it can be completed, and nothing that follows it makes a difference. An error at the
end says that more tokens are needed, and that some would do. So no list that a program
begins with has an error inside. -/
theorem parse_error_earliest :
    (∀ (ts : List Token) (e : SyntaxError), (∀ t ∈ ts, t.kind ≠ .eof) → parse ts = .error e →
      (¬ e.AtEnd → ∃ i, ts[i]? = some e.token ∧ Viable (ts.take i) ∧
        ∀ us, ts.take (i + 1) <+: us → parse us = .error e) ∧
      (e.AtEnd → Viable ts ∧ ∃ last, ts.getLast? = some last ∧
        e.token = ⟨.eof, [], last.line, last.endColumn⟩ ∧
        (-0x8000000000000000 ≤ last.column + last.lexeme.length →
          last.column + last.lexeme.length < 0x8000000000000000 →
          last.endColumn = last.column + last.lexeme.length))) ∧
    ∀ (ts us : List Token) (p : Program), us <+: ts → parse ts = .ok p →
      (∃ q, parse us = .ok q) ∨ ∃ e, parse us = .error e ∧ e.AtEnd := by
  refine ⟨fun ts e noEnd failed => ⟨fun inside => ?_, fun atEnd => ?_⟩, ?_⟩
  · obtain ⟨before, after, last, rfl, advanced, refused, expected⟩ :=
      exists_refused noEnd failed inside
    rw [List.forall_mem_append, List.forall_mem_cons] at noEnd
    refine ⟨before.length, by simp, ?_, ?_⟩
    · rw [List.take_left]
      exact viable_of_advance advanced
    · rintro us ⟨vs, rfl⟩
      have split : (before ++ e.token :: after).take (before.length + 1) ++ vs =
          before ++ e.token :: vs := by
        simp [List.take_append, List.take_of_length_le]
      rw [split, parse_of_refused advanced noEnd.2.1 refused vs, expected]
  · obtain ⟨token, last, advanced⟩ := exists_advance_of_atEnd noEnd failed atEnd
    refine ⟨viable_of_advance advanced, ?_⟩
    cases hlast : ts.getLast? with
    | none =>
      rw [List.getLast?_eq_none_iff] at hlast
      subst hlast
      cases failed
    | some t => exact ⟨t, rfl, by rw [token, endOf, hlast], Token.endColumn_eq⟩
  · intro ts us p begins parsed
    exact parse_beginning begins parsed

/-- The tokens of `print(a < b < c`. -/
def comparisons : List Token :=
  [⟨.keyword, "print", 1, 1⟩, ⟨.leftParen, "(", 1, 6⟩, ⟨.identifier, "a", 1, 7⟩,
    ⟨.comparator, "<", 1, 9⟩, ⟨.identifier, "b", 1, 11⟩, ⟨.comparator, "<", 1, 13⟩,
    ⟨.identifier, "c", 1, 15⟩]

/-- A second comparison is an error wherever it leads to, and what stands before it is not. -/
theorem parse_error_earliest_comparisons :
    (parse comparisons = .error ⟨.expressionClose, ⟨.comparator, "<", 1, 13⟩⟩ ∧
      ∃ i, comparisons[i]? = some ⟨.comparator, "<", 1, 13⟩ ∧ Viable (comparisons.take i) ∧
        ∀ us, comparisons.take (i + 1) <+: us →
          parse us = .error ⟨.expressionClose, ⟨.comparator, "<", 1, 13⟩⟩) ∧
    (parse (comparisons.take 5) = .error ⟨.expressionClose, ⟨.eof, [], 1, 12⟩⟩ ∧
      Viable (comparisons.take 5)) := by
  have inside : parse comparisons = .error ⟨.expressionClose, ⟨.comparator, "<", 1, 13⟩⟩ := rfl
  have short : parse (comparisons.take 5) = .error ⟨.expressionClose, ⟨.eof, [], 1, 12⟩⟩ := rfl
  have noEnd : ∀ t ∈ comparisons, t.kind ≠ .eof := by decide
  refine ⟨⟨inside, ?_⟩, short, ?_⟩
  · exact (parse_error_earliest.1 comparisons _ noEnd inside).1 (by decide)
  · have noEndShort : ∀ t ∈ comparisons.take 5, t.kind ≠ .eof := by decide
    exact ((parse_error_earliest.1 (comparisons.take 5) _ noEndShort short).2 rfl).1

end ThreeAddress
