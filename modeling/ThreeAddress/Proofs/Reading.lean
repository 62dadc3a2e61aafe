import ThreeAddress.Proofs.Grammar
import ThreeAddress.Syntax.Parse

/-!
# The machine reads what the grammar spells

Feeding the tokens of a phrase takes the machine from the state where the phrase is due
to the state behind it. Behind an operand the machine keeps the operations that are not
complete yet, so a level of the grammar is read once its pending operations are joined
(`Pending.HasRead`). Behind the block of an `if` it waits for an `else`, and any other
statement settles the `if` first (`State.settle`).
-/

namespace ThreeAddress.Parse

open Grammar

namespace State

/-- Takes the tokens one after another, or `none` where one does not fit. -/
def advance (st : State) : List Token → Option State
  | [] => some st
  | t :: ts => (st.step t).bind fun next => next.advance ts

lemma advance_cons (st : State) (t : Token) (ts : List Token) :
    st.advance (t :: ts) = (st.step t).bind fun next => next.advance ts := rfl

lemma advance_cons_of_step {st next : State} {t : Token} (h : st.step t = some next)
    (ts : List Token) : st.advance (t :: ts) = next.advance ts := by
  rw [advance_cons, h, Option.bind_some]

lemma advance_append (st : State) (ts us : List Token) :
    st.advance (ts ++ us) = (st.advance ts).bind fun next => next.advance us := by
  induction ts generalizing st with
  | nil => rfl
  | cons t ts ih =>
    rw [List.cons_append, advance_cons, advance_cons]
    cases st.step t with
    | none => rfl
    | some next => exact ih next

lemma advance_append_of_advance {st next : State} {ts : List Token} (h : st.advance ts = some next)
    (us : List Token) : st.advance (ts ++ us) = next.advance us := by
  rw [advance_append, h, Option.bind_some]

section Ends

variable {st : State} {t : Token} (ends : t.kind = .eof)
include ends

lemma begin_of_eof : st.begin t = none := by
  simp [begin, Token.Is, ends]

lemma fill_of_eof (slot : Slot) (e : Expr) : st.fill slot e t = none := by
  cases slot <;> simp [fill, ends]

lemma takeOperand_of_eof (slot : Slot) (parens : List Pending) (pending : Pending) :
    st.takeOperand slot parens pending t = none := by
  simp [takeOperand, ends]

lemma takeOperator_of_eof (slot : Slot) (parens : List Pending) (pending : Pending) (e : Expr) :
    st.takeOperator slot parens pending e t = none := by
  cases parens with
  | nil => simp [takeOperator, Token.Is, ends, fill_of_eof ends]
  | cons => simp [takeOperator, Token.Is, ends]

/-- The grammar has no place for an end token, whatever the machine is in the middle of. -/
lemma step_of_eof : st.step t = none := by
  obtain ⟨frames, done, mode⟩ := st
  cases mode with
  | statement => exact begin_of_eof ends
  | operand slot parens pending => exact takeOperand_of_eof ends slot parens pending
  | operator slot parens pending e => exact takeOperator_of_eof ends slot parens pending e
  | ifBlock => simp [step, Token.Is, ends, begin_of_eof ends]
  | declared | declaredName | assigned | ifWord | whileWord | printWord | printed | block =>
    simp [step, ends]

end Ends

lemma kind_ne_eof_of_step {st next : State} {t : Token} (h : st.step t = some next) :
    t.kind ≠ .eof := by
  intro ends
  cases (step_of_eof ends).symm.trans h

/-- A run goes on from where its first tokens lead. -/
lemma run_append_of_advance {st next : State} {ts : List Token} (h : st.advance ts = some next)
    (us : List Token) : st.run (ts ++ us) = next.run us := by
  induction ts generalizing st with
  | nil =>
    cases h
    rfl
  | cons t ts ih =>
    rw [advance_cons] at h
    obtain ⟨mid, hstep, hrest⟩ := Option.bind_eq_some_iff.mp h
    rw [List.cons_append, run, hstep]
    exact ih hrest

/-- A run that takes all its tokens ends in the state they lead to. -/
lemma run_of_advance {st last : State} {ts : List Token} (h : st.advance ts = some last) :
    st.run ts = (last.finish, []) := by
  have whole := run_append_of_advance h []
  rwa [List.append_nil] at whole

/-- A run stops at an end at once. -/
lemma run_of_atEnd (st : State) {ts : List Token} (h : ∀ t ∈ ts.head?, t.kind = .eof) :
    st.run ts = (st.finish, ts) := by
  cases ts with
  | nil => rfl
  | cons t ts => rw [run, step_of_eof (h t rfl), if_pos (h t rfl)]

lemma run_of_refused {st : State} {t : Token} (within : t.kind ≠ .eof) (unfit : st.step t = none)
    (ts : List Token) : st.run (t :: ts) = (.error st.mode.expectation, t :: ts) := by
  rw [run, unfit, if_neg within]

/-- A run stops at an end token as it stops at the end of its tokens. -/
lemma run_append_end (st : State) (before : List Token) {stop : Token} (ends : stop.kind = .eof)
    (after : List Token) :
    st.run (before ++ stop :: after) = ((st.run before).1, (st.run before).2 ++ stop :: after) := by
  induction before generalizing st with
  | nil => exact st.run_of_atEnd (by simpa using ends)
  | cons t ts ih =>
    rw [List.cons_append, run, run]
    cases st.step t with
    | none => rfl
    | some next => exact ih next

/-- What a run comes to that has taken the tokens `before`: it meets an end and tells the
program or what is missing, or it meets a token that does not fit. -/
inductive Stops (st : State) (before : List Token) (outcome : Except Expectation Program)
    (rest : List Token) : Prop where
  | atEnd {last : State} (taken : st.advance before = some last)
      (finished : last.finish = outcome) (ends : ∀ t ∈ rest.head?, t.kind = .eof)
  | refused {last : State} {t : Token} {after : List Token} (taken : st.advance before = some last)
      (here : rest = t :: after) (within : t.kind ≠ .eof) (unfit : last.step t = none)
      (expected : outcome = .error last.mode.expectation)

section Stops

variable {st next : State} {t : Token} {before rest : List Token}
  {outcome : Except Expectation Program}

lemma Stops.cons (step : st.step t = some next) (h : next.Stops before outcome rest) :
    st.Stops (t :: before) outcome rest := by
  have more {last : State} (taken : next.advance before = some last) :
      st.advance (t :: before) = some last :=
    (advance_cons_of_step step before).trans taken
  cases h with
  | atEnd taken finished ends => exact .atEnd (more taken) finished ends
  | refused taken here within unfit expected =>
    exact .refused (more taken) here within unfit expected

/-- A run takes some tokens, none of them an end mark, and stops right behind them. -/
lemma exists_stops (st : State) (ts : List Token) : ∃ before,
    ts = before ++ (st.run ts).2 ∧ (∀ t ∈ before, t.kind ≠ .eof) ∧
      st.Stops before (st.run ts).1 (st.run ts).2 := by
  induction ts generalizing st with
  | nil => exact ⟨[], rfl, by simp, .atEnd rfl rfl (by simp [run])⟩
  | cons t ts ih =>
    cases step : st.step t with
    | some next =>
      obtain ⟨before, split, noEnd, stops⟩ := ih next
      rw [run, step]
      refine ⟨t :: before, congrArg (t :: ·) split, ?_, stops.cons step⟩
      exact List.forall_mem_cons.mpr ⟨kind_ne_eof_of_step step, noEnd⟩
    | none =>
      by_cases ends : t.kind = .eof
      · rw [st.run_of_atEnd (by simpa using ends)]
        exact ⟨[], rfl, by simp, .atEnd rfl rfl (by simpa using ends)⟩
      · rw [run_of_refused ends step]
        exact ⟨[], rfl, by simp, .refused rfl rfl ends step rfl⟩

lemma run_suffix (st : State) (ts : List Token) : (st.run ts).2 <:+ ts := by
  obtain ⟨before, split, _⟩ := st.exists_stops ts
  exact ⟨before, split.symm⟩

end Stops

/-- A run without an end mark takes all its tokens, or meets one that does not fit. -/
lemma run_cases (st : State) {ts : List Token} (noEnd : ∀ t ∈ ts, t.kind ≠ .eof) :
    (∃ last, st.advance ts = some last ∧ st.run ts = (last.finish, [])) ∨
    ∃ before t after last, ts = before ++ t :: after ∧ st.advance before = some last ∧
      last.step t = none ∧ st.run ts = (.error last.mode.expectation, t :: after) := by
  obtain ⟨before, split, _, stops⟩ := st.exists_stops ts
  rcases run : st.run ts with ⟨outcome, rest⟩
  rw [run] at split stops
  dsimp only at split stops
  cases stops with
  | atEnd taken finished ends =>
    cases rest with
    | nil =>
      rw [List.append_nil] at split
      exact Or.inl ⟨_, split ▸ taken, by rw [finished]⟩
    | cons t after => exact absurd (ends t rfl) (noEnd t (by simp [split]))
  | refused taken here _ unfit expected =>
    subst here expected
    exact Or.inr ⟨before, _, _, _, split, taken, unfit, rfl⟩

/-- A run without an end mark that gives a program has taken all its tokens. -/
lemma advance_of_run_eq_ok {st : State} {ts rest : List Token} {p : Program}
    (h : st.run ts = (.ok p, rest)) (noEnd : ∀ t ∈ ts, t.kind ≠ .eof) :
    ∃ last, st.advance ts = some last ∧ last.finish = .ok p := by
  rcases st.run_cases noEnd with ⟨last, taken, run⟩ | ⟨before, t, after, last, _, _, _, run⟩
  · exact ⟨last, taken, (Prod.mk.inj (run.symm.trans h)).1⟩
  · cases run.symm.trans h

end State

section Expressions

variable {frames : List Frame} {done : List Stmt} {slot : Slot} {parens : List Pending}
  {p : Pending} {e : Expr} {t : Token}

lemma not_isTimes_of_isPlus (h : IsPlus t) : ¬ IsTimes t := by
  rintro (times | times) <;> rcases h with plus | plus <;>
    exact absurd (plus.2.symm.trans times.2) (by decide)

lemma not_isTimes_of_kind (h : t.kind ≠ .operator) : ¬ IsTimes t :=
  fun times => h times.kind

lemma not_isPlus_of_kind (h : t.kind ≠ .operator) : ¬ IsPlus t :=
  fun plus => h plus.kind

lemma step_name (h : t.kind = .identifier) :
    State.step ⟨frames, done, .operand slot parens p⟩ t =
      some ⟨frames, done, .operator slot parens p (.var (.ofToken t))⟩ := by
  simp [State.step, State.takeOperand, h]

lemma step_number (h : t.kind = .number) :
    State.step ⟨frames, done, .operand slot parens p⟩ t =
      some ⟨frames, done, .operator slot parens p (.num t t.lexeme)⟩ := by
  simp [State.step, State.takeOperand, h]

lemma step_leftParen (h : t.kind = .leftParen) :
    State.step ⟨frames, done, .operand slot parens p⟩ t =
      some ⟨frames, done, .operand slot (p :: parens) .none⟩ := by
  simp [State.step, State.takeOperand, State.await, h]

lemma step_times (h : IsTimes t) :
    State.step ⟨frames, done, .operator slot parens p e⟩ t =
      some ⟨frames, done, .operand slot parens
        { p with product := some (p.endProduct e, t) }⟩ := by
  unfold State.step State.takeOperator
  exact if_pos h

lemma step_plus (h : IsPlus t) :
    State.step ⟨frames, done, .operator slot parens p e⟩ t =
      some ⟨frames, done, .operand slot parens
        { p with sum := some (p.endSum e, t), product := none }⟩ := by
  unfold State.step State.takeOperator
  exact (if_neg (not_isTimes_of_isPlus h)).trans (if_pos h)

lemma step_comparator (h : t.kind = .comparator) (free : p.comparison = none) :
    State.step ⟨frames, done, .operator slot parens p e⟩ t =
      some ⟨frames, done, .operand slot parens
        ⟨some (p.endSum e, t), none, none⟩⟩ := by
  have ho : t.kind ≠ .operator := by simp [h]
  unfold State.step State.takeOperator
  exact (if_neg (not_isTimes_of_kind ho)).trans
    ((if_neg (not_isPlus_of_kind ho)).trans (if_pos ⟨h, free⟩))

/-- Behind a token that joins nothing the expression is complete. -/
lemma takeOperator_of_kind {st : State} (ho : t.kind ≠ .operator) (hc : t.kind ≠ .comparator) :
    st.takeOperator slot parens p e t =
      match parens with
      | [] => st.fill slot (p.endExpr e) t
      | outer :: parens =>
        if t.kind = .rightParen then
          some { st with mode := .operator slot parens outer (p.endExpr e) }
        else none := by
  unfold State.takeOperator
  exact (if_neg (not_isTimes_of_kind ho)).trans
    ((if_neg (not_isPlus_of_kind ho)).trans (if_neg fun h => hc h.1))

lemma step_rightParen {outer : Pending} (h : t.kind = .rightParen) :
    State.step ⟨frames, done, .operator slot (outer :: parens) p e⟩ t =
      some ⟨frames, done, .operator slot parens outer (p.endExpr e)⟩ := by
  exact (takeOperator_of_kind (by simp [h]) (by simp [h])).trans (if_pos h)

lemma step_fill (ho : t.kind ≠ .operator) (hc : t.kind ≠ .comparator) :
    State.step ⟨frames, done, .operator slot [] p e⟩ t =
      State.fill ⟨frames, done, .operator slot [] p e⟩ slot (p.endExpr e) t := by
  exact takeOperator_of_kind ho hc

namespace Pending

/-- A phrase of the level may begin: nothing waits on this level or a tighter one. -/
def Free (p : Pending) : Level → Prop
  | .factor => True
  | .term => p.product = Option.none
  | .arith => p.sum = Option.none ∧ p.product = Option.none
  | .expr => p = none

/-- Behind the operand `last`, with `q` pending, a phrase of the level that began with `p`
pending is read as `e`. What waits on looser levels is untouched. -/
def HasRead (p q : Pending) (last : Expr) : Level → Expr → Prop
  | .factor, e => q = p ∧ last = e
  | .term, e => q.comparison = p.comparison ∧ q.sum = p.sum ∧ q.endProduct last = e
  | .arith, e => q.comparison = p.comparison ∧ q.endSum last = e
  | .expr, e => q.endExpr last = e

end Pending

/-- The machine reads what the grammar spells as an expression. -/
lemma advance_expression {level : Level} {ts : List Token} (h : Expression level ts e) :
    ∀ (parens : List Pending) {p : Pending}, p.Free level → ∃ q last,
      State.advance ⟨frames, done, .operand slot parens p⟩ ts =
        some ⟨frames, done, .operator slot parens q last⟩ ∧ p.HasRead q last level e := by
  induction h with
  | name kind =>
    intro parens p _
    exact ⟨p, _, State.advance_cons_of_step (step_name kind) [], rfl, rfl⟩
  | number kind =>
    intro parens p _
    exact ⟨p, _, State.advance_cons_of_step (step_number kind) [], rfl, rfl⟩
  | parens left _ right ih =>
    intro parens p _
    obtain ⟨q, last, inner, rfl⟩ := ih (p :: parens) (p := .none) rfl
    refine ⟨p, _, ?_, rfl, rfl⟩
    rw [State.advance_cons_of_step (step_leftParen left), State.advance_append_of_advance inner]
    exact State.advance_cons_of_step (step_rightParen right) []
  | factor _ ih =>
    intro parens p free
    obtain ⟨q, last, read, rfl, rfl⟩ := ih parens (p := p) trivial
    refine ⟨q, last, read, rfl, rfl, ?_⟩
    have free : q.product = none := free
    simp [Pending.endProduct, free, join]
  | product _ times _ ihLeft ihRight =>
    intro parens p free
    obtain ⟨q, last, left, hc, hs, rfl⟩ := ihLeft parens free
    obtain ⟨_, _, right, rfl, rfl⟩ := ihRight parens
      (p := { q with product := some (q.endProduct last, _) }) trivial
    refine ⟨_, _, Eq.trans ?_ right, hc, hs, rfl⟩
    rw [State.advance_append_of_advance left, State.advance_cons_of_step (step_times times)]
  | term _ ih =>
    intro parens p free
    obtain ⟨q, last, read, hc, hs, rfl⟩ := ih parens free.2
    refine ⟨q, last, read, hc, ?_⟩
    simp [Pending.endSum, hs.trans free.1, join]
  | sum _ plus _ ihLeft ihRight =>
    intro parens p free
    obtain ⟨q, last, left, hc, rfl⟩ := ihLeft parens free
    obtain ⟨q', last', right, hc', hs', rfl⟩ := ihRight parens
      (p := { q with sum := some (q.endSum last, _), product := none }) rfl
    refine ⟨q', last', Eq.trans ?_ right, hc'.trans hc, ?_⟩
    · rw [State.advance_append_of_advance left, State.advance_cons_of_step (step_plus plus)]
    · rw [Pending.endSum, hs']
      rfl
  | arith _ ih =>
    intro parens p free
    subst free
    obtain ⟨q, last, read, hc, rfl⟩ := ih parens (p := .none) ⟨rfl, rfl⟩
    refine ⟨q, last, read, ?_⟩
    simp [Pending.HasRead, Pending.endExpr, hc, Pending.none, join]
  | comparison _ comparator _ ihLeft ihRight =>
    intro parens p free
    subst free
    obtain ⟨q, last, left, hc, rfl⟩ := ihLeft parens (p := .none) ⟨rfl, rfl⟩
    obtain ⟨q', last', right, hc', rfl⟩ := ihRight parens
      (p := ⟨some (q.endSum last, _), none, none⟩) ⟨rfl, rfl⟩
    refine ⟨q', last', Eq.trans ?_ right, ?_⟩
    · rw [State.advance_append_of_advance left,
        State.advance_cons_of_step (step_comparator comparator hc)]
    · rw [Pending.HasRead, Pending.endExpr, hc']
      rfl

end Expressions

namespace State

/-- The state in which an `if` that may still get an `else` has gone without. -/
def settle (st : State) : State :=
  match st.mode with
  | .ifBlock token cond brace body => st.add (.ifThen token cond brace body)
  | _ => st

/-- The machine stands between two statements, `done` being those before it in the block. -/
def Between (st : State) (frames : List Frame) (done : List Stmt) : Prop :=
  st.settle = ⟨frames, done, .statement⟩

end State

section Statements

variable {frames : List Frame} {done : List Stmt} {st : State} {t : Token}

lemma between_statement : State.Between ⟨frames, done, .statement⟩ frames done := rfl

/-- Between two statements the machine is at rest, or behind an `if` without an `else`. -/
lemma between_cases (h : st.Between frames done) :
    st = ⟨frames, done, .statement⟩ ∨ ∃ before token cond brace body,
      st = ⟨frames, before, .ifBlock token cond brace body⟩ ∧
        done = before ++ [.ifThen token cond brace body] := by
  obtain ⟨fs, ds, mode⟩ := st
  cases mode with
  | ifBlock token cond brace body =>
    cases h
    exact Or.inr ⟨ds, token, cond, brace, body, rfl, rfl⟩
  | _ => exact Or.inl h

lemma step_of_between (h : st.Between frames done) (noElse : ¬ t.Is .keyword "else") :
    st.step t = State.begin ⟨frames, done, .statement⟩ t := by
  rcases between_cases h with rfl | ⟨before, token, cond, brace, body, rfl, rfl⟩
  · rfl
  · exact if_neg noElse

lemma finish_of_between (h : st.Between [] done) : st.finish = .ok done := by
  rcases between_cases h with rfl | ⟨before, token, cond, brace, body, rfl, rfl⟩ <;> rfl

lemma not_is_of_kind {kind : Kind} {lexeme : Text} (h : t.kind ≠ kind) : ¬ t.Is kind lexeme :=
  fun is => h is.1

lemma not_is_of_is {kind : Kind} {a b : Text} (h : t.Is kind a) (ne : a ≠ b) : ¬ t.Is kind b :=
  fun is => ne (h.2.symm.trans is.2)

lemma step_int (h : st.Between frames done) (ht : t.Is .keyword "int") :
    st.step t = some ⟨frames, done, .declared t⟩ := by
  rw [step_of_between h (not_is_of_is ht (by decide)), State.begin, if_pos ht]

lemma step_target (h : st.Between frames done) (ht : t.kind = .identifier) :
    st.step t = some ⟨frames, done, .assigned t⟩ := by
  have hk : t.kind ≠ .keyword := by simp [ht]
  rw [step_of_between h (not_is_of_kind hk), State.begin, if_neg (not_is_of_kind hk), if_pos ht]

lemma step_if (h : st.Between frames done) (ht : t.Is .keyword "if") :
    st.step t = some ⟨frames, done, .ifWord t⟩ := by
  rw [step_of_between h (not_is_of_is ht (by decide)), State.begin,
    if_neg (not_is_of_is ht (by decide)), if_neg (by simp [ht.1]), if_pos ht]

lemma step_while (h : st.Between frames done) (ht : t.Is .keyword "while") :
    st.step t = some ⟨frames, done, .whileWord t⟩ := by
  rw [step_of_between h (not_is_of_is ht (by decide)), State.begin,
    if_neg (not_is_of_is ht (by decide)), if_neg (by simp [ht.1]),
    if_neg (not_is_of_is ht (by decide)), if_pos ht]

lemma step_print (h : st.Between frames done) (ht : t.Is .keyword "print") :
    st.step t = some ⟨frames, done, .printWord t⟩ := by
  rw [step_of_between h (not_is_of_is ht (by decide)), State.begin,
    if_neg (not_is_of_is ht (by decide)), if_neg (by simp [ht.1]),
    if_neg (not_is_of_is ht (by decide)), if_neg (not_is_of_is ht (by decide)), if_pos ht]

lemma step_rightBrace (h : st.Between frames done) (ht : t.kind = .rightBrace) :
    st.step t = State.close ⟨frames, done, .statement⟩ := by
  have hk : ∀ word, ¬ t.Is .keyword word := fun _ => not_is_of_kind (by simp [ht])
  rw [step_of_between h (hk _), State.begin, if_neg (hk _), if_neg (by simp [ht]), if_neg (hk _),
    if_neg (hk _), if_neg (hk _), if_pos ht]

/-- An expression that fills a slot, with the token behind it. -/
lemma advance_fill {slot : Slot} {ts us : List Token} {e : Expr} (h : Expression .expr ts e)
    (ho : t.kind ≠ .operator) (hc : t.kind ≠ .comparator) {next : State}
    (fill : ∀ mode, State.fill ⟨frames, done, mode⟩ slot e t = some next) :
    State.advance ⟨frames, done, .operand slot [] .none⟩ (ts ++ t :: us) = next.advance us := by
  obtain ⟨q, last, read, rfl⟩ := advance_expression h [] (p := .none) rfl
  rw [State.advance_append_of_advance read]
  exact State.advance_cons_of_step ((step_fill ho hc).trans (fill _)) us

/-- A parenthesized expression, up to and with its right parenthesis. -/
lemma advance_parens {mode : Mode} {slot : Slot} {l r : Token} {ts us : List Token} {e : Expr}
    (opens : State.step ⟨frames, done, mode⟩ l = some ⟨frames, done, .operand slot [] .none⟩)
    (inner : Expression .expr ts e) (right : r.kind = .rightParen) {next : State}
    (fill : ∀ mode, State.fill ⟨frames, done, mode⟩ slot e r = some next) :
    State.advance ⟨frames, done, mode⟩ (l :: (ts ++ r :: us)) = next.advance us := by
  rw [State.advance_cons_of_step opens]
  exact advance_fill inner (by simp [right]) (by simp [right]) fill

lemma step_declared {word : Token} (ht : t.kind = .identifier) :
    State.step ⟨frames, done, .declared word⟩ t = some ⟨frames, done, .declaredName word t⟩ :=
  if_pos ht

lemma step_declaredName {word x : Token} (ht : t.kind = .semicolon) :
    State.step ⟨frames, done, .declaredName word x⟩ t =
      some ⟨frames, done ++ [.declare word (.ofToken x)], .statement⟩ :=
  if_pos ht

lemma step_assigned {x : Token} (ht : t.kind = .assignOp) :
    State.step ⟨frames, done, .assigned x⟩ t =
      some ⟨frames, done, .operand (.value x) [] .none⟩ :=
  if_pos ht

lemma step_ifWord {word : Token} (ht : t.kind = .leftParen) :
    State.step ⟨frames, done, .ifWord word⟩ t =
      some ⟨frames, done, .operand (.ifCond word) [] .none⟩ :=
  if_pos ht

lemma step_whileWord {word : Token} (ht : t.kind = .leftParen) :
    State.step ⟨frames, done, .whileWord word⟩ t =
      some ⟨frames, done, .operand (.whileCond word) [] .none⟩ :=
  if_pos ht

lemma step_printWord {word : Token} (ht : t.kind = .leftParen) :
    State.step ⟨frames, done, .printWord word⟩ t =
      some ⟨frames, done, .operand (.printed word) [] .none⟩ :=
  if_pos ht

lemma step_printed {word : Token} {e : Expr} (ht : t.kind = .semicolon) :
    State.step ⟨frames, done, .printed word e⟩ t =
      some ⟨frames, done ++ [.print word e], .statement⟩ :=
  if_pos ht

lemma step_leftBrace {owner : Owner} (ht : t.kind = .leftBrace) :
    State.step ⟨frames, done, .block owner⟩ t =
      some ⟨⟨owner, t, done⟩ :: frames, [], .statement⟩ :=
  if_pos ht

lemma step_else {word brace : Token} {cond : Expr} {body : List Stmt}
    (ht : t.Is .keyword "else") :
    State.step ⟨frames, done, .ifBlock word cond brace body⟩ t =
      some ⟨frames, done, .block (.ifElse word cond brace body)⟩ :=
  if_pos ht

lemma advance_declaration {word x stop : Token} (h : st.Between frames done)
    (intWord : word.Is .keyword "int") (name : x.kind = .identifier)
    (semicolon : stop.kind = .semicolon) :
    st.advance [word, x, stop] =
      some ⟨frames, done ++ [.declare word (.ofToken x)], .statement⟩ := by
  rw [State.advance_cons_of_step (step_int h intWord),
    State.advance_cons_of_step (step_declared name),
    State.advance_cons_of_step (step_declaredName semicolon)]
  rfl

lemma advance_assignment {x sign stop : Token} {ts : List Token} {e : Expr}
    (h : st.Between frames done) (name : x.kind = .identifier) (assign : sign.kind = .assignOp)
    (value : Expression .expr ts e) (semicolon : stop.kind = .semicolon) :
    st.advance (x :: sign :: (ts ++ [stop])) =
      some ⟨frames, done ++ [.assign x (.ofToken x) e], .statement⟩ := by
  rw [State.advance_cons_of_step (step_target h name),
    State.advance_cons_of_step (step_assigned assign)]
  exact advance_fill value (by simp [semicolon]) (by simp [semicolon]) fun _ => if_pos semicolon

lemma advance_print {word l r stop : Token} {ts : List Token} {e : Expr}
    (h : st.Between frames done) (printWord : word.Is .keyword "print")
    (left : l.kind = .leftParen) (value : Expression .expr ts e) (right : r.kind = .rightParen)
    (semicolon : stop.kind = .semicolon) :
    st.advance (word :: l :: (ts ++ [r, stop])) =
      some ⟨frames, done ++ [.print word e], .statement⟩ := by
  have inner : State.advance ⟨frames, done, .printWord word⟩ (l :: (ts ++ [r, stop])) =
      State.advance ⟨frames, done, .printed word e⟩ [stop] :=
    advance_parens (step_printWord left) value right fun _ => if_pos right
  rw [State.advance_cons_of_step (step_print h printWord), inner]
  exact State.advance_cons_of_step (step_printed semicolon) []

/-- An `if` up to the place where its block is due. -/
lemma advance_ifCond {word l r : Token} {ts : List Token} {e : Expr} (h : st.Between frames done)
    (ifWord : word.Is .keyword "if") (left : l.kind = .leftParen) (cond : Expression .expr ts e)
    (right : r.kind = .rightParen) (us : List Token) :
    st.advance (word :: l :: (ts ++ r :: us)) =
      State.advance ⟨frames, done, .block (.ifThen word e)⟩ us := by
  rw [State.advance_cons_of_step (step_if h ifWord)]
  exact advance_parens (step_ifWord left) cond right fun _ => if_pos right

/-- A `while` up to the place where its block is due. -/
lemma advance_whileCond {word l r : Token} {ts : List Token} {e : Expr}
    (h : st.Between frames done) (whileWord : word.Is .keyword "while") (left : l.kind = .leftParen)
    (cond : Expression .expr ts e) (right : r.kind = .rightParen) (us : List Token) :
    st.advance (word :: l :: (ts ++ r :: us)) =
      State.advance ⟨frames, done, .block (.whileDo word e)⟩ us := by
  rw [State.advance_cons_of_step (step_while h whileWord)]
  exact advance_parens (step_whileWord left) cond right fun _ => if_pos right

mutual

/-- The machine reads what the grammar spells as a statement. -/
lemma advance_statement {frames : List Frame} {done : List Stmt} {st : State} {ts : List Token}
    {s : Stmt} (h : st.Between frames done) :
    Statement ts s → ∃ next, st.advance ts = some next ∧ next.Between frames (done ++ [s])
  | .declaration intWord name semicolon =>
    ⟨_, advance_declaration h intWord name semicolon, between_statement⟩
  | .assignment name assign value semicolon =>
    ⟨_, advance_assignment h name assign value semicolon, between_statement⟩
  | .print printWord left value right semicolon =>
    ⟨_, advance_print h printWord left value right semicolon, between_statement⟩
  | .ifThen ifWord left cond right block =>
    ⟨_, (advance_ifCond h ifWord left cond right _).trans (advance_block block), rfl⟩
  | .ifElse ifWord left cond right block elseWord elseBlock => by
    refine ⟨_, ?_, between_statement⟩
    rw [advance_ifCond h ifWord left cond right,
      State.advance_append_of_advance (advance_block block),
      State.advance_cons_of_step (step_else elseWord)]
    exact advance_block elseBlock
  | .whileDo whileWord left cond right block =>
    ⟨_, (advance_whileCond h whileWord left cond right _).trans (advance_block block),
      between_statement⟩

/-- Behind a block the machine has closed its frame. -/
lemma advance_block {frames : List Frame} {done : List Stmt} {owner : Owner} {ts : List Token}
    {brace : Token} {body : List Stmt} :
    Block ts brace body → State.advance ⟨frames, done, .block owner⟩ ts =
      State.close ⟨⟨owner, brace, done⟩ :: frames, body, .statement⟩
  | .braces left inner right => by
    obtain ⟨next, read, rests⟩ := advance_statements between_statement inner
    rw [State.advance_cons_of_step (step_leftBrace left), State.advance_append_of_advance read,
      State.advance_cons, step_rightBrace rests right]
    exact Option.bind_fun_some _

/-- The machine reads what the grammar spells as a list of statements. -/
lemma advance_statements {frames : List Frame} {done : List Stmt} {st : State} {ts : List Token}
    {p : List Stmt} (h : st.Between frames done) :
    Statements ts p → ∃ next, st.advance ts = some next ∧ next.Between frames (done ++ p)
  | .nil => ⟨st, rfl, by rwa [List.append_nil]⟩
  | .cons first others => by
    obtain ⟨mid, hfirst, hmid⟩ := advance_statement h first
    obtain ⟨next, hothers, hnext⟩ := advance_statements hmid others
    refine ⟨next, ?_, by rwa [List.append_assoc] at hnext⟩
    rw [State.advance_append_of_advance hfirst, hothers]

end

end Statements

end ThreeAddress.Parse
