import ThreeAddress.Proofs.EarliestError

/-!
# Boundaries of programs

Reading a program does not depend on what stands before it. With the statements `p` already
read, the machine goes through the same states, only that `p` stands in front of whatever is
outside all blocks (`State.behind`). So two programs one behind the other are read as the
statements of both, and what is wrong with the second is found as if it stood alone.

At the other side an end token is a boundary that no reading steps over. Whatever follows it
does not matter, and it takes the place of the end of the tokens in messages.
-/

namespace ThreeAddress

namespace Parse

/-- The statements before some place, with `p` in front of the program. Inside a block they are
those of the block. -/
def doneBehind (p : List Stmt) : List Frame → List Stmt → List Stmt
  | [], done => p ++ done
  | _ :: _, done => done

/-- The open blocks with `p` in front of the program. -/
def framesBehind (p : List Stmt) : List Frame → List Frame
  | [] => []
  | f :: frames => { f with before := doneBehind p frames f.before } :: framesBehind p frames

lemma doneBehind_concat (p : List Stmt) (frames : List Frame) (done : List Stmt) (s : Stmt) :
    doneBehind p frames (done ++ [s]) = doneBehind p frames done ++ [s] := by
  cases frames with
  | nil => exact (List.append_assoc p done [s]).symm
  | cons => rfl

namespace State

/-- The state with the statements `p` in front of the program. -/
def behind (p : List Stmt) (st : State) : State :=
  ⟨framesBehind p st.frames, doneBehind p st.frames st.done, st.mode⟩

section Behind

variable (p : List Stmt) (st : State) (t : Token)

lemma behind_add (s : Stmt) : (st.add s).behind p = (st.behind p).add s := by
  simp only [add, behind, doneBehind_concat]

lemma close_behind : (st.behind p).close = st.close.map (behind p) := by
  obtain ⟨frames, done, mode⟩ := st
  rcases frames with _ | ⟨⟨owner, brace, before⟩, frames⟩
  · rfl
  · cases owner with
    | ifThen token cond => rfl
    | ifElse | whileDo =>
      simp only [close, Option.map_some, behind_add]
      rfl

lemma begin_behind : (st.behind p).begin t = (st.begin t).map (behind p) := by
  simp only [begin, close_behind, apply_ite (Option.map (behind p))]
  rfl

lemma fill_behind (slot : Slot) (e : Expr) :
    (st.behind p).fill slot e t = (st.fill slot e t).map (behind p) := by
  cases slot <;>
    simp only [fill, apply_ite (Option.map (behind p)), Option.map_some, behind_add] <;>
    rfl

lemma takeOperand_behind (slot : Slot) (parens : List Pending) (pending : Pending) :
    (st.behind p).takeOperand slot parens pending t =
      (st.takeOperand slot parens pending t).map (behind p) := by
  simp only [takeOperand, apply_ite (Option.map (behind p))]
  rfl

lemma takeOperator_behind (slot : Slot) (parens : List Pending) (pending : Pending) (e : Expr) :
    (st.behind p).takeOperator slot parens pending e t =
      (st.takeOperator slot parens pending e t).map (behind p) := by
  cases parens with
  | nil =>
    simp only [takeOperator, fill_behind, apply_ite (Option.map (behind p))]
    rfl
  | cons outer parens =>
    simp only [takeOperator, apply_ite (Option.map (behind p))]
    rfl

/-- A step does not look at the statements in front of the program. -/
lemma step_behind : (st.behind p).step t = (st.step t).map (behind p) := by
  obtain ⟨frames, done, mode⟩ := st
  cases mode with
  | statement => exact begin_behind p _ t
  | operand slot parens pending => exact takeOperand_behind p _ t slot parens pending
  | operator slot parens pending e => exact takeOperator_behind p _ t slot parens pending e
  | ifBlock token cond brace body =>
    simp only [step, apply_ite (Option.map (behind p)), ← begin_behind, behind_add]
    rfl
  | declaredName | printed =>
    simp only [step, apply_ite (Option.map (behind p)), Option.map_some, behind_add]
    rfl
  | _ =>
    simp only [step, apply_ite (Option.map (behind p))]
    rfl

lemma finish_behind : (st.behind p).finish = st.finish.map (p ++ ·) := by
  obtain ⟨frames, done, mode⟩ := st
  cases frames with
  | nil =>
    cases mode with
    | ifBlock token cond brace body =>
      exact congrArg Except.ok (List.append_assoc p done [.ifThen token cond brace body])
    | _ => rfl
  | cons => cases mode <;> rfl

/-- Behind the statements `p` a run ends where it would end without them, with `p` in front of
the program that it gives. -/
lemma run_behind (ts : List Token) :
    (st.behind p).run ts = ((st.run ts).1.map (p ++ ·), (st.run ts).2) := by
  induction ts generalizing st with
  | nil => rw [run, run, finish_behind]
  | cons t ts ih =>
    rw [run, run, step_behind, finish_behind]
    cases st.step t with
    | some next => exact ih next
    | none =>
      refine Prod.ext ?_ rfl
      dsimp only [Option.map]
      split <;> rfl

end Behind

lemma between_of_finish {st : State} {p : Program} (h : st.finish = .ok p) : st.Between [] p := by
  obtain ⟨frames, done, mode⟩ := st
  cases frames with
  | nil =>
    cases mode with
    | statement | ifBlock =>
      cases h
      rfl
    | _ => cases h
  | cons => cases mode <;> cases h

/-- Between two statements it makes no difference whether the last one was an `if` that might
still get an `else`, unless an `else` follows. -/
lemma run_of_between {st : State} {done : List Stmt} {ts : List Token} (h : st.Between [] done)
    (noElse : ∀ t ∈ ts.head?, ¬ t.Is .keyword "else") :
    st.run ts = State.run ⟨[], done, .statement⟩ ts := by
  cases ts with
  | nil => exact congrArg (·, []) (finish_of_between h)
  | cons t ts =>
    have step := step_of_between h (noElse t rfl)
    have expected : st.mode.expectation = .statement := by
      rcases between_cases h with rfl | ⟨before, token, cond, brace, body, rfl, _⟩ <;> rfl
    rw [run, run, finish_of_between h, step, expected]
    rfl

end State
end Parse

/-- The end of a token list is told by its last token, whatever stands before that. -/
lemma endOf_append (a : List Token) {b : List Token} (h : b ≠ []) : endOf (a ++ b) = endOf b := by
  obtain ⟨last, hlast⟩ : ∃ last, b.getLast? = some last := ⟨_, List.getLast?_eq_some_getLast h⟩
  rw [endOf, endOf, List.getLast?_append, hlast, Option.some_or]

/-- Where a program ends another one may begin, and what is read there is what is read of the
second by itself: its statements follow those of the first, and its first error is the error
of both together. Only an `else` would belong to the first. -/
theorem parse_append_of_program {a b : List Token} {p : Program}
    (noEnd : ∀ t ∈ a, t.kind ≠ .eof) (first : parse a = .ok p)
    (noElse : ∀ t ∈ b.head?, ¬ t.Is .keyword "else") :
    (∀ q, parse b = .ok q → parse (a ++ b) = .ok (p ++ q)) ∧
      ∀ e, parse b = .error e → parse (a ++ b) = .error e := by
  obtain ⟨_, run⟩ := parse_eq_ok_iff_run.mp first
  obtain ⟨last, advanced, finished⟩ := Parse.State.advance_of_run_eq_ok run noEnd
  -- Behind `a` the machine is where it began, but for the statements of `a`.
  have whole : Parse.State.initial.run (a ++ b) =
      ((Parse.State.initial.run b).1.map (p ++ ·), (Parse.State.initial.run b).2) := by
    have between := Parse.State.between_of_finish finished
    have start : Parse.State.initial.behind p = ⟨[], p, .statement⟩ := by
      simp [Parse.State.behind, Parse.State.initial, Parse.framesBehind, Parse.doneBehind]
    rw [Parse.State.run_append_of_advance advanced,
      Parse.State.run_of_between between noElse, ← start, Parse.State.run_behind]
  constructor
  · intro q second
    obtain ⟨rest, alone⟩ := parse_eq_ok_iff_run.mp second
    rw [alone] at whole
    exact parse_eq_ok_iff_run.mpr ⟨rest, whole⟩
  · intro e second
    obtain ⟨rest, alone, token⟩ := exists_run_of_parse_eq_error second
    have nonempty : b ≠ [] := by
      rintro rfl
      cases second
    rw [alone] at whole
    rw [parse_of_run_eq_error whole, endOf_append a nonempty, ← token]

/-- The tokens of `if (x) { }`. -/
def choice : List Token :=
  [⟨.keyword, "if", 1, 1⟩, ⟨.leftParen, "(", 1, 4⟩, ⟨.identifier, "x", 1, 5⟩,
    ⟨.rightParen, ")", 1, 6⟩, ⟨.leftBrace, "\x7b", 1, 8⟩, ⟨.rightBrace, "\x7d", 1, 10⟩]

/-- The tokens of `while (x) { y = 1`. -/
def loop : List Token :=
  [⟨.keyword, "while", 2, 1⟩, ⟨.leftParen, "(", 2, 7⟩, ⟨.identifier, "x", 2, 8⟩,
    ⟨.rightParen, ")", 2, 9⟩, ⟨.leftBrace, "\x7b", 2, 11⟩, ⟨.identifier, "y", 2, 13⟩,
    ⟨.assignOp, "=", 2, 15⟩, ⟨.number, "1", 2, 17⟩]

/-- Behind an `if` without an `else` a second one is read, and the end of a loop is missed. -/
theorem parse_append_of_program_choice : ∃ p,
    parse choice = .ok p ∧ parse (choice ++ choice) = .ok (p ++ p) ∧
    parse loop = .error ⟨.assignmentEnd, ⟨.eof, [], 2, 18⟩⟩ ∧
    parse (choice ++ loop) = .error ⟨.assignmentEnd, ⟨.eof, [], 2, 18⟩⟩ := by
  obtain ⟨p, parsed, _⟩ : ∃ p, parse choice = .ok p ∧ p.length = 1 := by decide +kernel
  have failed : parse loop = .error ⟨.assignmentEnd, ⟨.eof, [], 2, 18⟩⟩ := rfl
  have noEnd : ∀ t ∈ choice, t.kind ≠ .eof := by decide
  have twice := parse_append_of_program noEnd parsed (b := choice) (by decide)
  have cut := parse_append_of_program noEnd parsed (b := loop) (by decide)
  exact ⟨p, parsed, twice.1 p parsed, failed, cut.2 _ failed⟩

/-- Tokens that begin with `else` are no program, but may go on with the one before. -/
example : let alternative := ⟨.keyword, "else", 2, 1⟩ :: choice.drop 4
    parse alternative = .error ⟨.statement, ⟨.keyword, "else", 2, 1⟩⟩ ∧
    ∃ p, parse (choice ++ alternative) = .ok p ∧ p.length = 1 :=
  ⟨rfl, by decide +kernel⟩

/-! End tokens. -/

/-- The error as it is told where the tokens end with `stop`. -/
def SyntaxError.meeting (stop : Token) (e : SyntaxError) : SyntaxError :=
  if e.AtEnd then { e with token := stop } else e

lemma SyntaxError.meeting_of_atEnd {e : SyntaxError} (stop : Token) (atEnd : e.AtEnd) :
    e.meeting stop = ⟨e.expected, stop⟩ := if_pos atEnd

lemma SyntaxError.meeting_of_inside {e : SyntaxError} (stop : Token) (inside : ¬ e.AtEnd) :
    e.meeting stop = e := if_neg inside

/-- An end token ends the program where it stands: the tokens before it are read by themselves,
and it is the token at which they end too early. -/
lemma parse_append_end {before : List Token} {stop : Token}
    (noEnd : ∀ t ∈ before, t.kind ≠ .eof) (ends : stop.kind = .eof) (after : List Token) :
    parse (before ++ stop :: after) = (parse before).mapError (SyntaxError.meeting stop) := by
  have whole := Parse.State.initial.run_append_end before ends after
  have left := Parse.State.initial.run_suffix before
  rcases alone : Parse.State.initial.run before with ⟨expected | p, rest⟩
  · rw [alone] at whole left
    rw [parse_of_run_eq_error alone, parse_of_run_eq_error whole]
    refine congrArg Except.error ?_
    cases rest with
    | nil =>
      have atEnd : SyntaxError.AtEnd ⟨expected, endOf before⟩ := kind_endOf before
      exact (SyntaxError.meeting_of_atEnd stop atEnd).symm
    | cons t rest =>
      have inside : ¬ SyntaxError.AtEnd ⟨expected, t⟩ := noEnd t (left.subset List.mem_cons_self)
      exact (SyntaxError.meeting_of_inside stop inside).symm
  · rw [alone] at whole
    rw [parse_eq_ok_iff_run.mpr ⟨_, alone⟩]
    exact parse_eq_ok_iff_run.mpr ⟨_, whole⟩

/-- A reading leaves an end token and what follows it where they are. -/
lemma exists_rest_append_end (before : List Token) {stop : Token} (ends : stop.kind = .eof)
    (after : List Token) : ∃ j ≤ before.length,
    (Parser.ofTokens (before ++ stop :: after)).read.2.rest =
      (before ++ stop :: after).drop j ∧
    (Parser.ofTokens before).read.2.rest = before.drop j := by
  have left := List.suffix_iff_eq_drop.mp (Parse.State.initial.run_suffix before)
  refine ⟨before.length - (Parse.State.initial.run before).2.length, Nat.sub_le _ _, ?_, ?_⟩
  · rw [Parser.read_snd, List.drop_append_of_le_length (Nat.sub_le _ _), ← left]
    exact congrArg Prod.snd (Parse.State.initial.run_append_end before ends after)
  · rw [Parser.read_snd]
    exact left

/-- A reading ends at the first end token, since the grammar has no place for one in any state
(`Parse.State.step_of_eof`). It gives what the tokens before that token give by themselves: the
same program, the same error inside, or the same thing missing, which is then missed at the end
token. So what stands behind it does not matter, and none of it is taken. -/
theorem parse_stops_at_end {ts : List Token} {k : Nat} {stop : Token}
    (here : ts[k]? = some stop) (ends : stop.kind = .eof)
    (first : ∀ t ∈ ts.take k, t.kind ≠ .eof) :
    (∀ p, parse ts = .ok p ↔ parse (ts.take k) = .ok p) ∧
    (∀ e, parse (ts.take k) = .error e → ¬ e.AtEnd → parse ts = .error e) ∧
    (∀ e, parse (ts.take k) = .error e → e.AtEnd → parse ts = .error ⟨e.expected, stop⟩) ∧
    (∀ us, parse (ts.take (k + 1) ++ us) = parse ts) ∧
    ∃ j ≤ k, (Parser.ofTokens ts).read.2.rest = ts.drop j ∧
      (Parser.ofTokens (ts.take k)).read.2.rest = (ts.take k).drop j := by
  obtain ⟨bound, at_k⟩ := List.getElem?_eq_some_iff.mp here
  have split : ts = ts.take k ++ stop :: ts.drop (k + 1) := by
    rw [← at_k, List.getElem_cons_drop, List.take_append_drop]
  have whole : parse ts = (parse (ts.take k)).mapError (SyntaxError.meeting stop) :=
    (congrArg parse split).trans (parse_append_end first ends _)
  refine ⟨?_, ?_, ?_, ?_, ?_⟩
  · intro p
    rw [whole]
    cases parse (ts.take k) with
    | ok q => exact Iff.rfl
    | error e => exact ⟨fun h => (by cases h), fun h => (by cases h)⟩
  · intro e failed inside
    rw [whole, failed]
    exact congrArg Except.error (SyntaxError.meeting_of_inside stop inside)
  · intro e failed atEnd
    rw [whole, failed]
    exact congrArg Except.error (SyntaxError.meeting_of_atEnd stop atEnd)
  · intro us
    have kept : ts.take (k + 1) ++ us = ts.take k ++ stop :: us := by
      rw [List.take_add_one, here, List.append_assoc]
      rfl
    rw [kept, whole]
    exact parse_append_end first ends us
  · obtain ⟨j, le, rests⟩ := exists_rest_append_end (ts.take k) ends (ts.drop (k + 1))
    rw [← split] at rests
    exact ⟨j, Nat.le_trans le (List.length_take_le k ts), rests⟩

/-- The tokens of `if (x) {`, an end token, and those of `if (x) { }`. -/
def cutChoice : List Token := choice.take 5 ++ ⟨.eof, "end", 7, 9⟩ :: choice

/-- A block that an end token leaves open misses its brace there, whatever follows. -/
theorem parse_stops_at_end_open :
    parse cutChoice = .error ⟨.blockClose, ⟨.eof, "end", 7, 9⟩⟩ ∧
    parse (cutChoice.take 6 ++ loop) = parse cutChoice := by
  have short : parse (cutChoice.take 5) = .error ⟨.blockClose, ⟨.eof, [], 1, 9⟩⟩ := rfl
  have here : cutChoice[5]? = some ⟨.eof, "end", 7, 9⟩ := rfl
  have noEnd : ∀ t ∈ cutChoice.take 5, t.kind ≠ .eof := by decide
  obtain ⟨_, _, missed, behind, _⟩ := parse_stops_at_end here rfl noEnd
  exact ⟨missed _ short rfl, behind loop⟩

end ThreeAddress
