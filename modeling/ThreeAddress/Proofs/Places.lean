import Mathlib.Logic.Basic
import Mathlib.Tactic.Lemma
import ThreeAddress.Code.Lower
import ThreeAddress.Proofs.Parsing

/-!
# Forgetting places

Tokens keep the places they stand at, and trees keep their tokens. Reading tokens never
looks at a place: to forget the places before a reading or after it is the same
(`Parse.State.run_unplaced`). Neither the source form of a tree nor its instructions depend
on places.
-/

namespace ThreeAddress

/-- The token by itself, wherever it stands. -/
def Token.unplaced (t : Token) : Token := ⟨t.kind, t.lexeme, 0, 0⟩

@[simp] lemma Token.kind_unplaced (t : Token) : t.unplaced.kind = t.kind := rfl

@[simp] lemma Token.is_unplaced (t : Token) (k : Kind) (w : Text) :
    t.unplaced.Is k w ↔ t.Is k w := Iff.rfl

/-- A token that stands nowhere. -/
def bare (k : Kind) (w : Text) : Token := ⟨k, w, 0, 0⟩

lemma kind_bare (k : Kind) (w : Text) : (bare k w).kind = k := rfl

lemma Token.unplaced_eq {t : Token} {k : Kind} {w : Text} (h : t.Is k w) :
    t.unplaced = bare k w := by
  rw [unplaced, h.1, h.2]
  rfl

def Ident.unplaced (id : Ident) : Ident := ⟨id.token.unplaced, id.name⟩

def Expr.unplaced : Expr → Expr
  | hole => hole
  | var id => var id.unplaced
  | num token digits => num token.unplaced digits
  | binary token op left right => binary token.unplaced op left.unplaced right.unplaced

mutual

def Stmt.unplaced : Stmt → Stmt
  | .hole => .hole
  | .declare token id => .declare token.unplaced id.unplaced
  | .assign token id value => .assign token.unplaced id.unplaced value.unplaced
  | .print token value => .print token.unplaced value.unplaced
  | .block brace body => .block brace.unplaced (Stmt.unplacedAll body)
  | .ifThen token cond brace body =>
    .ifThen token.unplaced cond.unplaced brace.unplaced (Stmt.unplacedAll body)
  | .ifElse token cond brace body elseBrace elseBody =>
    .ifElse token.unplaced cond.unplaced brace.unplaced (Stmt.unplacedAll body)
      elseBrace.unplaced (Stmt.unplacedAll elseBody)
  | .whileDo token cond brace body =>
    .whileDo token.unplaced cond.unplaced brace.unplaced (Stmt.unplacedAll body)

/-- The statements without the places of their tokens. -/
def Stmt.unplacedAll : List Stmt → List Stmt
  | [] => []
  | s :: rest => s.unplaced :: Stmt.unplacedAll rest

end

@[simp] lemma Stmt.unplacedAll_append (xs ys : List Stmt) :
    Stmt.unplacedAll (xs ++ ys) = Stmt.unplacedAll xs ++ Stmt.unplacedAll ys := by
  induction xs with
  | nil => rfl
  | cons s xs ih => simp [Stmt.unplacedAll, ih]

/-! The source form. -/

@[simp] lemma Expr.source_unplaced (e : Expr) : e.unplaced.source = e.source := by
  induction e with
  | hole => rfl
  | var id => rfl
  | num token digits => rfl
  | binary token op left right ihl ihr => simp [unplaced, source, ihl, ihr]

mutual

lemma Stmt.source_unplaced : (s : Stmt) → s.unplaced.source = s.source
  | .hole => rfl
  | .declare .. => rfl
  | .assign .. => by simp [Stmt.unplaced, Stmt.source, Ident.unplaced]
  | .print .. => by simp [Stmt.unplaced, Stmt.source]
  | .block _ body => by
    simp only [Stmt.unplaced, Stmt.source, Stmt.bodySource_unplacedAll body]
  | .ifThen _ _ _ body => by
    simp only [Stmt.unplaced, Stmt.source, Expr.source_unplaced, Stmt.bodySource_unplacedAll body]
  | .ifElse _ _ _ body _ elseBody => by
    simp only [Stmt.unplaced, Stmt.source, Expr.source_unplaced, Stmt.bodySource_unplacedAll body,
      Stmt.bodySource_unplacedAll elseBody]
  | .whileDo _ _ _ body => by
    simp only [Stmt.unplaced, Stmt.source, Expr.source_unplaced, Stmt.bodySource_unplacedAll body]

lemma Stmt.bodySource_unplacedAll : (body : List Stmt) →
    Stmt.bodySource (Stmt.unplacedAll body) = Stmt.bodySource body
  | [] => rfl
  | s :: rest => by
    simp only [Stmt.unplacedAll, Stmt.bodySource, s.source_unplaced,
      Stmt.bodySource_unplacedAll rest]

end

lemma Program.source_unplacedAll (p : Program) :
    Program.source (Stmt.unplacedAll p) = Program.source p := by
  induction p with
  | nil => rfl
  | cons s p ih =>
    simp only [Program.source, Text.lines, Stmt.unplacedAll, List.map_cons, List.flatMap_cons,
      s.source_unplaced] at ih ⊢
    rw [ih]

/-! Code. The lines of omitted statements are the only places it keeps. -/

/-- The code without the lines of the statements it omits. -/
def Code.unplaced (c : Code) : Code :=
  { c with omissions := c.omissions.map fun o => ⟨o.statement, 0⟩ }

lemma Code.unplaced_note (c : Code) (t : Token) :
    (c.note t).unplaced = c.unplaced.note t.unplaced := by
  simp [note, unplaced, Token.unplaced]

lemma Expr.lower_unplaced (e : Expr) (c : Code) :
    e.unplaced.lower c.unplaced = ((e.lower c).1, (e.lower c).2.unplaced) := by
  induction e generalizing c with
  | hole => rfl
  | var id => rfl
  | num token digits => rfl
  | binary token op left right ihl ihr =>
    simp only [unplaced, lower, ihl, ihr]
    cases Op.ofSymbol? op <;> rfl

mutual

lemma Stmt.lower_unplaced (c : Code) : (s : Stmt) →
    s.unplaced.lower c.unplaced = (s.lower c).unplaced
  | .hole => rfl
  | .declare .. => rfl
  | .assign _ id value => by
    simp only [Stmt.unplaced, Stmt.lower, value.lower_unplaced]
    rfl
  | .print token _ => (c.unplaced_note token).symm
  | .block _ body => Stmt.lowerAll_unplacedAll c body
  | .ifThen token _ _ body => by
    simp only [Stmt.unplaced, Stmt.lower, ← c.unplaced_note, Stmt.lowerAll_unplacedAll _ body]
  | .ifElse token _ _ body _ elseBody => by
    simp only [Stmt.unplaced, Stmt.lower, ← c.unplaced_note, Stmt.lowerAll_unplacedAll _ body,
      Stmt.lowerAll_unplacedAll _ elseBody]
  | .whileDo token _ _ body => by
    simp only [Stmt.unplaced, Stmt.lower, ← c.unplaced_note, Stmt.lowerAll_unplacedAll _ body]

lemma Stmt.lowerAll_unplacedAll (c : Code) : (p : List Stmt) →
    Stmt.lowerAll (Stmt.unplacedAll p) c.unplaced = (Stmt.lowerAll p c).unplaced
  | [] => rfl
  | s :: rest => by
    simp only [Stmt.unplacedAll, Stmt.lowerAll, s.lower_unplaced, Stmt.lowerAll_unplacedAll _ rest]

end

lemma Program.lower_unplacedAll (p : Program) :
    Program.lower (Stmt.unplacedAll p) = (Program.lower p).unplaced :=
  Stmt.lowerAll_unplacedAll .empty p

/-! The machine that reads tokens, part by part. -/

namespace Parse

def Half.unplaced (h : Half) : Half := (h.1.unplaced, h.2.unplaced)

def Pending.unplaced (p : Pending) : Pending :=
  ⟨p.comparison.map Half.unplaced, p.sum.map Half.unplaced, p.product.map Half.unplaced⟩

def Slot.unplaced : Slot → Slot
  | value name => value name.unplaced
  | ifCond token => ifCond token.unplaced
  | whileCond token => whileCond token.unplaced
  | printed token => printed token.unplaced

def Owner.unplaced : Owner → Owner
  | ifThen token cond => ifThen token.unplaced cond.unplaced
  | ifElse token cond brace body =>
    ifElse token.unplaced cond.unplaced brace.unplaced (Stmt.unplacedAll body)
  | whileDo token cond => whileDo token.unplaced cond.unplaced

def Mode.unplaced : Mode → Mode
  | statement => statement
  | declared token => declared token.unplaced
  | declaredName token name => declaredName token.unplaced name.unplaced
  | assigned name => assigned name.unplaced
  | ifWord token => ifWord token.unplaced
  | whileWord token => whileWord token.unplaced
  | printWord token => printWord token.unplaced
  | operand slot parens pending =>
    operand slot.unplaced (parens.map Pending.unplaced) pending.unplaced
  | operator slot parens pending read =>
    operator slot.unplaced (parens.map Pending.unplaced) pending.unplaced read.unplaced
  | printed token value => printed token.unplaced value.unplaced
  | block owner => block owner.unplaced
  | ifBlock token cond brace body =>
    ifBlock token.unplaced cond.unplaced brace.unplaced (Stmt.unplacedAll body)

def Frame.unplaced (f : Frame) : Frame :=
  ⟨f.owner.unplaced, f.brace.unplaced, Stmt.unplacedAll f.before⟩

def State.unplaced (st : State) : State :=
  ⟨st.frames.map Frame.unplaced, Stmt.unplacedAll st.done, st.mode.unplaced⟩

lemma join_unplaced (half : Option Half) (e : Expr) :
    join (half.map Half.unplaced) e.unplaced = (join half e).unplaced := by
  cases half <;> rfl

namespace Pending

variable (p : Pending) (e : Expr)

lemma endProduct_unplaced : p.unplaced.endProduct e.unplaced = (p.endProduct e).unplaced :=
  join_unplaced p.product e

lemma endSum_unplaced : p.unplaced.endSum e.unplaced = (p.endSum e).unplaced := by
  rw [endSum, endProduct_unplaced]
  exact join_unplaced p.sum _

lemma endExpr_unplaced : p.unplaced.endExpr e.unplaced = (p.endExpr e).unplaced := by
  rw [endExpr, endSum_unplaced]
  exact join_unplaced p.comparison _

end Pending

lemma Mode.expectation_unplaced (mode : Mode) : mode.unplaced.expectation = mode.expectation := by
  cases mode with
  | operator slot parens pending read => cases parens <;> cases slot <;> rfl
  | _ => rfl

namespace State

variable (st : State) (t : Token)

lemma unplaced_add (s : Stmt) : (st.add s).unplaced = st.unplaced.add s.unplaced := by
  simp [add, unplaced, Stmt.unplacedAll, Mode.unplaced]

lemma close_unplaced : st.unplaced.close = st.close.map unplaced := by
  obtain ⟨frames, done, mode⟩ := st
  rcases frames with _ | ⟨⟨owner, brace, before⟩, frames⟩
  · rfl
  · cases owner with
    | ifThen token cond => rfl
    | ifElse | whileDo =>
      simp only [close, Option.map_some, unplaced_add]
      rfl

lemma begin_unplaced : st.unplaced.begin t.unplaced = (st.begin t).map unplaced := by
  simp only [begin, Token.is_unplaced, Token.kind_unplaced, close_unplaced,
    apply_ite (Option.map unplaced)]
  rfl

lemma fill_unplaced (slot : Slot) (e : Expr) :
    st.unplaced.fill slot.unplaced e.unplaced t.unplaced = (st.fill slot e t).map unplaced := by
  cases slot <;>
    simp only [fill, Slot.unplaced, Token.kind_unplaced, apply_ite (Option.map unplaced),
      Option.map_some, unplaced_add] <;>
    rfl

lemma takeOperand_unplaced (slot : Slot) (parens : List Pending) (pending : Pending) :
    st.unplaced.takeOperand slot.unplaced (parens.map Pending.unplaced) pending.unplaced
      t.unplaced = (st.takeOperand slot parens pending t).map unplaced := by
  simp only [takeOperand, Token.kind_unplaced, apply_ite (Option.map unplaced)]
  rfl

lemma takeOperator_unplaced (slot : Slot) (parens : List Pending) (pending : Pending) (e : Expr) :
    st.unplaced.takeOperator slot.unplaced (parens.map Pending.unplaced) pending.unplaced
      e.unplaced t.unplaced = (st.takeOperator slot parens pending e t).map unplaced := by
  have unfilled : pending.unplaced.comparison = none ↔ pending.comparison = none :=
    Option.map_eq_none_iff
  cases parens with
  | nil =>
    simp only [takeOperator, Token.is_unplaced, Token.kind_unplaced, unfilled, List.map_nil,
      Pending.endProduct_unplaced, Pending.endSum_unplaced, Pending.endExpr_unplaced,
      fill_unplaced, apply_ite (Option.map unplaced)]
    rfl
  | cons outer parens =>
    simp only [takeOperator, Token.is_unplaced, Token.kind_unplaced, unfilled, List.map_cons,
      Pending.endProduct_unplaced, Pending.endSum_unplaced, Pending.endExpr_unplaced,
      apply_ite (Option.map unplaced)]
    rfl

/-- A step takes a token for its kind and its lexeme. -/
lemma step_unplaced : st.unplaced.step t.unplaced = (st.step t).map unplaced := by
  obtain ⟨frames, done, mode⟩ := st
  cases mode with
  | statement => exact begin_unplaced _ t
  | operand slot parens pending => exact takeOperand_unplaced _ t slot parens pending
  | operator slot parens pending e => exact takeOperator_unplaced _ t slot parens pending e
  | ifBlock token cond brace body =>
    simp only [step, apply_ite (Option.map unplaced), ← begin_unplaced, unplaced_add]
    rfl
  | declaredName | printed =>
    simp only [step, apply_ite (Option.map unplaced), Option.map_some, unplaced_add]
    rfl
  | _ =>
    simp only [step, apply_ite (Option.map unplaced)]
    rfl

lemma finish_unplaced : st.unplaced.finish = st.finish.map Stmt.unplacedAll := by
  obtain ⟨frames, done, mode⟩ := st
  cases mode with
  | statement => cases frames <;> rfl
  | ifBlock token cond brace body =>
    cases frames with
    | nil =>
      have last := unplaced_add ⟨[], done, .statement⟩ (.ifThen token cond brace body)
      exact congrArg (fun st => Except.ok st.done) last.symm
    | cons => rfl
  | operator slot parens pending e =>
    exact congrArg Except.error (Mode.expectation_unplaced (.operator slot parens pending e))
  | _ => rfl

/-- Forgetting the places before a reading is forgetting them after it. -/
lemma run_unplaced (ts : List Token) : st.unplaced.run (ts.map Token.unplaced) =
    ((st.run ts).1.map Stmt.unplacedAll, (st.run ts).2.map Token.unplaced) := by
  induction ts generalizing st with
  | nil => simp [run, finish_unplaced]
  | cons t ts ih =>
    rw [List.map_cons, run, run, step_unplaced, Token.kind_unplaced, finish_unplaced]
    cases st.step t with
    | some next => exact ih next
    | none =>
      refine Prod.ext ?_ rfl
      dsimp only [Option.map]
      split
      · rfl
      · exact congrArg Except.error (Mode.expectation_unplaced _)

end State
end Parse

/-- Tokens that are read as a program without their places are read as that program with
them. -/
lemma exists_parse_of_unplaced {ts : List Token} {p : Program}
    (h : parse (ts.map Token.unplaced) = .ok p) :
    ∃ q, parse ts = .ok q ∧ Stmt.unplacedAll q = p := by
  obtain ⟨rest, run⟩ := parse_eq_ok_iff_run.mp h
  have forgotten := Parse.State.run_unplaced .initial ts
  rw [show Parse.State.initial.unplaced = .initial from rfl, run] at forgotten
  obtain ⟨result, _⟩ := Prod.mk.inj forgotten
  cases read : Parse.State.initial.run ts with
  | mk outcome rest' =>
    rw [read] at result
    cases outcome with
    | error e => cases result
    | ok q => exact ⟨q, parse_eq_ok_iff_run.mpr ⟨rest', read⟩, (Except.ok.inj result).symm⟩

end ThreeAddress
