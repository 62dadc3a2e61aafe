import Mathlib.Data.List.DropRight
import Mathlib.Data.List.Perm.Basic
import ThreeAddress.Code.Session

/-!
# Sessions carry nothing over

The code of a session is what a fresh start would make of the statements lowered since it was
last cleared, and a program lowered by itself gets the code it would get alone. This does not
depend on which spares are handed out: whoever needs a piece may get any spare or a new one,
and spares may be lost in between (`Session.Moves`). Each spare was cleared on its way in, so
all of them are as good as new.
-/

namespace ThreeAddress

/-- The statements that lowering a node goes through. An expression by itself has none. -/
def Node.statements : Node → List Stmt
  | program p => p
  | stmt s => [s]
  | expr _ => []

lemma Stmt.lowerAll_append (p q : List Stmt) (c : Code) :
    Stmt.lowerAll (p ++ q) c = Stmt.lowerAll q (Stmt.lowerAll p c) := by
  induction p generalizing c with
  | nil => rfl
  | cons s p ih => exact ih (s.lower c)

lemma Node.lower_eq_lowerAll (n : Node) (c : Code) : n.lower c = Stmt.lowerAll n.statements c := by
  cases n <;> rfl

namespace Session

/-- The step clears the code of the session. -/
def Step.clears : Step → Bool
  | .reset => true
  | .recycle => true
  | .lower _ => false
  | .aside _ => false

/-- The statements that a step lowers into the code of the session. -/
def Step.statements : Step → List Stmt
  | .lower n => n.statements
  | .reset => []
  | .recycle => []
  | .aside _ => []

/-- The statements lowered since the code of the session was last cleared, as one program. -/
def since (steps : List Step) : Program :=
  (steps.rtakeWhile fun st => !st.clears).flatMap Step.statements

lemma since_clears {steps : List Step} {st : Step} (h : st.clears = true) :
    since (steps ++ [st]) = [] := by
  rw [since, List.rtakeWhile_concat_neg _ _ _ (by simp [h]), List.flatMap_nil]

lemma since_keeps {steps : List Step} {st : Step} (h : st.clears = false) :
    since (steps ++ [st]) = since steps ++ st.statements := by
  rw [since, List.rtakeWhile_concat_pos _ _ _ (by simp [h]), List.flatMap_append,
    List.flatMap_singleton, since]

/-- The piece may be handed out, with those spares left: it is a new one or one of the spares,
and some of the other spares may be lost. -/
inductive MayTake (spares : List Code) : Code → List Code → Prop where
  | new {left : List Code} (kept : left.Subperm spares) : MayTake spares .empty left
  | spare {c : Code} {left : List Code} (kept : (c :: left).Subperm spares) : MayTake spares c left

/-- The step may lead from the session to another, and make the code of a program by itself. -/
inductive Moves (s : Session) : Step → Session → Option Code → Prop where
  | lower (n : Node) : Moves s (.lower n) { s with code := n.lower s.code } none
  | reset : Moves s .reset { s with code := s.code.clear } none
  | recycle {c : Code} {left : List Code} (taken : MayTake (giveBack s.spares s.code) c left) :
      Moves s .recycle ⟨c, left⟩ none
  | aside {c : Code} {left : List Code} (p : Program) (taken : MayTake s.spares c left) :
      Moves s (.aside p) { s with spares := giveBack left ((Node.program p).lower c) }
        (some ((Node.program p).lower c))

/-- The steps may lead to the session, from empty code and whatever pieces were given back
before. -/
inductive Reaches : List Step → Session → Prop where
  | start (seen : List Code) : Reaches [] ⟨.empty, seen.foldl giveBack []⟩
  | step {steps : List Step} {st : Step} {s next : Session} {made : Option Code}
      (before : Reaches steps s) (move : Moves s st next made) : Reaches (steps ++ [st]) next

lemma mayTake_take (spares : List Code) : MayTake spares (take spares).1 (take spares).2 := by
  cases spares with
  | nil => exact .new (List.Subperm.refl [])
  | cons c rest => exact .spare (List.Subperm.refl (c :: rest))

/-- Taking the spare that was given back last is one of the possible moves. -/
lemma moves_step (s : Session) (st : Step) : Moves s st (s.step st).1 (s.step st).2 := by
  cases st with
  | lower n => exact .lower n
  | reset => exact .reset
  | recycle => exact .recycle (mayTake_take _)
  | aside p => exact .aside p (mayTake_take _)

/-- All the spares are as good as new, and the code is that of the statements since it was last
cleared. -/
structure Replays (steps : List Step) (s : Session) : Prop where
  code : s.code = Program.lower (since steps)
  spares : ∀ c ∈ s.spares, c = .empty

lemma eq_empty_of_mem_giveBack {spares : List Code} (h : ∀ c ∈ spares, c = .empty) (c : Code) :
    ∀ d ∈ giveBack spares c, d = .empty :=
  List.forall_mem_cons.mpr ⟨c.clear_eq, h⟩

/-- From spares that are as good as new only new pieces are taken. -/
lemma MayTake.eq_empty {spares left : List Code} {c : Code} (h : MayTake spares c left)
    (clean : ∀ d ∈ spares, d = .empty) : c = .empty ∧ ∀ d ∈ left, d = .empty := by
  cases h with
  | new kept => exact ⟨rfl, fun d hd => clean d (kept.subset hd)⟩
  | spare kept =>
    obtain ⟨first, others⟩ := List.forall_mem_cons.mp fun d hd => clean d (kept.subset hd)
    exact ⟨first, others⟩

lemma replays_start (seen : List Code) : Replays [] ⟨.empty, seen.foldl giveBack []⟩ := by
  refine ⟨rfl, ?_⟩
  have clean (spares : List Code) (h : ∀ c ∈ spares, c = Code.empty) :
      ∀ c ∈ seen.foldl giveBack spares, c = .empty := by
    induction seen generalizing spares with
    | nil => exact h
    | cons c seen ih => exact ih _ (eq_empty_of_mem_giveBack h c)
  exact clean [] (List.forall_mem_nil _)

/-- Every move keeps the code a replay of the steps and the spares as good as new. -/
lemma Replays.move {steps : List Step} {st : Step} {s next : Session} {made : Option Code}
    (h : Replays steps s) (move : Moves s st next made) : Replays (steps ++ [st]) next := by
  cases move with
  | lower n =>
    refine ⟨?_, h.spares⟩
    rw [since_keeps rfl, Program.lower, Stmt.lowerAll_append, ← Program.lower, ← h.code]
    exact n.lower_eq_lowerAll s.code
  | reset =>
    refine ⟨?_, h.spares⟩
    rw [since_clears rfl]
    rfl
  | recycle taken =>
    obtain ⟨new, clean⟩ := taken.eq_empty (eq_empty_of_mem_giveBack h.spares s.code)
    refine ⟨?_, clean⟩
    rw [since_clears rfl, new]
    rfl
  | aside p taken =>
    obtain ⟨_, clean⟩ := taken.eq_empty h.spares
    refine ⟨?_, eq_empty_of_mem_giveBack clean _⟩
    rw [since_keeps rfl, Step.statements, List.append_nil]
    exact h.code

lemma Reaches.replays {steps : List Step} {s : Session} (h : Reaches steps s) :
    Replays steps s := by
  induction h with
  | start seen => exact replays_start seen
  | step _ move ih => exact ih.move move

/-- The session after some steps, each of which takes the spare that was given back last. -/
def run (steps : List Step) : Session := steps.foldl (fun s st => (s.step st).1) start

lemma reaches_run (steps : List Step) : Reaches steps (run steps) := by
  induction steps using List.reverseRecOn with
  | nil => exact .start []
  | append_singleton steps st ih =>
    rw [run, List.foldl_concat]
    exact ih.step (moves_step _ st)

/-- A program lowered by itself gets the code of a fresh start. -/
lemma Replays.made_eq {steps : List Step} {s next : Session} {p : Program} {made : Option Code}
    (h : Replays steps s) (move : Moves s (.aside p) next made) :
    made = some ((Node.program p).lower .empty) := by
  cases move with
  | aside _ taken => rw [(taken.eq_empty h.spares).1]

/-- Wherever the steps of a session lead, its code is that of a fresh start on the statements
lowered since it was last cleared, and a program lowered by itself gets the code of a fresh
start. In particular this holds if the spare that was given back last is always the next to be
taken. -/
theorem code_eq_lower_since :
    (∀ (steps : List Step) (s : Session), Reaches steps s →
      s.code = Program.lower (since steps) ∧
      ∀ (p : Program) (next : Session) (made : Option Code), Moves s (.aside p) next made →
        made = some ((Node.program p).lower .empty)) ∧
    ∀ steps : List Step, (run steps).code = Program.lower (since steps) ∧
      ∀ p : Program, ((run steps).step (.aside p)).2 = some ((Node.program p).lower .empty) := by
  have reached (steps : List Step) (s : Session) (h : Reaches steps s) :
      s.code = Program.lower (since steps) ∧
      ∀ (p : Program) (next : Session) (made : Option Code), Moves s (.aside p) next made →
        made = some ((Node.program p).lower .empty) :=
    ⟨h.replays.code, fun _ _ _ move => h.replays.made_eq move⟩
  refine ⟨reached, fun steps => ?_⟩
  obtain ⟨code, made⟩ := reached steps (run steps) (reaches_run steps)
  exact ⟨code, fun p => made p _ _ (moves_step (run steps) (.aside p))⟩

/-- The assignment `x = 1 + 2`. -/
def addition : Stmt :=
  .assign ⟨.identifier, "x", 1, 1⟩ ⟨⟨.identifier, "x", 1, 1⟩, "x"⟩
    (.binary ⟨.operator, "+", 1, 7⟩ "+" (.num ⟨.number, "1", 1, 5⟩ "1")
      (.num ⟨.number, "2", 1, 9⟩ "2"))

/-- A piece that was in use twice is taken from the pool and starts at the first temporary. -/
theorem code_eq_lower_since_recycled : ∃ s,
    Reaches [.lower (.program [addition, addition]), .aside [addition], .recycle,
      .lower (.stmt addition)] s ∧
    s.code = Program.lower [addition] ∧ s.code.text = utf8 "t0 = 1 + 2\nx = t0\n" := by
  let steps : List Step :=
    [.lower (.program [addition, addition]), .aside [addition], .recycle,
      .lower (.stmt addition)]
  have code : (run steps).code = Program.lower [addition] :=
    (code_eq_lower_since.1 steps (run steps) (reaches_run steps)).1
  refine ⟨run steps, reaches_run steps, code, ?_⟩
  rw [code]
  decide +kernel

end Session
end ThreeAddress
