import ThreeAddress.Proofs.Flattening

/-!
# Closed code

The code of an accepted source can be executed from its first instruction on. Whatever an
instruction reads is a number of the source, a declared name, or a temporary that an operation
before it has written, and no operand had to be made up. The operations are numbered by the
temporaries they write.
-/

namespace ThreeAddress

/-- How many of the instructions are operations. -/
def operationCount (is : List Instruction) : Nat := is.countP (·.op ∈ Op.binary)

lemma Op.copy_notMem_binary : copy ∉ binary := by decide

lemma operationCount_append (is js : List Instruction) :
    operationCount (is ++ js) = operationCount is + operationCount js :=
  List.countP_append

/-- The operand has a value once the first `ready` temporaries have been written. -/
def Readable (Name Number : Text → Prop) (ready : Nat) (o : Text) : Prop :=
  Number o ∨ Name o ∨ ∃ i < ready, o = temporary i

/-- The instruction fits behind `ready` operations: it writes to a name or to the next
temporary, and reads what is there. -/
structure Instruction.Closed (Name Number : Text → Prop) (ready : Nat) (i : Instruction) :
    Prop where
  dest : i.op = .copy ∧ Name i.dest ∨ i.op ∈ Op.binary ∧ i.dest = temporary ready
  left : Readable Name Number ready i.left
  right : i.op ∈ Op.binary → Readable Name Number ready i.right

/-- A piece of code behind `n` operations, each instruction of which fits where it stands. -/
structure Code.Closed (Name Number : Text → Prop) (n : Nat) (c : Code) : Prop where
  fallbacks : c.fallbacks = 0
  temporaries : c.temporaries = operationCount c.instructions
  fits : ∀ (k : Nat) (i : Instruction), c.instructions[k]? = some i →
    i.Closed Name Number (n + operationCount (c.instructions.take k))

section Closed

variable {Name Number : Text → Prop} {n m : Nat}

lemma Readable.mono {o : Text} (h : Readable Name Number n o) (le : n ≤ m) :
    Readable Name Number m o := by
  rcases h with number | name | ⟨i, hi, same⟩
  · exact Or.inl number
  · exact Or.inr (Or.inl name)
  · exact Or.inr (Or.inr ⟨i, by omega, same⟩)

namespace Code

lemma closed_of_instructions_eq_nil {c : Code} (none : c.instructions = [])
    (fallbacks : c.fallbacks = 0) (temporaries : c.temporaries = 0) :
    c.Closed Name Number n := by
  refine ⟨fallbacks, by simp [none, temporaries, operationCount], ?_⟩
  intro k i here
  rw [none] at here
  cases here

lemma closed_empty : empty.Closed Name Number n := closed_of_instructions_eq_nil rfl rfl rfl

lemma closed_omitted (t : Token) : (omitted t).Closed Name Number n :=
  closed_of_instructions_eq_nil rfl rfl rfl

/-- One instruction is closed if it fits. -/
lemma fits_singleton {i : Instruction} (h : i.Closed Name Number n) (k : Nat) (j : Instruction)
    (here : [i][k]? = some j) : j.Closed Name Number (n + operationCount ([i].take k)) := by
  cases k with
  | zero =>
    cases here
    exact h
  | succ k => cases here

lemma closed_copying {dest value : Text} (name : Name dest) (read : Readable Name Number n value) :
    (copying dest value).Closed Name Number n where
  fallbacks := rfl
  temporaries := rfl
  fits := fits_singleton
    ⟨Or.inl ⟨rfl, name⟩, read, fun binary => absurd binary Op.copy_notMem_binary⟩

lemma closed_operation {op : Op} {left right : Text} (binary : op ∈ Op.binary)
    (readLeft : Readable Name Number n left) (readRight : Readable Name Number n right) :
    (operation (temporary n) op left right).Closed Name Number n where
  fallbacks := rfl
  temporaries := by simp [operation, operationCount, binary]
  fits := fits_singleton ⟨Or.inr ⟨binary, rfl⟩, readLeft, fun _ => readRight⟩

/-- Closed pieces can be put one behind another. -/
lemma Closed.append {c d : Code} (hc : c.Closed Name Number n)
    (hd : d.Closed Name Number (n + c.temporaries)) : (c ++ d).Closed Name Number n := by
  refine ⟨?_, ?_, ?_⟩
  · rw [fallbacks_append, hc.fallbacks, hd.fallbacks]
  · rw [temporaries_append, instructions_append, operationCount_append, hc.temporaries,
      hd.temporaries]
  · intro k i here
    rw [instructions_append] at here ⊢
    by_cases first : k < c.instructions.length
    · rw [List.getElem?_append_left first] at here
      rw [List.take_append_of_le_length (by omega)]
      exact hc.fits k i here
    · rw [List.getElem?_append_right (by omega)] at here
      have fits := hd.fits _ i here
      rw [hc.temporaries, Nat.add_assoc, ← operationCount_append] at fits
      rw [List.take_append, List.take_of_length_le (by omega)]
      exact fits

end Code

/-- An expression computes its operand by closed code, behind which the operand can be read. -/
lemma Expr.closed_emit {e : Expr} (within : e.Within Name Number) (n : Nat) :
    (e.emit n).2.Closed Name Number n ∧
      Readable Name Number (n + (e.emit n).2.temporaries) (e.emit n).1 := by
  induction e generalizing n with
  | hole => exact within.elim
  | var id => exact ⟨Code.closed_empty, Or.inr (Or.inl within)⟩
  | num token digits => exact ⟨Code.closed_empty, Or.inl within⟩
  | binary token symbol left right ihLeft ihRight =>
    obtain ⟨known, withinLeft, withinRight⟩ := within
    obtain ⟨op, hop⟩ := Option.isSome_iff_exists.mp known
    obtain ⟨closedLeft, readLeft⟩ := ihLeft withinLeft n
    obtain ⟨closedRight, readRight⟩ := ihRight withinRight (n + (left.emit n).2.temporaries)
    have both : (emitBoth n left right).Closed Name Number n := closedLeft.append closedRight
    have count : n + (emitBoth n left right).temporaries = n + (left.emit n).2.temporaries +
        (right.emit (n + (left.emit n).2.temporaries)).2.temporaries := by
      rw [emitBoth, Code.temporaries_append, Nat.add_assoc]
    rw [emit_binary hop]
    constructor
    · apply both.append
      apply Code.closed_operation (Op.mem_binary_of_ofSymbol? hop).1
      · exact readLeft.mono (by omega)
      · exact readRight.mono (by omega)
    · refine Or.inr (Or.inr ⟨_, ?_, rfl⟩)
      simp only [Code.temporaries_append, Code.operation]
      omega

/-- The names of an action are among `Name` and its numbers among `Number`. -/
def Action.Within (Name Number : Text → Prop) : Action → Prop
  | assign id value => Name id.name ∧ value.Within Name Number
  | leaveOut _ => True

lemma Action.closed_emit {a : Action} (within : a.Within Name Number) (n : Nat) :
    (a.emit n).Closed Name Number n := by
  cases a with
  | assign id value =>
    obtain ⟨closed, read⟩ := value.closed_emit within.2 n
    exact closed.append (Code.closed_copying within.1 read)
  | leaveOut token => exact Code.closed_omitted token

lemma Action.closed_emitAll {as : List Action} (within : ∀ a ∈ as, a.Within Name Number)
    (n : Nat) : (emitAll n as).Closed Name Number n := by
  induction as generalizing n with
  | nil => exact Code.closed_empty
  | cons a as ih =>
    obtain ⟨first, others⟩ := List.forall_mem_cons.mp within
    exact (closed_emit first n).append (ih others _)

mutual

lemma Stmt.within_actions : (s : Stmt) → s.Within Name Number →
    ∀ a ∈ s.actions, a.Within Name Number
  | .hole, _ => by simp [actions]
  | .declare .., _ => by simp [actions]
  | .assign .., within => by
    rw [Stmt.Within] at within
    simpa [actions, Action.Within] using within
  | .print .., _ => by simp [actions, Action.Within]
  | .block _ body, within => by
    rw [Stmt.Within] at within
    rw [actions]
    exact within_actionsAll body within
  | .ifThen _ _ _ body, within => by
    rw [Stmt.Within] at within
    rw [actions, List.forall_mem_cons]
    exact ⟨trivial, within_actionsAll body within.2⟩
  | .ifElse _ _ _ body _ elseBody, within => by
    rw [Stmt.Within] at within
    rw [actions, List.forall_mem_cons, List.forall_mem_append]
    exact ⟨trivial, within_actionsAll body within.2.1, within_actionsAll elseBody within.2.2⟩
  | .whileDo _ _ _ body, within => by
    rw [Stmt.Within] at within
    rw [actions, List.forall_mem_cons]
    exact ⟨trivial, within_actionsAll body within.2⟩

lemma Stmt.within_actionsAll : (p : List Stmt) → Stmt.WithinAll Name Number p →
    ∀ a ∈ Stmt.actionsAll p, a.Within Name Number
  | [], _ => by simp [actionsAll]
  | s :: rest, within => by
    rw [Stmt.WithinAll] at within
    rw [actionsAll, List.forall_mem_append]
    exact ⟨within_actions s within.1, within_actionsAll rest within.2⟩

end

end Closed

/-- The code of an accepted source is closed over its declared names and its numbers. -/
lemma Accepted.closed {c : Compiled} (h : Accepted c) :
    c.code.Closed (fun o => ∃ s ∈ c.symbols, s.name = o)
      (fun o => ∃ t ∈ c.tokens, t.kind = .number ∧ t.lexeme = o) 0 := by
  rw [h.code_eq_actions]
  apply Action.closed_emitAll
  apply Stmt.within_actionsAll
  apply h.within
  · intro t ht kind
    exact (h.exists_symbol_iff t.lexeme).mpr ⟨t, ht, kind, rfl⟩
  · intro t ht kind
    exact ⟨t, ht, kind, rfl⟩

/-- The code of an accepted source has no operand that was made up and as many temporaries as
operations. Each instruction copies to a declared name, or is an operation into the temporary
of its own number. It reads only numbers of the source, declared names, and temporaries of
operations before it. -/
theorem closed_of_compile {options : Options} {source : Text} {c : Compiled}
    (accepted : compile options source = .ok c) :
    c.code.fallbacks = 0 ∧ c.code.temporaries = operationCount c.code.instructions ∧
    ∀ (k : Nat) (i : Instruction), c.code.instructions[k]? = some i →
      i.Closed (fun o => ∃ s ∈ c.symbols, s.name = o)
        (fun o => ∃ t ∈ c.tokens, t.kind = .number ∧ t.lexeme = o)
        (operationCount (c.code.instructions.take k)) := by
  have closed := (accepted_of_compile accepted).closed
  refine ⟨closed.fallbacks, closed.temporaries, ?_⟩
  intro k i here
  have fits := closed.fits k i here
  rwa [Nat.zero_add] at fits

/-- The last operation of a nested value reads the temporaries of the two before it. -/
theorem closed_of_compile_nested : ∃ c,
    compile ⟨.skip, .tokens⟩ (utf8 "int x; if (x > 1) \x7b x = (x - 3) / (2 < x); \x7d") = .ok c ∧
    c.code.fallbacks = 0 ∧ c.code.temporaries = 3 ∧
    c.code.instructions[2]? = some ⟨temporary 2, .div, temporary 0, temporary 1⟩ ∧
    Instruction.Closed (fun o => ∃ s ∈ c.symbols, s.name = o)
      (fun o => ∃ t ∈ c.tokens, t.kind = .number ∧ t.lexeme = o) 2
      ⟨temporary 2, .div, temporary 0, temporary 1⟩ := by
  obtain ⟨c, accepted, three, here, two⟩ : ∃ c,
      compile ⟨.skip, .tokens⟩ (utf8 "int x; if (x > 1) \x7b x = (x - 3) / (2 < x); \x7d") = .ok c ∧
      c.code.temporaries = 3 ∧
      c.code.instructions[2]? = some ⟨temporary 2, .div, temporary 0, temporary 1⟩ ∧
      operationCount (c.code.instructions.take 2) = 2 := by decide +kernel
  obtain ⟨fallbacks, _, closed⟩ := closed_of_compile accepted
  have fits := closed 2 _ here
  rw [two] at fits
  exact ⟨c, accepted, fallbacks, three, here, fits⟩

end ThreeAddress
