import ThreeAddress.Proofs.Accepted

/-!
# Lowering preserves meaning

Numbers and operators may stand for anything. A tree is evaluated by its assignments in
source order, into the blocks of `if` and `while` as if they stood in the open; conditions
and `print` have no effect. Code is executed line by line. Both change the values of the
declared names in the same way, provided that no name of the source is a temporary: a
temporary holds the left operand while the right one is computed, and nothing else may
write to it in between.
-/

namespace ThreeAddress

universe u

/-- What numbers and operators stand for, by their spelling. -/
structure Interpretation (V : Type u) where
  number : Text → V
  operator : Text → V → V → V

/-- The values after a name got a new one. -/
def put {V : Type u} (env : Text → V) (name : Text) (v : V) : Text → V :=
  fun a => if a = name then v else env a

namespace Interpretation

variable {V : Type u} (I : Interpretation V)

/-- The value of an operand: numerals are numbers, all others names. -/
def operand (env : Text → V) (o : Text) : V := if IsNumeral o then I.number o else env o

/-- The value that an instruction computes. -/
def result (env : Text → V) (i : Instruction) : V :=
  match i.op with
  | .copy => I.operand env i.left
  | op => I.operator op.symbol (I.operand env i.left) (I.operand env i.right)

/-- Executes instructions one after another. -/
def exec (env : Text → V) : List Instruction → Text → V
  | [] => env
  | i :: is => exec (put env i.dest (I.result env i)) is

end Interpretation

/-- The value of an expression. A missing one counts as the fallback operand. -/
def Expr.value {V : Type u} (I : Interpretation V) (env : Text → V) : Expr → V
  | hole => I.number fallbackOperand
  | var id => env id.name
  | num _ digits => I.number digits
  | binary _ op left right => I.operator op (left.value I env) (right.value I env)

mutual

/-- The values after the assignments of a statement. -/
def Stmt.run {V : Type u} (I : Interpretation V) (env : Text → V) : Stmt → Text → V
  | .hole => env
  | .declare .. => env
  | .assign _ id value => put env id.name (value.value I env)
  | .print .. => env
  | .block _ body => Stmt.runAll I env body
  | .ifThen _ _ _ body => Stmt.runAll I env body
  | .ifElse _ _ _ body _ elseBody => Stmt.runAll I (Stmt.runAll I env body) elseBody
  | .whileDo _ _ _ body => Stmt.runAll I env body

def Stmt.runAll {V : Type u} (I : Interpretation V) (env : Text → V) : List Stmt → Text → V
  | [] => env
  | s :: rest => Stmt.runAll I (s.run I env) rest

end

section Simulation

variable {V : Type u} {I : Interpretation V} {env env' : Text → V}

lemma put_self (env : Text → V) (name : Text) (v : V) : put env name v name = v := if_pos rfl

lemma put_of_ne {name a : Text} (h : a ≠ name) (v : V) : put env name v a = env a := if_neg h

namespace Interpretation

lemma exec_append (is js : List Instruction) :
    I.exec env (is ++ js) = I.exec (I.exec env is) js := by
  induction is generalizing env with
  | nil => rfl
  | cons i is ih => exact ih

/-- A name that no instruction writes to keeps its value. -/
lemma exec_of_forall_dest_ne {is : List Instruction} {name : Text}
    (h : ∀ i ∈ is, i.dest ≠ name) : I.exec env is name = env name := by
  induction is generalizing env with
  | nil => rfl
  | cons i is ih =>
    obtain ⟨hi, his⟩ := List.forall_mem_cons.mp h
    exact (ih his).trans (put_of_ne (Ne.symm hi) _)

/-- An operand keeps its value as long as it is not a name that was written to. -/
lemma operand_congr {o : Text} (h : ¬ IsNumeral o → env o = env' o) :
    I.operand env o = I.operand env' o := by
  by_cases numeral : IsNumeral o
  · simp only [operand, if_pos numeral]
  · simp only [operand, if_neg numeral, h numeral]

lemma result_operation {op : Op} (dest left right : Text) (h : op ≠ .copy) :
    I.result env ⟨dest, op, left, right⟩ =
      I.operator op.symbol (I.operand env left) (I.operand env right) := by
  cases op <;> first | rfl | exact absurd rfl h

end Interpretation

/-- The value of an expression depends on its names only. -/
lemma Expr.value_congr {Name Number : Text → Prop} {e : Expr} (within : e.Within Name Number)
    (agree : ∀ name, Name name → env name = env' name) : e.value I env = e.value I env' := by
  induction e with
  | hole => rfl
  | var id => exact agree id.name within
  | num => rfl
  | binary token op left right ihLeft ihRight =>
    rw [value, value, ihLeft within.2.1, ihRight within.2.2]

/-- The name is none of the first `limit` temporaries. -/
def Outside (limit : Nat) (name : Text) : Prop := ∀ i < limit, name ≠ temporary i

/-- A name that can be told from numbers and from the first `limit` temporaries. -/
def Plain (limit : Nat) (name : Text) : Prop := ¬ IsNumeral name ∧ Outside limit name

lemma not_isNumeral_temporary (n : Nat) : ¬ IsNumeral (temporary n) := by
  intro numeral
  have first := numeral.2 0x74 List.mem_cons_self
  exact absurd first (by decide)

namespace Expr

variable {e : Expr} {limit n : Nat}

/-- The code of an expression changes its own temporaries only. -/
lemma exec_emit_of_forall_ne {name : Text}
    (h : ∀ k, n ≤ k → k < n + (e.emit n).2.temporaries → name ≠ temporary k) :
    I.exec env (e.emit n).2.instructions name = env name := by
  apply Interpretation.exec_of_forall_dest_ne
  intro i hi same
  obtain ⟨k, low, high, dest⟩ := exists_temporary_of_mem_emit hi
  exact h k low high (same.symm.trans dest)

lemma exec_emit_of_outside {name : Text} (bound : n + (e.emit n).2.temporaries ≤ limit)
    (outside : Outside limit name) : I.exec env (e.emit n).2.instructions name = env name :=
  exec_emit_of_forall_ne fun k _ high => outside k (by omega)

/-- No code that follows within the limit writes to the operand of an expression. -/
lemma operand_ne_temporary (within : e.Within (Plain limit) IsNumeral) {i : Nat}
    (later : n + (e.emit n).2.temporaries ≤ i) (high : i < limit) :
    (e.emit n).1 ≠ temporary i := by
  cases e with
  | hole => exact within.elim
  | var id => exact within.2 i high
  | num token digits =>
    intro same
    exact not_isNumeral_temporary i (same ▸ within)
  | binary token symbol left right =>
    obtain ⟨op, hop⟩ := Option.isSome_iff_exists.mp within.1
    rw [emit_binary hop] at later ⊢
    intro same
    have hi := temporary_injective same
    have one : (Code.operation (temporary (n + (emitBoth n left right).temporaries)) op
      (left.emit n).1 (right.emit (n + (left.emit n).2.temporaries)).1).temporaries = 1 := rfl
    rw [Code.temporaries_append, one] at later
    omega

/-- After its code is executed, the operand of an expression holds its value. -/
lemma operand_exec_emit (within : e.Within (Plain limit) IsNumeral)
    (bound : n + (e.emit n).2.temporaries ≤ limit) :
    I.operand (I.exec env (e.emit n).2.instructions) (e.emit n).1 = e.value I env := by
  induction e generalizing n env with
  | hole => exact within.elim
  | var id => exact if_neg within.1
  | num token digits => exact if_pos within
  | binary token symbol left right ihLeft ihRight =>
    obtain ⟨op, hop⟩ := Option.isSome_iff_exists.mp within.1
    have hsymbol : op.symbol = symbol := (Op.mem_binary_of_ofSymbol? hop).2
    rw [emit_binary hop] at bound ⊢
    have fits : n + (left.emit n).2.temporaries +
        (right.emit (n + (left.emit n).2.temporaries)).2.temporaries + 1 ≤ limit := by
      simpa [emitBoth, Code.operation, Nat.add_assoc] using bound
    -- the values once the left operand is computed, and once the right one is
    let middle := I.exec env (left.emit n).2.instructions
    let final := I.exec middle (right.emit (n + (left.emit n).2.temporaries)).2.instructions
    have hleft : I.operand final (left.emit n).1 = left.value I env := by
      have survives : I.operand final (left.emit n).1 = I.operand middle (left.emit n).1 :=
        Interpretation.operand_congr fun _ => exec_emit_of_forall_ne fun k low high =>
          operand_ne_temporary within.2.1 low (by omega)
      exact survives.trans (ihLeft within.2.1 (by omega))
    have hright : I.operand final (right.emit (n + (left.emit n).2.temporaries)).1 =
        right.value I env := by
      have same : right.value I middle = right.value I env :=
        value_congr within.2.2 fun name plain => exec_emit_of_outside (by omega) plain.2
      exact (ihRight within.2.2 (by omega)).trans same
    have run : I.exec env (emitBoth n left right ++ Code.operation
        (temporary (n + (emitBoth n left right).temporaries)) op (left.emit n).1
        (right.emit (n + (left.emit n).2.temporaries)).1).instructions =
        put final (temporary (n + (emitBoth n left right).temporaries))
          (I.operator op.symbol (I.operand final (left.emit n).1)
            (I.operand final (right.emit (n + (left.emit n).2.temporaries)).1)) := by
      rw [Code.instructions_append, emitBoth, Code.instructions_append,
        Interpretation.exec_append, Interpretation.exec_append]
      exact congrArg _ (Interpretation.result_operation _ _ _ (Op.ne_copy_of_ofSymbol? hop))
    rw [run, hleft, hright, hsymbol, Interpretation.operand, if_neg (not_isNumeral_temporary _),
      put_self, value]

end Expr

/-- The two valuations differ at most on the first `limit` temporaries. -/
def Agree (limit : Nat) (env env' : Text → V) : Prop :=
  ∀ name, Outside limit name → env name = env' name

lemma agree_assign {limit n : Nat} {id : Ident} {e : Expr} (agree : Agree limit env env')
    (within : e.Within (Plain limit) IsNumeral) (bound : n + (e.emit n).2.temporaries ≤ limit) :
    Agree limit
      (I.exec env ((e.emit n).2 ++ Code.copying id.name (e.emit n).1).instructions)
      (put env' id.name (e.value I env')) := by
  have same : e.value I env = e.value I env' :=
    Expr.value_congr within fun name plain => agree name plain.2
  have run : I.exec env ((e.emit n).2 ++ Code.copying id.name (e.emit n).1).instructions =
      put (I.exec env (e.emit n).2.instructions) id.name (e.value I env') := by
    rw [Code.instructions_append, Interpretation.exec_append, ← same,
      ← Expr.operand_exec_emit within bound]
    rfl
  intro name outside
  rw [run]
  by_cases target : name = id.name
  · rw [target, put_self, put_self]
  · rw [put_of_ne target, put_of_ne target, Expr.exec_emit_of_outside bound outside]
    exact agree name outside

mutual

/-- Executing the code of a statement has the effect of the statement. -/
lemma Stmt.agree_exec_emit {limit : Nat} (n : Nat) {env env' : Text → V}
    (agree : Agree limit env env') :
    (s : Stmt) → s.Within (Plain limit) IsNumeral → n + (s.emit n).temporaries ≤ limit →
      Agree limit (I.exec env (s.emit n).instructions) (s.run I env')
  | .hole, within, _ => by
    rw [Stmt.Within] at within
    exact within.elim
  | .declare .., _, _ => by
    rw [emit, run]
    exact agree
  | .assign _ id value, within, bound => by
    rw [Stmt.Within] at within
    rw [emit] at bound ⊢
    rw [run]
    exact agree_assign agree within.2 (by simpa [Code.copying] using bound)
  | .print .., _, _ => by
    rw [emit, run]
    exact agree
  | .block _ body, within, bound => by
    rw [Stmt.Within] at within
    rw [emit] at bound ⊢
    rw [run]
    exact agree_exec_emitAll n agree body within bound
  | .ifThen _ _ _ body, within, bound => by
    rw [Stmt.Within] at within
    rw [emit] at bound ⊢
    rw [run]
    exact agree_exec_emitAll n agree body within.2 (by simpa [Code.omitted] using bound)
  | .ifElse _ _ _ body _ elseBody, within, bound => by
    rw [Stmt.Within] at within
    rw [emit] at bound ⊢
    have fits : n + (emitAll n body).temporaries +
        (emitAll (n + (emitAll n body).temporaries) elseBody).temporaries ≤ limit := by
      simpa [Code.omitted, Nat.add_assoc] using bound
    have first := agree_exec_emitAll n agree body within.2.1 (by omega)
    have second := agree_exec_emitAll _ first elseBody within.2.2 fits
    rw [run, Code.instructions_append, Code.instructions_append, Interpretation.exec_append,
      Interpretation.exec_append]
    exact second
  | .whileDo _ _ _ body, within, bound => by
    rw [Stmt.Within] at within
    rw [emit] at bound ⊢
    rw [run]
    exact agree_exec_emitAll n agree body within.2 (by simpa [Code.omitted] using bound)

lemma Stmt.agree_exec_emitAll {limit : Nat} (n : Nat) {env env' : Text → V}
    (agree : Agree limit env env') :
    (p : List Stmt) → Stmt.WithinAll (Plain limit) IsNumeral p →
      n + (Stmt.emitAll n p).temporaries ≤ limit →
      Agree limit (I.exec env (Stmt.emitAll n p).instructions) (Stmt.runAll I env' p)
  | [], _, _ => by
    rw [emitAll, runAll]
    exact agree
  | s :: rest, within, bound => by
    rw [Stmt.WithinAll] at within
    rw [emitAll] at bound ⊢
    have fits : n + (s.emit n).temporaries +
        (emitAll (n + (s.emit n).temporaries) rest).temporaries ≤ limit := by
      simpa [Nat.add_assoc] using bound
    have first := agree_exec_emit n agree s within.1 (by omega)
    have second := agree_exec_emitAll _ first rest within.2 fits
    rw [runAll, Code.instructions_append, Interpretation.exec_append]
    exact second

end

end Simulation

lemma not_isNumeral_of_admits {t : Token} (kind : t.kind = .identifier)
    (admits : t.kind.Admits t.lexeme) : ¬ IsNumeral t.lexeme := by
  rw [kind] at admits
  exact not_isNumeral_of_isWord admits.1

lemma isNumeral_of_admits {t : Token} (kind : t.kind = .number)
    (admits : t.kind.Admits t.lexeme) : IsNumeral t.lexeme := by
  rw [kind] at admits
  exact admits

/-- Executing the code of an accepted source, no name of which is one of the temporaries
that the code uses, gives every other name the value that the assignments of the source
give it, whatever numbers and operators stand for and whatever the names held before. -/
theorem exec_instructions_eq_runAll {V : Type u} (I : Interpretation V) {options : Options}
    {source : Text} {c : Compiled} (accepted : compile options source = .ok c)
    (fresh : ∀ t ∈ c.tokens, t.kind = .identifier →
      ∀ i < c.code.temporaries, t.lexeme ≠ temporary i)
    (env : Text → V) (name : Text) (visible : ∀ i < c.code.temporaries, name ≠ temporary i) :
    I.exec env c.code.instructions name = Stmt.runAll I env c.program name := by
  have stages := accepted_of_compile accepted
  have within : Stmt.WithinAll (Plain c.code.temporaries) IsNumeral c.program :=
    stages.within
      (fun t ht kind => ⟨not_isNumeral_of_admits kind (stages.admitted t ht), fresh t ht kind⟩)
      (fun t ht kind => isNumeral_of_admits kind (stages.admitted t ht))
  have agree : Agree c.code.temporaries (I.exec env (Stmt.emitAll 0 c.program).instructions)
      (Stmt.runAll I env c.program) :=
    Stmt.agree_exec_emitAll 0 (fun _ _ => rfl) c.program within (by rw [← stages.code_eq]; omega)
  rw [stages.code_eq]
  exact agree name visible

/-- Decimal numbers and the arithmetic of integers, with 1 and 0 for true and false. -/
def Interpretation.integers : Interpretation Int where
  number digits := digits.foldl (fun n d => 10 * n + (d.toNat - 48)) 0
  operator symbol a b :=
    if symbol = utf8 "+" then a + b
    else if symbol = utf8 "-" then a - b
    else if symbol = utf8 "*" then a * b
    else if symbol = utf8 "/" then a.tdiv b
    else if symbol = utf8 "<" then if a < b then 1 else 0
    else if a > b then 1 else 0

/-- Operands that are temporaries on both sides, and a variable next to the last of them. -/
theorem exec_instructions_eq_runAll_nested : ∃ c,
    compile ⟨.reject, .tokens⟩ (utf8 "int t3; t3 = (20 - 4) / (1 + 1);") = .ok c ∧
    c.code.temporaries = 3 ∧
    Interpretation.integers.exec (fun _ => 0) c.code.instructions (utf8 "t3") =
      Stmt.runAll Interpretation.integers (fun _ => 0) c.program (utf8 "t3") ∧
    Stmt.runAll Interpretation.integers (fun _ => 0) c.program (utf8 "t3") = 8 := by
  obtain ⟨c, accepted, three, fresh, visible, value⟩ : ∃ c,
      compile ⟨.reject, .tokens⟩ (utf8 "int t3; t3 = (20 - 4) / (1 + 1);") = .ok c ∧
      c.code.temporaries = 3 ∧
      (∀ t ∈ c.tokens, t.kind = .identifier →
        ∀ i < c.code.temporaries, t.lexeme ≠ temporary i) ∧
      (∀ i < c.code.temporaries, utf8 "t3" ≠ temporary i) ∧
      Stmt.runAll Interpretation.integers (fun _ => 0) c.program (utf8 "t3") = 8 := by
    decide +kernel
  exact ⟨c, accepted, three,
    exec_instructions_eq_runAll _ accepted fresh (fun _ => 0) (utf8 "t3") visible, value⟩

end ThreeAddress
