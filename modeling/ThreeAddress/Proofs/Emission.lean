import Mathlib.Tactic.Lemma
import ThreeAddress.Code.Lower

/-!
# What lowering adds

Lowering a tree extends the code at hand by a piece that depends on the tree and the next
free temporary only (`Stmt.lower_eq`). The pieces are put one behind another, and their
operations go to the temporaries in order, one each, in whatever tree.
-/

namespace ThreeAddress

namespace Code

/-- One piece of code behind another. -/
def append (c d : Code) : Code where
  instructions := c.instructions ++ d.instructions
  omissions := c.omissions ++ d.omissions
  temporaries := c.temporaries + d.temporaries
  fallbacks := c.fallbacks + d.fallbacks

instance : Append Code := ⟨append⟩

@[simp] lemma instructions_append (c d : Code) :
    (c ++ d).instructions = c.instructions ++ d.instructions := rfl

@[simp] lemma omissions_append (c d : Code) :
    (c ++ d).omissions = c.omissions ++ d.omissions := rfl

@[simp] lemma temporaries_append (c d : Code) :
    (c ++ d).temporaries = c.temporaries + d.temporaries := rfl

@[simp] lemma fallbacks_append (c d : Code) :
    (c ++ d).fallbacks = c.fallbacks + d.fallbacks := rfl

lemma append_eq (c d : Code) : c ++ d = ⟨c.instructions ++ d.instructions,
    c.omissions ++ d.omissions, c.temporaries + d.temporaries, c.fallbacks + d.fallbacks⟩ := rfl

lemma append_assoc (a b c : Code) : a ++ b ++ c = a ++ (b ++ c) := by
  simp [append_eq, Nat.add_assoc]

@[simp] lemma append_empty (c : Code) : c ++ empty = c := by
  simp [append_eq, empty]

@[simp] lemma empty_append (c : Code) : empty ++ c = c := by
  simp [append_eq, empty]

/-- The piece that one instruction into a temporary makes. -/
def operation (dest : Text) (op : Op) (left right : Text) : Code :=
  ⟨[⟨dest, op, left, right⟩], [], 1, 0⟩

/-- The piece that a copy makes. -/
def copying (dest value : Text) : Code := ⟨[.copy dest value], [], 0, 0⟩

/-- The piece that a fallback makes. -/
def missing : Code := ⟨[], [], 0, 1⟩

/-- The piece that an omitted statement makes. -/
def omitted (t : Token) : Code := ⟨[], [⟨t.lexeme, t.line⟩], 0, 0⟩

lemma operate_eq (c : Code) (op : Op) (left right : Text) :
    c.operate op left right =
      (temporary c.temporaries, c ++ operation (temporary c.temporaries) op left right) := by
  simp [operate, operation, append_eq]

lemma copy_eq (c : Code) (dest value : Text) : c.copy dest value = c ++ copying dest value := by
  simp [copy, copying, append_eq]

lemma fallBack_eq (c : Code) : c.fallBack = (fallbackOperand, c ++ missing) := by
  simp [fallBack, missing, append_eq]

lemma note_eq (c : Code) (t : Token) : c.note t = c ++ omitted t := by
  simp [note, omitted, append_eq]

end Code

/-- The operand of an expression and the piece of code that computes it, `n` being the
first free temporary. -/
def Expr.emit (n : Nat) : Expr → Text × Code
  | hole => (fallbackOperand, .missing)
  | var id => (id.name, .empty)
  | num _ digits => (digits, .empty)
  | binary _ op left right =>
    let l := left.emit n
    let r := right.emit (n + l.2.temporaries)
    let both := l.2 ++ r.2
    match Op.ofSymbol? op with
    | some op =>
      let dest := temporary (n + both.temporaries)
      (dest, both ++ .operation dest op l.1 r.1)
    | none => (fallbackOperand, both ++ .missing)

mutual

/-- The piece of code of a statement, `n` being the first free temporary. -/
def Stmt.emit (n : Nat) : Stmt → Code
  | .hole => .empty
  | .declare .. => .empty
  | .assign _ id value => (value.emit n).2 ++ .copying id.name (value.emit n).1
  | .print token _ => .omitted token
  | .block _ body => Stmt.emitAll n body
  | .ifThen token _ _ body => .omitted token ++ Stmt.emitAll n body
  | .ifElse token _ _ body _ elseBody =>
    .omitted token ++ (Stmt.emitAll n body ++
      Stmt.emitAll (n + (Stmt.emitAll n body).temporaries) elseBody)
  | .whileDo token _ _ body => .omitted token ++ Stmt.emitAll n body

def Stmt.emitAll (n : Nat) : List Stmt → Code
  | [] => .empty
  | s :: rest => s.emit n ++ Stmt.emitAll (n + (s.emit n).temporaries) rest

end

section Binary

variable {n : Nat} {token : Token} {symbol : Text} {left right : Expr}

/-- The pieces of both operands, left before right. -/
def Expr.emitBoth (n : Nat) (left right : Expr) : Code :=
  (left.emit n).2 ++ (right.emit (n + (left.emit n).2.temporaries)).2

lemma Expr.emit_binary {op : Op} (h : Op.ofSymbol? symbol = some op) :
    (binary token symbol left right).emit n =
      (temporary (n + (emitBoth n left right).temporaries), emitBoth n left right ++
        .operation (temporary (n + (emitBoth n left right).temporaries)) op (left.emit n).1
          (right.emit (n + (left.emit n).2.temporaries)).1) := by
  simp only [emit, h]
  rfl

lemma Expr.emit_binary_none (h : Op.ofSymbol? symbol = none) :
    (binary token symbol left right).emit n =
      (fallbackOperand, emitBoth n left right ++ .missing) := by
  simp only [emit, h]
  rfl

end Binary

/-- Lowering an expression appends its piece. -/
lemma Expr.lower_eq (e : Expr) (c : Code) :
    e.lower c = ((e.emit c.temporaries).1, c ++ (e.emit c.temporaries).2) := by
  induction e generalizing c with
  | hole => rw [lower, emit, Code.fallBack_eq]
  | var id => rw [lower, emit, Code.append_empty]
  | num => rw [lower, emit, Code.append_empty]
  | binary token symbol left right ihLeft ihRight =>
    simp only [lower, ihLeft, ihRight]
    have both : c ++ (left.emit c.temporaries).2 ++
        (right.emit (c ++ (left.emit c.temporaries).2).temporaries).2 =
        c ++ emitBoth c.temporaries left right := Code.append_assoc _ _ _
    rw [both]
    cases h : Op.ofSymbol? symbol with
    | none => rw [emit_binary_none h, Code.fallBack_eq, Code.append_assoc]
    | some op =>
      rw [emit_binary h, ← Code.append_assoc]
      exact Code.operate_eq _ _ _ _

mutual

/-- Lowering a statement appends its piece. -/
lemma Stmt.lower_eq (c : Code) : (s : Stmt) → s.lower c = c ++ s.emit c.temporaries
  | .hole => by rw [lower, emit, Code.append_empty]
  | .declare .. => by rw [lower, emit, Code.append_empty]
  | .assign _ id value => by
    simp only [lower, emit, value.lower_eq, Code.copy_eq, Code.append_assoc]
  | .print token _ => by rw [lower, emit, Code.note_eq]
  | .block _ body => by rw [lower, emit, lowerAll_eq]
  | .ifThen token _ _ body => by
    rw [lower, emit, lowerAll_eq, Code.note_eq, Code.append_assoc]
    rfl
  | .ifElse token _ _ body _ elseBody => by
    rw [lower, emit, lowerAll_eq, lowerAll_eq, Code.note_eq, Code.append_assoc, Code.append_assoc]
    rfl
  | .whileDo token _ _ body => by
    rw [lower, emit, lowerAll_eq, Code.note_eq, Code.append_assoc]
    rfl

lemma Stmt.lowerAll_eq (c : Code) :
    (p : List Stmt) → Stmt.lowerAll p c = c ++ Stmt.emitAll c.temporaries p
  | [] => by rw [lowerAll, emitAll, Code.append_empty]
  | s :: rest => by
    rw [lowerAll, emitAll, lower_eq c s, lowerAll_eq _ rest, Code.append_assoc,
      Code.temporaries_append]

end

lemma Program.lower_eq (p : Program) : Program.lower p = Stmt.emitAll 0 p := by
  rw [Program.lower, Stmt.lowerAll_eq, Code.empty_append]
  rfl

/-! Different numbers have different temporaries. -/

lemma toNat_toUInt8_of_isDigit {c : Char} (h : c.isDigit) :
    48 ≤ c.toNat ∧ c.toNat ≤ 57 ∧ c.toUInt8.toNat = c.toNat := by
  simp only [Char.isDigit, Bool.and_eq_true, decide_eq_true_eq, ge_iff_le,
    UInt32.le_iff_toNat_le] at h
  obtain ⟨low, high⟩ : 48 ≤ c.toNat ∧ c.toNat ≤ 57 := h
  have small : c.toNat < 256 := by omega
  exact ⟨low, high, Nat.mod_eq_of_lt small⟩

lemma ofNat_toUInt8_of_isDigit {c : Char} (h : c.isDigit) : Char.ofNat c.toUInt8.toNat = c := by
  obtain ⟨_, _, same⟩ := toNat_toUInt8_of_isDigit h
  rw [same, Char.ofNat_toNat]

lemma map_ofNat (n : Nat) :
    (Text.ofNat n).map (fun b => Char.ofNat b.toNat) = Nat.toDigits 10 n := by
  rw [Text.ofNat, List.map_map]
  refine (List.map_congr_left ?_).trans (List.map_id _)
  intro c hc
  exact ofNat_toUInt8_of_isDigit (Nat.isDigit_of_mem_toDigits (by omega) (by omega) hc)

lemma ofNat_injective {m n : Nat} (h : Text.ofNat m = Text.ofNat n) : m = n := by
  have digits : Nat.toDigits 10 m = Nat.toDigits 10 n := by rw [← map_ofNat, h, map_ofNat]
  rw [← Nat.ofDigitChars_ten_toDigits (n := m), digits, Nat.ofDigitChars_ten_toDigits]

lemma temporary_injective {m n : Nat} (h : temporary m = temporary n) : m = n :=
  ofNat_injective (List.append_cancel_left h)

namespace Code

/-- The operations of a piece of code, in order. -/
def operations (c : Code) : List Instruction := c.instructions.filter (·.op ≠ .copy)

/-- The operations of a piece go to the temporaries from `n` on, one each and in order. -/
def Numbered (n : Nat) (c : Code) : Prop :=
  c.operations.map Instruction.dest = (List.range' n c.temporaries).map temporary

lemma numbered_empty (n : Nat) : Numbered n empty := rfl

lemma numbered_missing (n : Nat) : Numbered n missing := rfl

lemma numbered_omitted (n : Nat) (t : Token) : Numbered n (omitted t) := rfl

lemma numbered_copying (n : Nat) (dest value : Text) : Numbered n (copying dest value) := rfl

lemma numbered_operation (n : Nat) {op : Op} (left right : Text) (h : op ≠ .copy) :
    Numbered n (operation (temporary n) op left right) := by
  simp [Numbered, operations, operation, h]

lemma Numbered.append {n : Nat} {c d : Code} (hc : Numbered n c)
    (hd : Numbered (n + c.temporaries) d) : Numbered n (c ++ d) := by
  have split : (c ++ d).operations = c.operations ++ d.operations := List.filter_append ..
  rw [Numbered, split, List.map_append, hc, hd, ← List.map_append, temporaries_append,
    List.range'_append_1]

end Code

lemma Op.ne_copy_of_ofSymbol? {symbol : Text} {op : Op} (h : Op.ofSymbol? symbol = some op) :
    op ≠ .copy := by
  have mem := (Op.mem_binary_of_ofSymbol? h).1
  rintro rfl
  exact absurd mem (by decide)

lemma Expr.numbered_emit (e : Expr) (n : Nat) : (e.emit n).2.Numbered n := by
  induction e generalizing n with
  | hole => exact Code.numbered_missing n
  | var => exact Code.numbered_empty n
  | num => exact Code.numbered_empty n
  | binary token symbol left right ihLeft ihRight =>
    have both : (emitBoth n left right).Numbered n := (ihLeft n).append (ihRight _)
    cases h : Op.ofSymbol? symbol with
    | none =>
      rw [emit_binary_none h]
      exact both.append (Code.numbered_missing _)
    | some op =>
      rw [emit_binary h]
      exact both.append (Code.numbered_operation _ _ _ (Op.ne_copy_of_ofSymbol? h))

mutual

lemma Stmt.numbered_emit (n : Nat) : (s : Stmt) → (s.emit n).Numbered n
  | .hole => by
    rw [emit]
    exact Code.numbered_empty n
  | .declare .. => by
    rw [emit]
    exact Code.numbered_empty n
  | .assign _ id value => by
    rw [emit]
    exact (value.numbered_emit n).append (Code.numbered_copying _ _ _)
  | .print token _ => by
    rw [emit]
    exact Code.numbered_omitted n token
  | .block _ body => by
    rw [emit]
    exact numbered_emitAll n body
  | .ifThen token _ _ body => by
    rw [emit]
    exact (Code.numbered_omitted n token).append (numbered_emitAll n body)
  | .ifElse token _ _ body _ elseBody => by
    rw [emit]
    exact (Code.numbered_omitted n token).append
      ((numbered_emitAll n body).append (numbered_emitAll _ elseBody))
  | .whileDo token _ _ body => by
    rw [emit]
    exact (Code.numbered_omitted n token).append (numbered_emitAll n body)

lemma Stmt.numbered_emitAll (n : Nat) : (p : List Stmt) → (Stmt.emitAll n p).Numbered n
  | [] => by
    rw [emitAll]
    exact Code.numbered_empty n
  | s :: rest => by
    rw [emitAll]
    exact (numbered_emit n s).append (numbered_emitAll _ rest)

end

/-- Expressions make no copies. -/
lemma Expr.op_ne_copy_of_mem_emit {e : Expr} {n : Nat} :
    ∀ i ∈ (e.emit n).2.instructions, i.op ≠ .copy := by
  induction e generalizing n with
  | hole => exact List.forall_mem_nil _
  | var => exact List.forall_mem_nil _
  | num => exact List.forall_mem_nil _
  | binary token symbol left right ihLeft ihRight =>
    have both : ∀ i ∈ (emitBoth n left right).instructions, i.op ≠ .copy :=
      List.forall_mem_append.mpr ⟨ihLeft, ihRight⟩
    cases h : Op.ofSymbol? symbol with
    | none =>
      rw [emit_binary_none h]
      exact List.forall_mem_append.mpr ⟨both, List.forall_mem_nil _⟩
    | some op =>
      rw [emit_binary h]
      refine List.forall_mem_append.mpr ⟨both, ?_⟩
      exact List.forall_mem_singleton.mpr (Op.ne_copy_of_ofSymbol? h)

/-- An expression writes to its own temporaries only. -/
lemma Expr.exists_temporary_of_mem_emit {e : Expr} {n : Nat} {i : Instruction}
    (h : i ∈ (e.emit n).2.instructions) :
    ∃ k, n ≤ k ∧ k < n + (e.emit n).2.temporaries ∧ i.dest = temporary k := by
  have mem : i ∈ (e.emit n).2.operations :=
    List.mem_filter.mpr ⟨h, by simpa using op_ne_copy_of_mem_emit i h⟩
  have dest := List.mem_map_of_mem (f := Instruction.dest) mem
  rw [e.numbered_emit n, List.mem_map] at dest
  obtain ⟨k, hk, same⟩ := dest
  rw [List.mem_range'_1] at hk
  exact ⟨k, hk.1, hk.2, same.symm⟩

end ThreeAddress
