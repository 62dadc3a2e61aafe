import ThreeAddress.Proofs.Closed
import ThreeAddress.Proofs.Meaning

/-!
# Temporaries are used once

A temporary is written, waits for the other operand if there is one, and is read by the operation
or the copy it was made for. While code is put together it is known for each temporary whether
the code has to do with it at all (`Away`), and if so whether it still waits among the operands
at hand or was already read (`Live`). At the end of an assignment nothing waits.
-/

namespace ThreeAddress

/-- The operands that an instruction reads. A copy reads its left operand only. -/
def Instruction.operands (i : Instruction) : List Text :=
  if i.op = .copy then [i.left] else [i.left, i.right]

/-- The instructions neither write nor read the name. -/
def Untouched (x : Text) (is : List Instruction) : Prop :=
  ∀ i ∈ is, i.dest ≠ x ∧ x ∉ i.operands

/-- The name is written once and not read. -/
inductive Pending (x : Text) : List Instruction → Prop where
  | intro {before after : List Instruction} {made : Instruction} (first : Untouched x before)
      (writes : made.dest = x) (unread : x ∉ made.operands) (last : Untouched x after) :
      Pending x (before ++ made :: after)

/-- The name is written once and read once, later and with no copy in between. -/
inductive UsedOnce (x : Text) : List Instruction → Prop where
  | intro {before between after : List Instruction} {made user : Instruction}
      (first : Untouched x before) (writes : made.dest = x) (unread : x ∉ made.operands)
      (middle : Untouched x between) (near : ∀ i ∈ between, i.op ≠ .copy) (keeps : user.dest ≠ x)
      (reads : user.operands.count x = 1) (last : Untouched x after) :
      UsedOnce x (before ++ made :: (between ++ user :: after))

section Use

variable {x : Text} {is js : List Instruction}

lemma Untouched.append (first : Untouched x is) (second : Untouched x js) :
    Untouched x (is ++ js) :=
  List.forall_mem_append.mpr ⟨first, second⟩

lemma untouched_nil : Untouched x [] := List.forall_mem_nil _

lemma untouched_singleton {i : Instruction} (keeps : i.dest ≠ x) (unread : x ∉ i.operands) :
    Untouched x [i] :=
  List.forall_mem_singleton.mpr ⟨keeps, unread⟩

lemma Pending.append_right (h : Pending x is) (others : Untouched x js) : Pending x (is ++ js) := by
  obtain ⟨first, writes, unread, last⟩ := h
  rw [List.append_assoc, List.cons_append]
  exact .intro first writes unread (last.append others)

lemma Pending.append_left (others : Untouched x is) (h : Pending x js) : Pending x (is ++ js) := by
  obtain ⟨first, writes, unread, last⟩ := h
  rw [← List.append_assoc]
  exact .intro (others.append first) writes unread last

lemma UsedOnce.append_right (h : UsedOnce x is) (others : Untouched x js) :
    UsedOnce x (is ++ js) := by
  obtain ⟨first, writes, unread, middle, near, keeps, reads, last⟩ := h
  rw [List.append_assoc, List.cons_append, List.append_assoc, List.cons_append]
  exact .intro first writes unread middle near keeps reads (last.append others)

lemma UsedOnce.append_left (others : Untouched x is) (h : UsedOnce x js) :
    UsedOnce x (is ++ js) := by
  obtain ⟨first, writes, unread, middle, near, keeps, reads, last⟩ := h
  rw [← List.append_assoc]
  exact .intro (others.append first) writes unread middle near keeps reads last

/-- What was pending is used by an instruction that reads it once. -/
lemma Pending.use {user : Instruction} (h : Pending x is) (near : ∀ i ∈ is, i.op ≠ .copy)
    (keeps : user.dest ≠ x) (reads : user.operands.count x = 1) : UsedOnce x (is ++ [user]) := by
  obtain ⟨first, writes, unread, last⟩ := h
  rw [List.append_assoc, List.cons_append]
  refine .intro first writes unread last ?_ keeps reads untouched_nil
  intro i mem
  exact near i (List.mem_append_right _ (List.mem_cons_of_mem _ mem))

lemma Untouched.countP_dest (h : Untouched x is) : is.countP (·.dest = x) = 0 := by
  rw [List.countP_eq_zero]
  intro i mem
  simpa using (h i mem).1

lemma Untouched.count_operands (h : Untouched x is) :
    (is.flatMap Instruction.operands).count x = 0 := by
  rw [List.count_eq_zero]
  intro mem
  obtain ⟨i, hi, reads⟩ := List.mem_flatMap.mp mem
  exact (h i hi).2 reads

/-- One instruction writes the name. -/
lemma UsedOnce.countP_dest (h : UsedOnce x is) : is.countP (·.dest = x) = 1 := by
  obtain ⟨first, writes, _, middle, _, keeps, _, last⟩ := h
  simp [List.countP_append, first.countP_dest, middle.countP_dest, last.countP_dest, writes, keeps]

/-- One operand reads the name. -/
lemma UsedOnce.count_operands (h : UsedOnce x is) :
    (is.flatMap Instruction.operands).count x = 1 := by
  obtain ⟨first, _, unread, middle, _, _, reads, last⟩ := h
  simp [List.count_append, first.count_operands, middle.count_operands, last.count_operands,
    List.count_eq_zero.mpr unread, reads]

end Use

/-! Code whose operands have still to be read. -/

/-- Neither the code nor the operands at hand have to do with the name. -/
structure Away (x : Text) (os : List Text) (is : List Instruction) : Prop where
  code : Untouched x is
  operands : x ∉ os

/-- The code has written the name, which is one of the operands at hand or was read. -/
inductive Live (x : Text) (os : List Text) (is : List Instruction) : Prop where
  | pending (waits : Pending x is) (once : os.count x = 1)
  | used (once : UsedOnce x is) (gone : x ∉ os)

section Waiting

variable {x : Text} {os us : List Text} {is js : List Instruction}

lemma Away.append (first : Away x os is) (second : Away x us js) :
    Away x (os ++ us) (is ++ js) :=
  ⟨first.code.append second.code, List.not_mem_append first.operands second.operands⟩

lemma Live.append_right (h : Live x os is) (other : Away x us js) :
    Live x (os ++ us) (is ++ js) := by
  cases h with
  | pending waits once =>
    refine .pending (waits.append_right other.code) ?_
    rw [List.count_append, once, List.count_eq_zero.mpr other.operands]
  | used once gone =>
    exact .used (once.append_right other.code) (List.not_mem_append gone other.operands)

lemma Live.append_left (other : Away x os is) (h : Live x us js) :
    Live x (os ++ us) (is ++ js) := by
  cases h with
  | pending waits once =>
    refine .pending (.append_left other.code waits) ?_
    rw [List.count_append, once, List.count_eq_zero.mpr other.operands]
  | used once gone =>
    exact .used (.append_left other.code once) (List.not_mem_append other.operands gone)

variable {i : Instruction}

/-- An instruction reads the operands at hand and leaves others. -/
lemma Away.step (h : Away x os is) (reads : i.operands = os) (keeps : i.dest ≠ x) (new : x ∉ us) :
    Away x us (is ++ [i]) :=
  ⟨h.code.append (untouched_singleton keeps (reads ▸ h.operands)), new⟩

lemma Live.step (h : Live x os is) (near : ∀ j ∈ is, j.op ≠ .copy) (reads : i.operands = os)
    (keeps : i.dest ≠ x) (new : x ∉ us) : Live x us (is ++ [i]) := by
  subst reads
  cases h with
  | pending waits once => exact .used (waits.use near keeps once) new
  | used once gone => exact .used (once.append_right (untouched_singleton keeps gone)) new

/-- An instruction writes a name for the first time. -/
lemma Away.write (h : Away x os is) (reads : i.operands = os) (writes : i.dest = x) :
    Live x [x] (is ++ [i]) := by
  refine .pending (.intro h.code writes (reads ▸ h.operands) untouched_nil) ?_
  exact List.count_singleton_self

end Waiting

namespace Code

/-- A piece of code behind `n` temporaries, which leaves the operands `os`. Of the first `limit`
temporaries it has to do with its own only, and each of these was read or is among `os`. -/
structure Tracks (limit n : Nat) (os : List Text) (c : Code) : Prop where
  own : ∀ i < limit, n ≤ i → i < n + c.temporaries → Live (temporary i) os c.instructions
  others : ∀ i < limit, i < n ∨ n + c.temporaries ≤ i → Away (temporary i) os c.instructions

variable {limit n : Nat} {os us : List Text} {c d : Code}

lemma Tracks.append (first : c.Tracks limit n os) (second : d.Tracks limit (n + c.temporaries) us) :
    (c ++ d).Tracks limit n (os ++ us) := by
  constructor
  · intro i high low inside
    rw [temporaries_append] at inside
    by_cases left : i < n + c.temporaries
    · exact (first.own i high low left).append_right (second.others i high (Or.inl left))
    · exact .append_left (first.others i high (Or.inr (by omega)))
        (second.own i high (by omega) (by omega))
  · intro i high outside
    rw [temporaries_append] at outside
    exact (first.others i high (by omega)).append (second.others i high (by omega))

/-- Without instructions there are no temporaries, and the operands are others. -/
lemma tracks_of_instructions_eq_nil (none : c.instructions = []) (zero : c.temporaries = 0)
    (outside : ∀ o ∈ os, Outside limit o) : c.Tracks limit n os := by
  constructor
  · intro i _ low inside
    omega
  · intro i high _
    rw [none]
    exact ⟨untouched_nil, fun mem => outside _ mem i high rfl⟩

/-- An operation reads the two operands at hand and leaves its own temporary. -/
lemma Tracks.operation {op : Op} {left right : Text} (h : c.Tracks limit n [left, right])
    (near : ∀ i ∈ c.instructions, i.op ≠ .copy) (known : op ≠ .copy) :
    (c ++ operation (temporary (n + c.temporaries)) op left right).Tracks limit n
      [temporary (n + c.temporaries)] := by
  have reads : Instruction.operands ⟨temporary (n + c.temporaries), op, left, right⟩ =
      [left, right] := if_neg known
  have other {i : Nat} (ne : i ≠ n + c.temporaries) :
      temporary (n + c.temporaries) ≠ temporary i ∧
        temporary i ∉ [temporary (n + c.temporaries)] := by
    refine ⟨fun same => ne (temporary_injective same).symm, fun mem => ?_⟩
    exact ne (temporary_injective (List.mem_singleton.mp mem))
  have one (i : Nat) : i < n + (c ++ Code.operation (temporary (n + c.temporaries)) op left
      right).temporaries ↔ i < n + c.temporaries + 1 := by
    rw [temporaries_append, ← Nat.add_assoc]
    rfl
  constructor
  · intro i high low inside
    rw [one] at inside
    by_cases last : i = n + c.temporaries
    · subst last
      exact (h.others _ high (Or.inr (Nat.le_refl _))).write reads rfl
    · have earlier := h.own i high low (by omega)
      exact earlier.step near reads (other last).1 (other last).2
  · intro i high outside
    rw [← Nat.not_lt, one] at outside
    have away := h.others i high (by omega)
    obtain ⟨keeps, new⟩ := other (i := i) (by omega)
    exact away.step reads keeps new

/-- A copy reads the one operand at hand and leaves none. -/
lemma Tracks.copying {dest value : Text} (h : c.Tracks limit n [value])
    (near : ∀ i ∈ c.instructions, i.op ≠ .copy) (outside : Outside limit dest) :
    (c ++ copying dest value).Tracks limit n [] := by
  have reads : (Instruction.copy dest value).operands = [value] := rfl
  constructor
  · intro i high low inside
    exact (h.own i high low inside).step near reads (outside i high) List.not_mem_nil
  · intro i high apart
    exact (h.others i high apart).step reads (outside i high) List.not_mem_nil

end Code

variable {limit : Nat}

/-- The code of an expression leaves the operand of the expression and no other. -/
lemma Expr.tracks_emit {e : Expr} (within : e.Within (Outside limit) (Outside limit)) (n : Nat) :
    (e.emit n).2.Tracks limit n [(e.emit n).1] := by
  induction e generalizing n with
  | hole => exact within.elim
  | var id =>
    exact Code.tracks_of_instructions_eq_nil rfl rfl (List.forall_mem_singleton.mpr within)
  | num token digits =>
    exact Code.tracks_of_instructions_eq_nil rfl rfl (List.forall_mem_singleton.mpr within)
  | binary token symbol left right ihLeft ihRight =>
    obtain ⟨known, withinLeft, withinRight⟩ := within
    obtain ⟨op, hop⟩ := Option.isSome_iff_exists.mp known
    have both := (ihLeft withinLeft n).append (ihRight withinRight _)
    have near : ∀ i ∈ (emitBoth n left right).instructions, i.op ≠ .copy :=
      List.forall_mem_append.mpr ⟨op_ne_copy_of_mem_emit, op_ne_copy_of_mem_emit⟩
    rw [emit_binary hop]
    exact both.operation near (Op.ne_copy_of_ofSymbol? hop)

lemma Action.tracks_emit {a : Action} (within : a.Within (Outside limit) (Outside limit))
    (n : Nat) : (a.emit n).Tracks limit n [] := by
  cases a with
  | assign id value =>
    exact (value.tracks_emit within.2 n).copying Expr.op_ne_copy_of_mem_emit within.1
  | leaveOut token => exact Code.tracks_of_instructions_eq_nil rfl rfl (List.forall_mem_nil _)

/-- Nothing waits behind a list of actions. -/
lemma Action.tracks_emitAll {as : List Action}
    (within : ∀ a ∈ as, a.Within (Outside limit) (Outside limit)) (n : Nat) :
    (emitAll n as).Tracks limit n [] := by
  induction as generalizing n with
  | nil => exact Code.tracks_of_instructions_eq_nil rfl rfl (List.forall_mem_nil _)
  | cons a as ih =>
    obtain ⟨first, others⟩ := List.forall_mem_cons.mp within
    exact (tracks_emit first n).append (ih others _)

/-- If no name of an accepted source is one of its temporaries, each temporary is written by one
instruction and read by one operand. The read comes behind the write, and no copy stands between
the two. -/
theorem temporaries_used_once {options : Options} {source : Text} {c : Compiled}
    (accepted : compile options source = .ok c)
    (fresh : ∀ t ∈ c.tokens, t.kind = .identifier →
      ∀ i < c.code.temporaries, t.lexeme ≠ temporary i) :
    ∀ i < c.code.temporaries,
      c.code.instructions.countP (·.dest = temporary i) = 1 ∧
      (c.code.instructions.flatMap Instruction.operands).count (temporary i) = 1 ∧
      ∃ before made between user after,
        c.code.instructions = before ++ made :: (between ++ user :: after) ∧
        made.dest = temporary i ∧ temporary i ∈ user.operands ∧
        ∀ j ∈ between, j.op ≠ .copy := by
  have stages := accepted_of_compile accepted
  have within : ∀ a ∈ Stmt.actionsAll c.program,
      a.Within (Outside c.code.temporaries) (Outside c.code.temporaries) := by
    apply Stmt.within_actionsAll
    apply stages.within fresh
    intro t ht kind i _ same
    exact not_isNumeral_temporary i (same ▸ isNumeral_of_admits kind (stages.admitted t ht))
  have tracks := Action.tracks_emitAll within 0
  rw [← stages.code_eq_actions] at tracks
  intro i hi
  cases tracks.own i hi (Nat.zero_le i) (by omega) with
  | pending _ once => simp at once
  | used once _ =>
    refine ⟨once.countP_dest, once.count_operands, ?_⟩
    generalize c.code.instructions = is at once
    obtain ⟨_, writes, _, _, near, _, reads, _⟩ := once
    have read := List.count_pos_iff.mp (reads ▸ Nat.one_pos)
    exact ⟨_, _, _, _, _, rfl, writes, read, near⟩

/-- The first of three temporaries waits while the second is made. -/
theorem temporaries_used_once_nested : ∃ c,
    compile ⟨.skip, .tree⟩ (utf8 "int x; int y; x = (y + 1) * (y - 2); y = x;") = .ok c ∧
    c.code.temporaries = 3 ∧
    c.code.instructions.countP (·.dest = temporary 0) = 1 ∧
    (c.code.instructions.flatMap Instruction.operands).count (temporary 0) = 1 ∧
    ∃ before made between user after,
      c.code.instructions = before ++ made :: (between ++ user :: after) ∧
      made.dest = temporary 0 ∧ temporary 0 ∈ user.operands ∧ ∀ j ∈ between, j.op ≠ .copy := by
  obtain ⟨c, accepted, three, fresh⟩ : ∃ c,
      compile ⟨.skip, .tree⟩ (utf8 "int x; int y; x = (y + 1) * (y - 2); y = x;") = .ok c ∧
      c.code.temporaries = 3 ∧ ∀ t ∈ c.tokens, t.kind = .identifier →
        ∀ i < c.code.temporaries, t.lexeme ≠ temporary i := by decide +kernel
  exact ⟨c, accepted, three, temporaries_used_once accepted fresh 0 (by omega)⟩

end ThreeAddress
