import Mathlib.Data.List.Nodup
import ThreeAddress.Proofs.Closed

/-!
# Fresh temporaries

Every temporary is the destination of exactly one operation, in whatever program. Names are
another matter: a source may declare a variable that is spelled like a temporary, and then
the code writes to the variable as well. The temporaries of an accepted source are fresh
exactly if none of its names is one of them.
-/

namespace ThreeAddress

/-- No variable is one of the temporaries of the code, and each temporary is written once,
by an operation. -/
structure FreshTemporaries (symbols : List Symbol) (code : Code) : Prop where
  undeclared : ∀ s ∈ symbols, ∀ i < code.temporaries, s.name ≠ temporary i
  writtenOnce : ∀ i < code.temporaries, ∃ ins,
    code.instructions.filter (·.dest = temporary i) = [ins] ∧ ins.op ≠ .copy

/-- Copies go to the names among `Name` only. -/
def Code.CopiesTo (Name : Text → Prop) (c : Code) : Prop :=
  ∀ i ∈ c.instructions, i.op = .copy → Name i.dest

lemma Code.Closed.copiesTo {c : Code} {Name Number : Text → Prop} {n : Nat}
    (h : c.Closed Name Number n) : c.CopiesTo Name := by
  intro i mem copy
  obtain ⟨k, here⟩ := List.mem_iff_getElem?.mp mem
  rcases (h.fits k i here).dest with ⟨_, name⟩ | ⟨binary, _⟩
  · exact name
  · rw [copy] at binary
    exact absurd binary Op.copy_notMem_binary

namespace Code

variable {c : Code} {i : Nat}

lemma nodup_dest_operations (h : c.Numbered 0) : (c.operations.map Instruction.dest).Nodup := by
  rw [h]
  exact List.Nodup.map (fun _ _ => temporary_injective) List.nodup_range'

/-- Exactly one operation goes to a temporary of the code. -/
lemma exists_operations_filter_eq (h : c.Numbered 0) (hi : i < c.temporaries) :
    ∃ ins, c.operations.filter (·.dest = temporary i) = [ins] := by
  have mem : temporary i ∈ c.operations.map Instruction.dest := by
    rw [h]
    exact List.mem_map_of_mem (List.mem_range'_1.mpr ⟨Nat.zero_le i, by omega⟩)
  have once := List.count_eq_one_of_mem (nodup_dest_operations h) mem
  rw [List.count, List.countP_map, List.countP_eq_length_filter] at once
  have single := List.length_eq_one_iff.mp once
  simpa only [Function.comp_def, beq_eq_decide] using single

/-- A destination that no copy goes to is written by operations only. -/
lemma filter_dest_eq_operations {name : Text} (copies : c.CopiesTo (· ≠ name)) :
    c.instructions.filter (·.dest = name) = c.operations.filter (·.dest = name) := by
  rw [operations, List.filter_filter]
  apply List.filter_congr
  intro ins hins
  by_cases copy : ins.op = .copy
  · simp [copies ins hins copy]
  · simp [copy]

/-- A temporary that no copy goes to is written once, by an operation. -/
lemma exists_filter_dest_eq (h : c.Numbered 0) (hi : i < c.temporaries)
    (copies : c.CopiesTo (· ≠ temporary i)) :
    ∃ ins, c.instructions.filter (·.dest = temporary i) = [ins] ∧ ins.op ≠ .copy := by
  obtain ⟨ins, once⟩ := exists_operations_filter_eq h hi
  have found : ins ∈ c.operations.filter (·.dest = temporary i) := by
    rw [once]
    exact List.mem_singleton_self ins
  have mem : ins ∈ c.operations := (List.mem_filter.mp found).1
  refine ⟨ins, (filter_dest_eq_operations copies).trans once, ?_⟩
  simpa using (List.mem_filter.mp mem).2

end Code

/-- The operations of accepted code go to the temporaries in order, one each. The
temporaries are fresh if and only if no name of the source is one of them. -/
theorem freshTemporaries_iff {options : Options} {source : Text} {c : Compiled}
    (accepted : compile options source = .ok c) :
    c.code.operations.map Instruction.dest = (List.range c.code.temporaries).map temporary ∧
    (FreshTemporaries c.symbols c.code ↔ ∀ t ∈ c.tokens, t.kind = .identifier →
      ∀ i < c.code.temporaries, t.lexeme ≠ temporary i) := by
  have stages := accepted_of_compile accepted
  have numbered : c.code.Numbered 0 := stages.code_eq ▸ Stmt.numbered_emitAll 0 c.program
  refine ⟨by rw [numbered, List.range_eq_range'], ?_, ?_⟩
  · intro fresh t ht kind i hi same
    obtain ⟨s, hs, name⟩ := (stages.exists_symbol_iff (temporary i)).mpr ⟨t, ht, kind, same⟩
    exact fresh.undeclared s hs i hi name
  · intro names
    constructor
    · intro s hs i hi same
      obtain ⟨t, ht, kind, lexeme⟩ := (stages.exists_symbol_iff (temporary i)).mp ⟨s, hs, same⟩
      exact names t ht kind i hi lexeme
    · intro i hi
      have within : Stmt.WithinAll (· ≠ temporary i) (fun _ => True) c.program :=
        stages.within (fun t ht kind => names t ht kind i hi) (fun _ _ _ => trivial)
      have closed := Action.closed_emitAll (Stmt.within_actionsAll c.program within) 0
      rw [← stages.code_eq_actions] at closed
      exact Code.exists_filter_dest_eq numbered hi closed.copiesTo

/-- The first name behind the temporaries in use is free to be declared. -/
theorem freshTemporaries_next_name : ∃ c,
    compile ⟨.skip, .tree⟩ (utf8 "int t2; t2 = (1 + 2) * t2;") = .ok c ∧
    c.code.temporaries = 2 ∧ FreshTemporaries c.symbols c.code := by
  obtain ⟨c, accepted, two, names⟩ : ∃ c,
      compile ⟨.skip, .tree⟩ (utf8 "int t2; t2 = (1 + 2) * t2;") = .ok c ∧
      c.code.temporaries = 2 ∧ ∀ t ∈ c.tokens, t.kind = .identifier →
        ∀ i < c.code.temporaries, t.lexeme ≠ temporary i := by decide +kernel
  exact ⟨c, accepted, two, (freshTemporaries_iff accepted).2.mpr names⟩

/-- A variable spelled like a temporary is accepted, and loses its value to it. -/
theorem exists_accepted_not_freshTemporaries : ∃ c,
    compile ⟨.skip, .tree⟩ (utf8 "int t0; int y; t0 = 7; y = 1 + 2;") = .ok c ∧
    c.code.text = utf8 "t0 = 7\nt0 = 1 + 2\ny = t0\n" ∧
    ¬ FreshTemporaries c.symbols c.code := by
  obtain ⟨c, accepted, text, one, s, hs, name⟩ : ∃ c,
      compile ⟨.skip, .tree⟩ (utf8 "int t0; int y; t0 = 7; y = 1 + 2;") = .ok c ∧
      c.code.text = utf8 "t0 = 7\nt0 = 1 + 2\ny = t0\n" ∧ 0 < c.code.temporaries ∧
      ∃ s ∈ c.symbols, s.name = temporary 0 := by decide +kernel
  exact ⟨c, accepted, text, fun fresh => fresh.undeclared s hs 0 one name⟩

end ThreeAddress
