import ThreeAddress.Proofs.Emission
import ThreeAddress.Proofs.ScopeEvents

/-!
# Accepted sources

What is known of a source once it has been compiled: its tokens spell its program, their
lexemes are of the classes of their kinds, and their names are in scope. So the tree has
no holes and no unknown operators, its names and numbers are lexemes of the source, and the
declared names are all the names there are.
-/

namespace ThreeAddress

/-- The stages of a compilation that went well. -/
structure Accepted (c : Compiled) : Prop where
  spelled : Grammar.Statements c.tokens c.program
  admitted : ∀ t ∈ c.tokens, t.kind.Admits t.lexeme
  inScope : ∃ table, scanTokens c.tokens = .ok table ∧ table.symbols = c.symbols
  lowered : c.code = Program.lower c.program

lemma admitted_of_readProgram {policy : Policy} {source : Text} {parsed : Parsed}
    (h : readProgram policy source = .ok parsed) :
    ∀ t ∈ parsed.tokens, t.kind.Admits t.lexeme := by
  unfold readProgram at h
  split at h
  · cases h
  · rename_i tokens skipped read
    split at h
    · cases h
    · cases h
      exact admits_of_mem_tokens read

lemma accepted_of_compile {options : Options} {source : Text} {c : Compiled}
    (h : compile options source = .ok c) : Accepted c := by
  unfold compile at h
  split at h
  · cases h
  · rename_i parsed read
    have spelled := statements_of_readProgram read
    have scan : checkScope options.scope parsed.tokens parsed.program =
        scanTokens parsed.tokens := by
      cases options.scope with
      | tree => exact (scanTokens_of_statements spelled).symm
      | tokens => rfl
    split at h
    · cases h
    · rename_i table checked
      cases h
      exact ⟨spelled, admitted_of_readProgram read, ⟨table, scan.symm.trans checked, rfl⟩, rfl⟩

lemma Accepted.code_eq {c : Compiled} (h : Accepted c) : c.code = Stmt.emitAll 0 c.program :=
  h.lowered.trans (Program.lower_eq c.program)

/-- The expression has no holes and no unknown operators, its names are among `Name` and
its numbers among `Number`. -/
def Expr.Within (Name Number : Text → Prop) : Expr → Prop
  | hole => False
  | var id => Name id.name
  | num _ digits => Number digits
  | binary _ op left right =>
    (Op.ofSymbol? op).isSome ∧ left.Within Name Number ∧ right.Within Name Number

mutual

/-- The same for all the names and expressions of a statement. -/
def Stmt.Within (Name Number : Text → Prop) : Stmt → Prop
  | .hole => False
  | .declare _ id => Name id.name
  | .assign _ id value => Name id.name ∧ value.Within Name Number
  | .print _ value => value.Within Name Number
  | .block _ body => Stmt.WithinAll Name Number body
  | .ifThen _ cond _ body => cond.Within Name Number ∧ Stmt.WithinAll Name Number body
  | .ifElse _ cond _ body _ elseBody =>
    cond.Within Name Number ∧ Stmt.WithinAll Name Number body ∧ Stmt.WithinAll Name Number elseBody
  | .whileDo _ cond _ body => cond.Within Name Number ∧ Stmt.WithinAll Name Number body

def Stmt.WithinAll (Name Number : Text → Prop) : List Stmt → Prop
  | [] => True
  | s :: rest => s.Within Name Number ∧ Stmt.WithinAll Name Number rest

end

/-- A token that a tree within these names and numbers may have. -/
structure Token.Fits (Name Number : Text → Prop) (t : Token) : Prop where
  name : t.kind = .identifier → Name t.lexeme
  number : t.kind = .number → Number t.lexeme
  admits : t.kind.Admits t.lexeme

namespace Grammar

variable {Name Number : Text → Prop}

lemma isSome_ofSymbol?_of_isTimes {t : Token} (h : IsTimes t) :
    (Op.ofSymbol? t.lexeme).isSome := by
  rcases h with h | h <;> rw [h.2] <;> decide

lemma isSome_ofSymbol?_of_isPlus {t : Token} (h : IsPlus t) :
    (Op.ofSymbol? t.lexeme).isSome := by
  rcases h with h | h <;> rw [h.2] <;> decide

lemma isSome_ofSymbol?_of_comparator {t : Token} (h : t.kind = .comparator)
    (admits : t.kind.Admits t.lexeme) : (Op.ofSymbol? t.lexeme).isSome := by
  rw [h] at admits
  rcases admits with h | h <;> rw [h] <;> decide

lemma Expression.within {level : Level} {ts : List Token} {e : Expr} (h : Expression level ts e)
    (fits : ∀ t ∈ ts, t.Fits Name Number) : e.Within Name Number := by
  induction h with
  | name kind => exact (fits _ List.mem_cons_self).name kind
  | number kind => exact (fits _ List.mem_cons_self).number kind
  | parens _ _ _ ih =>
    simp only [List.forall_mem_cons, List.forall_mem_append] at fits
    exact ih fits.2.1
  | factor _ ih => exact ih fits
  | term _ ih => exact ih fits
  | arith _ ih => exact ih fits
  | product _ times _ left right =>
    simp only [List.forall_mem_cons, List.forall_mem_append] at fits
    exact ⟨isSome_ofSymbol?_of_isTimes times, left fits.1, right fits.2.2⟩
  | sum _ plus _ left right =>
    simp only [List.forall_mem_cons, List.forall_mem_append] at fits
    exact ⟨isSome_ofSymbol?_of_isPlus plus, left fits.1, right fits.2.2⟩
  | comparison _ comparator _ left right =>
    simp only [List.forall_mem_cons, List.forall_mem_append] at fits
    exact ⟨isSome_ofSymbol?_of_comparator comparator fits.2.1.admits, left fits.1, right fits.2.2⟩

mutual

lemma Statement.within {ts : List Token} {s : Stmt} (fits : ∀ t ∈ ts, t.Fits Name Number) :
    Statement ts s → s.Within Name Number
  | .declaration _ name _ => by
    simp only [List.forall_mem_cons] at fits
    exact fits.2.1.name name
  | .assignment name _ value _ => by
    simp only [List.forall_mem_cons, List.forall_mem_append] at fits
    exact ⟨fits.1.name name, value.within fits.2.2.1⟩
  | .ifThen _ _ cond _ block => by
    simp only [List.forall_mem_cons, List.forall_mem_append] at fits
    exact ⟨cond.within fits.2.2.1, block.within fits.2.2.2.2⟩
  | .ifElse _ _ cond _ block _ elseBlock => by
    simp only [List.forall_mem_cons, List.forall_mem_append] at fits
    exact ⟨cond.within fits.2.2.1, block.within fits.2.2.2.2.1, elseBlock.within fits.2.2.2.2.2.2⟩
  | .whileDo _ _ cond _ block => by
    simp only [List.forall_mem_cons, List.forall_mem_append] at fits
    exact ⟨cond.within fits.2.2.1, block.within fits.2.2.2.2⟩
  | .print _ _ value _ _ => by
    simp only [List.forall_mem_cons, List.forall_mem_append] at fits
    exact value.within fits.2.2.1

lemma Block.within {ts : List Token} {brace : Token} {body : List Stmt}
    (fits : ∀ t ∈ ts, t.Fits Name Number) :
    Block ts brace body → Stmt.WithinAll Name Number body
  | .braces _ inner _ => by
    simp only [List.forall_mem_cons, List.forall_mem_append] at fits
    exact inner.within fits.2.1

lemma Statements.within {ts : List Token} {p : List Stmt} (fits : ∀ t ∈ ts, t.Fits Name Number) :
    Statements ts p → Stmt.WithinAll Name Number p
  | .nil => trivial
  | .cons first others => by
    rw [List.forall_mem_append] at fits
    exact ⟨first.within fits.1, others.within fits.2⟩

end

end Grammar

/-- The tree of an accepted source is within any names and numbers that hold its lexemes. -/
lemma Accepted.within {c : Compiled} (h : Accepted c) {Name Number : Text → Prop}
    (name : ∀ t ∈ c.tokens, t.kind = .identifier → Name t.lexeme)
    (number : ∀ t ∈ c.tokens, t.kind = .number → Number t.lexeme) :
    Stmt.WithinAll Name Number c.program :=
  h.spelled.within fun t ht => ⟨name t ht, number t ht, h.admitted t ht⟩

namespace Verdict

lemma of_andThen_eq_none {v : Verdict} {next : Table → Verdict} {t : Table}
    (h : v.andThen next = ⟨t, none⟩) : ∃ middle, v = ⟨middle, none⟩ ∧ next middle = ⟨t, none⟩ := by
  obtain ⟨middle, violation⟩ := v
  cases violation with
  | none => exact ⟨middle, rfl, h⟩
  | some e => cases h

lemma eq_of_toExcept_eq_ok {v : Verdict} {t : Table} (h : v.toExcept = .ok t) : v = ⟨t, none⟩ := by
  obtain ⟨table, violation⟩ := v
  cases violation <;> cases h
  rfl

end Verdict

def ScopeEvent.name : ScopeEvent → Text
  | declare id => id.name
  | use id => id.name

namespace Table

/-- A name that is met without violation is in the table from then on, and no other name is
new there. -/
lemma isSome_resolve_meet {t t' : Table} {e : ScopeEvent} (h : t.meet e = ⟨t', none⟩)
    (name : Text) : (t'.resolve name).isSome ↔ (t.resolve name).isSome ∨ e.name = name := by
  cases e with
  | declare id =>
    rw [meet] at h
    cases found : t.resolve id.name with
    | some s =>
      simp only [declare, found] at h
      cases h
    | none =>
      simp only [declare, found] at h
      cases h
      by_cases same : id.name = name
      · subst same
        simp [resolve_define_self, ScopeEvent.name]
      · rw [resolve_define_of_ne t _ (Ne.symm same)]
        simp [ScopeEvent.name, same]
  | use id =>
    rw [meet] at h
    cases found : t.resolve id.name with
    | some s =>
      simp only [use, found] at h
      cases h
      constructor
      · exact Or.inl
      · rintro (declared | same)
        · exact declared
        · rw [← same, ScopeEvent.name, found]
          rfl
    | none =>
      simp only [use, found] at h
      cases h

lemma isSome_resolve_replay {es : List ScopeEvent} {t t' : Table}
    (h : t.replay es = ⟨t', none⟩) (name : Text) :
    (t'.resolve name).isSome ↔ (t.resolve name).isSome ∨ ∃ e ∈ es, e.name = name := by
  induction es generalizing t with
  | nil =>
    cases h
    simp
  | cons e es ih =>
    rw [replay_cons] at h
    obtain ⟨middle, met, rest⟩ := Verdict.of_andThen_eq_none h
    simp only [ih rest, isSome_resolve_meet met, or_assoc, List.mem_cons, exists_eq_or_imp]

end Table

/-- The events of tokens are those of their names. -/
lemma Token.exists_events_iff (ts : List Token) (declaring : Bool) (name : Text) :
    (∃ e ∈ Token.events declaring ts, e.name = name) ↔
      ∃ t ∈ ts, t.kind = .identifier ∧ t.lexeme = name := by
  induction ts generalizing declaring with
  | nil => simp [events]
  | cons t ts ih =>
    by_cases kind : t.kind = .identifier
    · cases declaring with
      | true =>
        simp only [events_declare kind, List.mem_cons, exists_eq_or_imp, ih]
        simp [ScopeEvent.name, Ident.ofToken, kind]
      | false =>
        simp only [events_use kind, List.mem_cons, exists_eq_or_imp, ih]
        simp [ScopeEvent.name, Ident.ofToken, kind]
    · simp only [events, if_neg kind, ih, List.mem_cons, exists_eq_or_imp]
      simp [kind]

/-- The declared names of an accepted source are all its names. -/
lemma Accepted.exists_symbol_iff {c : Compiled} (h : Accepted c) (name : Text) :
    (∃ s ∈ c.symbols, s.name = name) ↔
      ∃ t ∈ c.tokens, t.kind = .identifier ∧ t.lexeme = name := by
  obtain ⟨table, scan, symbols⟩ := h.inScope
  rw [scanTokens, Table.scan_eq_replay] at scan
  have replayed : Table.empty.replay (Token.events false c.tokens) = ⟨table, none⟩ :=
    Verdict.eq_of_toExcept_eq_ok scan
  have declared := Table.isSome_resolve_replay replayed name
  rw [Token.exists_events_iff] at declared
  rw [← symbols]
  simpa [Table.resolve, Table.empty] using declared

end ThreeAddress
