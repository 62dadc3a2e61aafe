import Mathlib.Order.Bounds.Defs
import ThreeAddress.Insights
import ThreeAddress.Proofs.Visiting

/-!
# The figures agree with the stages

The figures about a program are counted on its tree. What they count is known to the other
stages as well: the scope check has a symbol for each declaration, the code a copy for each
assignment and a note for each statement that is left out, and the flat list of tokens opens
and closes a brace for each block. So every figure can be had without the tree.
-/

namespace ThreeAddress

/-! The statements of a kind. -/

/-- The name that a node declares. -/
def Node.declared? : Node → Option Ident
  | .stmt (.declare _ id) => some id
  | _ => none

lemma Node.isSome_declared? (n : Node) :
    n.declared?.isSome ↔ StatementKind.of? n = some .declaration := by
  cases n with
  | stmt s => cases s <;> simp [declared?, StatementKind.of?]
  | _ => simp [declared?, StatementKind.of?]

lemma Node.isSome_assigned? (n : Node) :
    n.assigned?.isSome ↔ StatementKind.of? n = some .assignment := by
  cases n with
  | stmt s => cases s <;> simp [assigned?, StatementKind.of?]
  | _ => simp [assigned?, StatementKind.of?]

/-- A kind of statement is counted by what its nodes hold. -/
lemma Program.countKind_eq_length {β : Type} {f : Node → Option β} {k : StatementKind}
    (holds : ∀ n, (f n).isSome ↔ StatementKind.of? n = some k) (p : Program) :
    Program.countKind p k = ((Node.program p).visit.filterMap f).length := by
  rw [countKind, List.length_filterMap_eq_countP]
  apply List.countP_congr
  intro n _
  rw [holds, beq_iff_eq]

lemma Expr.declarations_events (e : Expr) : declarations e.events = [] := by
  induction e with
  | hole => rfl
  | var id => rfl
  | num token digits => rfl
  | binary token symbol left right ihLeft ihRight =>
    rw [events, declarations_append, ihLeft, ihRight, List.append_nil]

lemma Expr.filterMap_declared?_visit (e : Expr) : e.visit.filterMap Node.declared? = [] :=
  e.filterMap_visit fun _ => rfl

mutual

/-- The declarations of a statement are those of its nodes in visiting order. -/
lemma Stmt.filterMap_declared?_visit :
    (s : Stmt) → s.visit.filterMap Node.declared? = declarations s.events
  | .hole => by rw [visit, events, List.filterMap_nil, declarations_nil]
  | .declare .. => by simp [visit, events, Node.declared?]
  | .assign _ id value => by
    have use : declarations (.use id :: value.events) = [] := value.declarations_events
    rw [visit, events, use, List.filterMap_cons_none rfl, List.filterMap_cons_none rfl,
      value.filterMap_declared?_visit]
  | .print _ value => by
    rw [visit, events, value.declarations_events, List.filterMap_cons_none rfl,
      value.filterMap_declared?_visit]
  | .block _ body => by
    rw [visit, events, List.filterMap_cons_none rfl, filterMap_declared?_visitAll body]
  | .ifThen _ cond _ body => by
    simp [visit, events, Node.declared?, List.filterMap_cons, declarations_append,
      cond.filterMap_declared?_visit, cond.declarations_events, filterMap_declared?_visitAll body]
  | .ifElse _ cond _ body _ elseBody => by
    simp [visit, events, Node.declared?, List.filterMap_cons, declarations_append,
      cond.filterMap_declared?_visit, cond.declarations_events, filterMap_declared?_visitAll body,
      filterMap_declared?_visitAll elseBody]
  | .whileDo _ cond _ body => by
    simp [visit, events, Node.declared?, List.filterMap_cons, declarations_append,
      cond.filterMap_declared?_visit, cond.declarations_events, filterMap_declared?_visitAll body]

lemma Stmt.filterMap_declared?_visitAll : (p : List Stmt) →
    (Stmt.visitAll p).filterMap Node.declared? = declarations (Stmt.eventsAll p)
  | [] => by rw [visitAll, eventsAll, List.filterMap_nil, declarations_nil]
  | s :: rest => by
    rw [visitAll, eventsAll, List.filterMap_append, declarations_append,
      filterMap_declared?_visit s, filterMap_declared?_visitAll rest]

end

/-! The statements that are left out have different words. -/

/-- The kinds of statement that no code is made for. -/
def StatementKind.leftOut : List StatementKind := [ifStatement, whileStatement, printStatement]

lemma StatementKind.mem_all (k : StatementKind) : k ∈ all := by
  cases k <;> decide

lemma StatementKind.name_injective {j k : StatementKind} (h : j.name = k.name) : j = k := by
  have distinct : ∀ j ∈ all, ∀ k ∈ all, j.name = k.name → j = k := by decide +kernel
  exact distinct j j.mem_all k k.mem_all h

/-- If the node is left out, its token is the word of its kind. -/
def Node.Worded (n : Node) : Prop :=
  ∀ t, n.leftOut? = some t → ∃ k, StatementKind.of? n = some k ∧ t.lexeme = k.name

lemma Node.worded_of_leftOut?_eq_none {n : Node} (none : n.leftOut? = none) : n.Worded := by
  intro t leftOut
  cases none.symm.trans leftOut

lemma Node.of?_ne_of_leftOut?_eq_none {n : Node} (none : n.leftOut? = none) :
    ∀ k ∈ StatementKind.leftOut, StatementKind.of? n ≠ some k := by
  cases n with
  | stmt s => cases s <;> simp_all [leftOut?, StatementKind.of?, StatementKind.leftOut]
  | _ => simp [StatementKind.of?]

/-- Nodes of a kind that is left out are counted by their words. -/
lemma countP_of?_eq {ns : List Node} (worded : ∀ n ∈ ns, n.Worded) {k : StatementKind}
    (hk : k ∈ StatementKind.leftOut) :
    ns.countP (fun n => StatementKind.of? n == some k) =
      (ns.filterMap Node.leftOut?).countP (·.lexeme = k.name) := by
  rw [List.countP_filterMap]
  apply List.countP_congr
  intro n mem
  cases leftOut : n.leftOut? with
  | none => simpa using Node.of?_ne_of_leftOut?_eq_none leftOut k hk
  | some t =>
    obtain ⟨j, kind, lexeme⟩ := worded n mem t leftOut
    simp only [kind, lexeme, beq_iff_eq, Option.some.injEq, Option.map_some, Option.getD_some,
      decide_eq_true_eq]
    exact ⟨fun same => by rw [same], StatementKind.name_injective⟩

lemma Expr.worded_visit (e : Expr) : ∀ n ∈ e.visit, n.Worded := by
  intro n mem
  obtain ⟨part, rfl⟩ := exists_of_mem_visit mem
  exact Node.worded_of_leftOut?_eq_none rfl

namespace Grammar

lemma worded_word {n : Node} {word : Token} {w : Text} {k : StatementKind}
    (is : word.Is .keyword w) (leftOut : n.leftOut? = some word)
    (kind : StatementKind.of? n = some k) (name : k.name = w) : n.Worded := by
  intro t here
  cases leftOut.symm.trans here
  exact ⟨k, kind, is.2.trans name.symm⟩

mutual

lemma Statement.worded {ts : List Token} {s : Stmt} : Statement ts s → ∀ n ∈ s.visit, n.Worded
  | .declaration .. => by
    simp only [Stmt.visit, List.forall_mem_cons]
    exact ⟨Node.worded_of_leftOut?_eq_none rfl, Node.worded_of_leftOut?_eq_none rfl,
      List.forall_mem_nil _⟩
  | .assignment (e := e) .. => by
    simp only [Stmt.visit, List.forall_mem_cons]
    exact ⟨Node.worded_of_leftOut?_eq_none rfl, Node.worded_of_leftOut?_eq_none rfl,
      e.worded_visit⟩
  | .ifThen (e := e) ifWord _ _ _ block => by
    simp only [Stmt.visit, List.cons_append, List.forall_mem_cons, List.forall_mem_append]
    exact ⟨worded_word ifWord rfl rfl rfl, e.worded_visit, block.worded⟩
  | .ifElse (e := e) ifWord _ _ _ block _ elseBlock => by
    simp only [Stmt.visit, List.cons_append, List.append_assoc, List.forall_mem_cons,
      List.forall_mem_append]
    obtain ⟨brace, inner⟩ := block.worded
    exact ⟨worded_word ifWord rfl rfl rfl, e.worded_visit, brace, inner, elseBlock.worded⟩
  | .whileDo (e := e) whileWord _ _ _ block => by
    simp only [Stmt.visit, List.cons_append, List.forall_mem_cons, List.forall_mem_append]
    exact ⟨worded_word whileWord rfl rfl rfl, e.worded_visit, block.worded⟩
  | .print (e := e) printWord _ _ _ _ => by
    simp only [Stmt.visit, List.forall_mem_cons]
    exact ⟨worded_word printWord rfl rfl rfl, e.worded_visit⟩

lemma Block.worded {ts : List Token} {brace : Token} {body : List Stmt} :
    Block ts brace body →
      (Node.stmt (.block brace body)).Worded ∧ ∀ n ∈ Stmt.visitAll body, n.Worded
  | .braces _ inner _ => ⟨Node.worded_of_leftOut?_eq_none rfl, inner.worded⟩

lemma Statements.worded {ts : List Token} {p : List Stmt} :
    Statements ts p → ∀ n ∈ Stmt.visitAll p, n.Worded
  | .nil => by
    rw [Stmt.visitAll]
    exact List.forall_mem_nil _
  | .cons first others => by
    rw [Stmt.visitAll, List.forall_mem_append]
    exact ⟨first.worded, others.worded⟩

end

end Grammar

/-! The nesting of blocks on the tokens. -/

namespace Token

/-- How many braces the tokens open, less those they close. -/
def openBraces (ts : List Token) : Int :=
  ts.countP (·.kind = .leftBrace) - ts.countP (·.kind = .rightBrace)

/-- The token opens or closes a block. -/
def IsBrace (t : Token) : Prop := t.kind = .leftBrace ∨ t.kind = .rightBrace

lemma openBraces_append (ts us : List Token) :
    openBraces (ts ++ us) = openBraces ts + openBraces us := by
  simp only [openBraces, List.countP_append]
  omega

lemma openBraces_singleton_left {t : Token} (h : t.kind = .leftBrace) : openBraces [t] = 1 := by
  simp [openBraces, h]

lemma openBraces_singleton_right {t : Token} (h : t.kind = .rightBrace) : openBraces [t] = -1 := by
  simp [openBraces, h]

lemma openBraces_of_flat {ts : List Token} (flat : ∀ t ∈ ts, ¬ t.IsBrace) : openBraces ts = 0 := by
  have left : ts.countP (·.kind = .leftBrace) = 0 := by
    rw [List.countP_eq_zero]
    intro t mem
    simpa using fun kind => flat t mem (Or.inl kind)
  have right : ts.countP (·.kind = .rightBrace) = 0 := by
    rw [List.countP_eq_zero]
    intro t mem
    simpa using fun kind => flat t mem (Or.inr kind)
  rw [openBraces, left, right]
  rfl

/-- The tokens close the braces that they open, and no others. At most `depth` braces are open at
once, and at some place there are that many. -/
structure Nested (ts : List Token) (depth : Nat) : Prop where
  closed : openBraces ts = 0
  within : ∀ before, before <+: ts → 0 ≤ openBraces before ∧ openBraces before ≤ depth
  reached : ∃ before, before <+: ts ∧ openBraces before = depth

section Nesting

variable {ts us : List Token} {d e : Nat}

lemma nested_flat (flat : ∀ t ∈ ts, ¬ t.IsBrace) : Nested ts 0 := by
  refine ⟨openBraces_of_flat flat, ?_, [], List.nil_prefix, rfl⟩
  intro before start
  have none : openBraces before = 0 := openBraces_of_flat fun t mem => flat t (start.subset mem)
  omega

/-- Blocks that stand side by side are as deep as the deeper of them. -/
lemma Nested.append (first : Nested ts d) (second : Nested us e) :
    Nested (ts ++ us) (max d e) := by
  refine ⟨?_, ?_, ?_⟩
  · rw [openBraces_append, first.closed, second.closed, Int.add_zero]
  · rintro before ⟨after, split⟩
    rcases List.append_eq_append_iff.mp split with ⟨more, rfl, _⟩ | ⟨more, rfl, rfl⟩
    · have bounds := first.within before (List.prefix_append before more)
      omega
    · have bounds := second.within more (List.prefix_append more after)
      rw [openBraces_append, first.closed]
      omega
  · rcases Nat.le_total d e with le | le
    · obtain ⟨before, start, deep⟩ := second.reached
      refine ⟨ts ++ before, (List.prefix_append_right_inj ts).mpr start, ?_⟩
      rw [openBraces_append, first.closed, deep, Nat.max_eq_right le, Int.zero_add]
    · obtain ⟨before, start, deep⟩ := first.reached
      rw [Nat.max_eq_left le]
      exact ⟨before, start.trans (List.prefix_append ts us), deep⟩

lemma Nested.behind_flat (flat : ∀ t ∈ ts, ¬ t.IsBrace) (h : Nested us d) :
    Nested (ts ++ us) d := by
  have both := (nested_flat flat).append h
  rwa [Nat.zero_max] at both

lemma Nested.cons {t : Token} (flat : ¬ t.IsBrace) (h : Nested us d) : Nested (t :: us) d := by
  have alone : ∀ u ∈ [t], ¬ u.IsBrace := List.forall_mem_singleton.mpr flat
  exact h.behind_flat alone

/-- Braces around the tokens make them deeper by one. -/
lemma Nested.braces {l r : Token} (left : l.kind = .leftBrace) (h : Nested ts d)
    (right : r.kind = .rightBrace) : Nested (l :: (ts ++ [r])) (1 + d) := by
  have opened (before : List Token) : openBraces (l :: before) = 1 + openBraces before := by
    rw [← List.singleton_append, openBraces_append, openBraces_singleton_left left]
  have whole : openBraces (l :: (ts ++ [r])) = 0 := by
    rw [opened, openBraces_append, h.closed, openBraces_singleton_right right]
    rfl
  refine ⟨whole, ?_, ?_⟩
  · intro before start
    rcases List.prefix_cons_iff.mp start with rfl | ⟨inner, rfl, within⟩
    · have none : openBraces [] = 0 := rfl
      omega
    rcases List.prefix_concat_iff.mp within with rfl | within
    · omega
    · have bounds := h.within inner within
      rw [opened]
      omega
  · obtain ⟨before, start, deep⟩ := h.reached
    refine ⟨l :: before, ?_, ?_⟩
    · exact List.prefix_cons_iff.mpr (Or.inr ⟨before, rfl, start.trans (List.prefix_append ts [r])⟩)
    · rw [opened, deep]
      omega

end Nesting
end Token

namespace Grammar

open Token

lemma not_isBrace_of_kind {t : Token} {k : Kind} (kind : t.kind = k)
    (other : k ≠ .leftBrace ∧ k ≠ .rightBrace) : ¬ t.IsBrace := by
  subst kind
  exact not_or.mpr other

lemma Expression.not_isBrace {level : Level} {ts : List Token} {e : Expr}
    (h : Expression level ts e) : ∀ t ∈ ts, ¬ t.IsBrace := by
  intro t mem
  have kinds : ∀ k ∈ valueKinds, k ≠ .leftBrace ∧ k ≠ .rightBrace := by decide
  exact not_isBrace_of_kind rfl (kinds t.kind (h.kind_mem t mem))

/-- A word with a condition or an argument behind it adds no depth to what follows. -/
lemma nested_head {word l r : Token} {w : Text} {ts us : List Token} {e : Expr} {d : Nat}
    (is : word.Is .keyword w) (left : l.kind = .leftParen) (inner : Expression .expr ts e)
    (right : r.kind = .rightParen) (rest : Nested us d) :
    Nested (word :: l :: (ts ++ r :: us)) d := by
  have flat : ∀ t ∈ word :: l :: (ts ++ [r]), ¬ t.IsBrace := by
    simp only [List.forall_mem_cons, List.forall_mem_append]
    exact ⟨not_isBrace_of_kind is.1 (by decide), not_isBrace_of_kind left (by decide),
      inner.not_isBrace, not_isBrace_of_kind right (by decide), List.forall_mem_nil _⟩
  simpa using rest.behind_flat flat

mutual

lemma Statement.nested {ts : List Token} {s : Stmt} : Statement ts s → Nested ts s.depth
  | .declaration intWord name semicolon => by
    simp only [Stmt.depth]
    apply nested_flat
    simp only [List.forall_mem_cons]
    exact ⟨not_isBrace_of_kind intWord.1 (by decide), not_isBrace_of_kind name (by decide),
      not_isBrace_of_kind semicolon (by decide), List.forall_mem_nil _⟩
  | .assignment name assign value semicolon => by
    simp only [Stmt.depth]
    apply nested_flat
    simp only [List.forall_mem_cons, List.forall_mem_append]
    exact ⟨not_isBrace_of_kind name (by decide), not_isBrace_of_kind assign (by decide),
      value.not_isBrace, not_isBrace_of_kind semicolon (by decide), List.forall_mem_nil _⟩
  | .ifThen ifWord left cond right block => by
    rw [Stmt.depth]
    exact nested_head ifWord left cond right block.nested
  | .ifElse ifWord left cond right block elseWord elseBlock => by
    have alternative := elseBlock.nested.cons (not_isBrace_of_kind elseWord.1 (by decide))
    rw [Stmt.depth]
    exact nested_head ifWord left cond right (block.nested.append alternative)
  | .whileDo whileWord left cond right block => by
    rw [Stmt.depth]
    exact nested_head whileWord left cond right block.nested
  | .print printWord left value right semicolon => by
    have stop := (nested_flat (List.forall_mem_nil _)).cons
      (not_isBrace_of_kind semicolon (by decide))
    simp only [Stmt.depth]
    exact nested_head printWord left value right stop

lemma Block.nested {ts : List Token} {brace : Token} {body : List Stmt} :
    Block ts brace body → Nested ts (1 + Stmt.depthAll body)
  | .braces left inner right => inner.nested.braces left right

/-- The blocks of a program are nested as deep as the braces of its tokens. -/
lemma Statements.nested {ts : List Token} {p : List Stmt} :
    Statements ts p → Nested ts (Stmt.depthAll p)
  | .nil => by
    rw [Stmt.depthAll]
    exact nested_flat (List.forall_mem_nil _)
  | .cons first others => by
    rw [Stmt.depthAll]
    exact first.nested.append others.nested

end

end Grammar

section Accepted

variable {c : Compiled}

lemma Accepted.countKind_declaration (h : Accepted c) :
    Program.countKind c.program .declaration = c.symbols.length := by
  have names : (Stmt.visitAll c.program).filterMap Node.declared? =
      (Token.declared c.tokens).map .ofToken := by
    rw [Stmt.filterMap_declared?_visitAll, ← h.spelled.events_eq, Token.declarations_events_false]
  rw [Program.countKind_eq_length Node.isSome_declared?, h.symbols_eq, List.length_map,
    List.length_zipIdx, Node.visit, List.filterMap_cons_none rfl, names, List.length_map]

lemma Accepted.countKind_assignment (h : Accepted c) :
    Program.countKind c.program .assignment = c.code.instructions.countP (·.op = .copy) := by
  have targets := Action.copies_emitAll (Stmt.actionsAll c.program) 0
  rw [← h.code_eq_actions] at targets
  have assignments : (Node.program c.program).visit.filterMap Node.assigned? =
      (Stmt.actionsAll c.program).filterMap Action.assigned? :=
    (Node.program c.program).assignments_eq
  have lengths := congrArg List.length targets
  rw [List.length_map, List.length_map, ← List.countP_eq_length_filter] at lengths
  rw [Program.countKind_eq_length Node.isSome_assigned?, assignments, lengths]

lemma Accepted.countKind_leftOut (h : Accepted c) {k : StatementKind}
    (hk : k ∈ StatementKind.leftOut) :
    Program.countKind c.program k = c.code.omissions.countP (·.statement = k.name) := by
  have worded : ∀ n ∈ (Node.program c.program).visit, n.Worded :=
    List.forall_mem_cons.mpr ⟨Node.worded_of_leftOut?_eq_none rfl, h.spelled.worded⟩
  have leftOut : (Node.program c.program).visit.filterMap Node.leftOut? =
      (Stmt.actionsAll c.program).filterMap Action.leftOut? :=
    (Node.program c.program).leftOut_eq
  rw [Program.countKind, countP_of?_eq worded hk, leftOut, h.code_eq_actions,
    Action.omissions_emitAll, List.countP_map]
  rfl

end Accepted

/-- The figures of an accepted source are those of the other stages. There are as many
declarations as symbols, as many assignments as copies, and for `if`, `while` and `print` as many
statements as omissions with that word. The depth is the greatest number of braces that are open
behind a beginning of the tokens. That number is never negative, and in the end all braces are
closed. -/
theorem insights_agree_with_stages {options : Options} {source : Text} {c : Compiled}
    (accepted : compile options source = .ok c) :
    (Insights.ofCompiled c).count .declaration = c.symbols.length ∧
    (Insights.ofCompiled c).count .assignment = c.code.instructions.countP (·.op = .copy) ∧
    (∀ k ∈ StatementKind.leftOut,
      (Insights.ofCompiled c).count k = c.code.omissions.countP (·.statement = k.name)) ∧
    IsGreatest {n | ∃ before, before <+: c.tokens ∧ Token.openBraces before = n}
      ((Insights.ofCompiled c).maxDepth : Int) ∧
    (∀ before, before <+: c.tokens → 0 ≤ Token.openBraces before) ∧
    Token.openBraces c.tokens = 0 := by
  have stages := accepted_of_compile accepted
  have nested := stages.spelled.nested
  refine ⟨stages.countKind_declaration, stages.countKind_assignment,
    fun k hk => stages.countKind_leftOut hk, ⟨nested.reached, ?_⟩, ?_, nested.closed⟩
  · rintro n ⟨before, start, rfl⟩
    exact (nested.within before start).2
  · intro before start
    exact (nested.within before start).1

/-- A source with blocks side by side and in one another, the second of which is the deeper. -/
def terraced : Text :=
  "int a; if (a) \x7b print(a); \x7d else \x7b while (a > 1) \x7b int b; a = a - 1;\n" ++
    "if (b) \x7b b = a; print(b); \x7d \x7d \x7d a = 2;"

theorem insights_agree_with_stages_terraced : ∃ c, compile ⟨.skip, .tree⟩ terraced = .ok c ∧
    c.symbols.length = 2 ∧ c.code.instructions.countP (·.op = .copy) = 3 ∧
    c.code.omissions.countP (·.statement = utf8 "if") = 2 ∧
    c.code.omissions.countP (·.statement = utf8 "while") = 1 ∧
    IsGreatest {n | ∃ before, before <+: c.tokens ∧ Token.openBraces before = n} 3 := by
  obtain ⟨c, accepted, two, three, ifs, whiles, depth⟩ : ∃ c,
      compile ⟨.skip, .tree⟩ terraced = .ok c ∧
      (Insights.ofCompiled c).count .declaration = 2 ∧
      (Insights.ofCompiled c).count .assignment = 3 ∧
      (Insights.ofCompiled c).count .ifStatement = 2 ∧
      (Insights.ofCompiled c).count .whileStatement = 1 ∧
      (Insights.ofCompiled c).maxDepth = 3 := by decide +kernel
  obtain ⟨symbols, copies, omissions, greatest, _⟩ := insights_agree_with_stages accepted
  rw [depth] at greatest
  exact ⟨c, accepted, symbols.symm.trans two, copies.symm.trans three,
    (omissions .ifStatement (by decide)).symm.trans ifs,
    (omissions .whileStatement (by decide)).symm.trans whiles, greatest⟩

end ThreeAddress
