import Mathlib.Data.List.Forall2
import ThreeAddress.Proofs.Closed
import ThreeAddress.Proofs.ScopeOrder

/-!
# What the tokens say about the code

The statements that are left out, the targets of the copies, the declared names and the number
of operations for each copy can all be read off the flat list of tokens, each by looking at a
token and those next to it. Nothing is lost or added on the way through the tree, however its
blocks are nested.
-/

namespace ThreeAddress

namespace Token

/-- The words that statements without code begin with. -/
def leftOutWords : List Text := ["if", "while", "print"]

/-- The token begins a statement that is left out. -/
def IsLeftOut (t : Token) : Prop := t.kind = .keyword ∧ t.lexeme ∈ leftOutWords

instance : DecidablePred IsLeftOut := fun _ => inferInstanceAs (Decidable (_ ∧ _))

/-- The token joins two operands. -/
def IsOperation (t : Token) : Prop := t.kind = .operator ∨ t.kind = .comparator

instance : DecidablePred IsOperation := fun _ => inferInstanceAs (Decidable (_ ∨ _))

/-- The names right before a sign `=`, each with the tokens between that sign and the next
semicolon. -/
def assignments : List Token → List (Token × List Token)
  | x :: sign :: rest =>
    if x.kind = .identifier ∧ sign.kind = .assignOp then
      (x, rest.takeWhile (·.kind ≠ .semicolon)) :: assignments (sign :: rest)
    else assignments (sign :: rest)
  | _ => []

/-- The names right behind a word `int`. -/
def declared : List Token → List Token
  | word :: x :: rest =>
    if word.Is .keyword "int" ∧ x.kind = .identifier then x :: declared (x :: rest)
    else declared (x :: rest)
  | _ => []

lemma assignments_cons_of_kind {t : Token} (h : t.kind ≠ .identifier) (rest : List Token) :
    assignments (t :: rest) = assignments rest := by
  cases rest with
  | nil => rfl
  | cons u rest => exact if_neg fun both => h both.1

lemma assignments_cons_cons {t u : Token} (h : u.kind ≠ .assignOp) (rest : List Token) :
    assignments (t :: u :: rest) = assignments (u :: rest) :=
  if_neg fun both => h both.2

/-- Tokens without a sign `=` make no assignment, if the last of them is not a name. -/
lemma assignments_append {ts : List Token} {stop : Token} (none : ∀ t ∈ ts, t.kind ≠ .assignOp)
    (sign : stop.kind ≠ .assignOp) (name : stop.kind ≠ .identifier) (rest : List Token) :
    assignments (ts ++ stop :: rest) = assignments rest := by
  induction ts with
  | nil => exact assignments_cons_of_kind name rest
  | cons t ts ih =>
    obtain ⟨_, others⟩ := List.forall_mem_cons.mp none
    refine Eq.trans ?_ (ih others)
    cases ts with
    | nil => exact assignments_cons_cons sign rest
    | cons u ts => exact assignments_cons_cons (others u List.mem_cons_self) _

/-- The declarations of a token list are the names behind `int`. -/
lemma declarations_events (word : Token) (ts : List Token) :
    declarations (events (decide (word.Is .keyword "int")) ts) =
      (declared (word :: ts)).map .ofToken := by
  induction ts generalizing word with
  | nil => rfl
  | cons t ts ih =>
    have next := ih t
    by_cases name : t.kind = .identifier
    · have noWord : ¬ t.Is .keyword "int" := fun is => by cases name.symm.trans is.1
      rw [decide_eq_false noWord] at next
      by_cases int : word.Is .keyword "int"
      · rw [decide_eq_true int, events_declare name, declared, if_pos ⟨int, name⟩, List.map_cons,
          ← next]
        rfl
      · rw [decide_eq_false int, events_use name, declared, if_neg fun both => int both.1, ← next]
        rfl
    · rw [events, if_neg name, declared, if_neg fun both => name both.2, next]

lemma declarations_events_false (ts : List Token) :
    declarations (events false ts) = (declared ts).map .ofToken := by
  cases ts with
  | nil => rfl
  | cons t ts =>
    -- a token in front that is not `int` changes neither side
    have front := declarations_events ⟨.semicolon, [], 0, 0⟩ (t :: ts)
    rw [declared, if_neg fun both => by cases both.1.1] at front
    exact front

end Token

/-- The number of operations in an expression. -/
def Expr.operations : Expr → Nat
  | hole => 0
  | var _ => 0
  | num .. => 0
  | binary _ _ left right => left.operations + right.operations + 1

/-- The token of a statement that is left out. -/
def Action.leftOut? : Action → Option Token
  | assign .. => none
  | leaveOut token => some token

/-- The target and the value of an assignment. -/
def Action.assigned? : Action → Option (Ident × Expr)
  | assign id value => some (id, value)
  | leaveOut _ => none

/-! From the tokens to the actions of the tree. -/

namespace Grammar

open Token

/-- The kinds of token that an expression is made of. -/
def valueKinds : List Kind :=
  [.identifier, .number, .leftParen, .rightParen, .operator, .comparator]

lemma Expression.kind_mem {level : Level} {ts : List Token} {e : Expr}
    (h : Expression level ts e) : ∀ t ∈ ts, t.kind ∈ valueKinds := by
  induction h with
  | name kind => simp [kind, valueKinds]
  | number kind => simp [kind, valueKinds]
  | parens left _ right ih =>
    simp only [List.forall_mem_cons, List.forall_mem_append]
    exact ⟨by simp [left, valueKinds], ih, by simp [right, valueKinds]⟩
  | factor _ ih => exact ih
  | term _ ih => exact ih
  | arith _ ih => exact ih
  | product _ times _ left right =>
    simp only [List.forall_mem_cons, List.forall_mem_append]
    exact ⟨left, by simp [times.kind, valueKinds], right⟩
  | sum _ plus _ left right =>
    simp only [List.forall_mem_cons, List.forall_mem_append]
    exact ⟨left, by simp [plus.kind, valueKinds], right⟩
  | comparison _ comparator _ left right =>
    simp only [List.forall_mem_cons, List.forall_mem_append]
    exact ⟨left, by simp [comparator, valueKinds], right⟩

lemma countP_isOperation_append {op : Token} {ts us : List Token} (is : op.IsOperation) :
    (ts ++ op :: us).countP (·.IsOperation) =
      ts.countP (·.IsOperation) + us.countP (·.IsOperation) + 1 := by
  rw [List.countP_append, List.countP_cons_of_pos (by simpa using is), Nat.add_assoc]

/-- Each operation of an expression has one token, and parentheses have none. -/
lemma Expression.countP_isOperation {level : Level} {ts : List Token} {e : Expr}
    (h : Expression level ts e) : ts.countP (·.IsOperation) = e.operations := by
  induction h with
  | name kind => simp [IsOperation, kind, Expr.operations]
  | number kind => simp [IsOperation, kind, Expr.operations]
  | parens left _ right ih =>
    rw [List.countP_cons_of_neg (by simp [IsOperation, left]), List.countP_append, ih]
    simp [IsOperation, right]
  | factor _ ih => exact ih
  | term _ ih => exact ih
  | arith _ ih => exact ih
  | product _ times _ left right =>
    rw [countP_isOperation_append (Or.inl times.kind), left, right, Expr.operations]
  | sum _ plus _ left right =>
    rw [countP_isOperation_append (Or.inl plus.kind), left, right, Expr.operations]
  | comparison _ comparator _ left right =>
    rw [countP_isOperation_append (Or.inr comparator), left, right, Expr.operations]

/-- The tokens of an assignment spell its target and its value. -/
def SpellsAssignment (a : Token × List Token) (b : Ident × Expr) : Prop :=
  b.1 = .ofToken a.1 ∧ Expression .expr a.2 b.2

/-- The tokens say by themselves, whatever follows them, which actions there are. -/
structure Accounts (ts : List Token) (as : List Action) : Prop where
  leftOut : ts.filter (·.IsLeftOut) = as.filterMap Action.leftOut?
  apart : ∀ rest, assignments (ts ++ rest) = assignments ts ++ assignments rest
  assigned : List.Forall₂ SpellsAssignment (assignments ts) (as.filterMap Action.assigned?)

lemma Accounts.append {ts us : List Token} {as bs : List Action} (first : Accounts ts as)
    (second : Accounts us bs) : Accounts (ts ++ us) (as ++ bs) where
  leftOut := by
    rw [List.filter_append, List.filterMap_append, first.leftOut, second.leftOut]
  apart := by
    intro rest
    rw [List.append_assoc, first.apart, second.apart, first.apart, List.append_assoc]
  assigned := by
    rw [first.apart, List.filterMap_append]
    exact List.rel_append first.assigned second.assigned

/-- What the tokens of each assignment say can be read off the tree as well. -/
lemma Accounts.map_assignments {β : Type} {f : Token × List Token → β} {g : Ident × Expr → β}
    {ts : List Token} {as : List Action} (h : Accounts ts as)
    (same : ∀ a b, SpellsAssignment a b → f a = g b) :
    (assignments ts).map f = (as.filterMap Action.assigned?).map g := by
  have pairs : List.Forall₂ (· = ·) ((assignments ts).map f)
      ((as.filterMap Action.assigned?).map g) := by
    rw [List.forall₂_map_left_iff, List.forall₂_map_right_iff]
    exact h.assigned.imp same
  rwa [List.forall₂_eq_eq_eq] at pairs

/-- A token that has to do with no action. -/
def Quiet (t : Token) : Prop := ¬ t.IsLeftOut ∧ t.kind ≠ .assignOp

lemma quiet_of_kind {t : Token} {k : Kind} (kind : t.kind = k)
    (other : k ≠ .keyword ∧ k ≠ .assignOp) : Quiet t := by
  subst kind
  exact ⟨fun leftOut => other.1 leftOut.1, other.2⟩

lemma quiet_of_is {t : Token} {word : Text} (is : t.Is .keyword word)
    (other : word ∉ leftOutWords) : Quiet t :=
  ⟨fun leftOut => other (is.2 ▸ leftOut.2), by simp [is.1]⟩

lemma Expression.quiet {level : Level} {ts : List Token} {e : Expr} (h : Expression level ts e) :
    ∀ t ∈ ts, Quiet t := by
  intro t ht
  have kinds : ∀ k ∈ valueKinds, k ≠ .keyword ∧ k ≠ .assignOp := by decide
  exact quiet_of_kind rfl (kinds t.kind (h.kind_mem t ht))

/-- Quiet tokens add nothing, if the last of them is not a name. -/
lemma accounts_quiet {ts : List Token} {stop : Token} (quiet : ∀ t ∈ ts, Quiet t)
    (last : Quiet stop) (name : stop.kind ≠ .identifier) : Accounts (ts ++ [stop]) [] := by
  have skipped (rest : List Token) : assignments (ts ++ stop :: rest) = assignments rest :=
    assignments_append (fun t ht => (quiet t ht).2) last.2 name rest
  have none : assignments (ts ++ [stop]) = [] := skipped []
  refine ⟨?_, ?_, ?_⟩
  · rw [List.filterMap_nil, List.filter_eq_nil_iff]
    intro t ht
    rw [List.mem_append, List.mem_singleton] at ht
    rcases ht with ht | rfl
    · simpa using (quiet t ht).1
    · simpa using last.1
  · intro rest
    rw [none, List.append_assoc, List.singleton_append, skipped, List.nil_append]
  · rw [none]
    exact .nil

lemma accounts_word {t : Token} (h : t.IsLeftOut) : Accounts [t] [.leaveOut t] where
  leftOut := by simp [h, Action.leftOut?]
  apart := by
    intro rest
    exact assignments_cons_of_kind (by simp [h.1]) rest
  assigned := .nil

/-- A word with a condition or an argument behind it. -/
lemma accounts_head {word l r : Token} {w : Text} {ts : List Token} {e : Expr}
    (is : word.Is .keyword w) (leftOut : w ∈ leftOutWords) (left : l.kind = .leftParen)
    (inner : Expression .expr ts e) (right : r.kind = .rightParen) :
    Accounts (word :: l :: (ts ++ [r])) [.leaveOut word] := by
  have first : Accounts [word] [.leaveOut word] := accounts_word ⟨is.1, is.2 ▸ leftOut⟩
  have parens : Accounts (l :: ts ++ [r]) [] := by
    apply accounts_quiet
    · exact List.forall_mem_cons.mpr ⟨quiet_of_kind left (by decide), inner.quiet⟩
    · exact quiet_of_kind right (by decide)
    · simp [right]
  exact first.append parens

/-- A single token that is neither a name nor has to do with an action. -/
lemma accounts_single {t : Token} (quiet : Quiet t) (name : t.kind ≠ .identifier) :
    Accounts [t] [] := by
  have alone : Accounts ([] ++ [t]) [] := accounts_quiet (List.forall_mem_nil _) quiet name
  exact alone

lemma accounts_mark {t : Token} {k : Kind} (kind : t.kind = k)
    (other : k ≠ .keyword ∧ k ≠ .assignOp ∧ k ≠ .identifier) : Accounts [t] [] :=
  accounts_single (quiet_of_kind kind ⟨other.1, other.2.1⟩) (kind ▸ other.2.2)

lemma accounts_assignment {x sign stop : Token} {ts : List Token} {e : Expr}
    (name : x.kind = .identifier) (assign : sign.kind = .assignOp)
    (value : Expression .expr ts e) (semicolon : stop.kind = .semicolon) :
    Accounts (x :: sign :: (ts ++ [stop])) [.assign (.ofToken x) e] := by
  have inside : ∀ t ∈ ts, t.kind ≠ .semicolon := by
    intro t ht
    have kinds : ∀ k ∈ valueKinds, k ≠ .semicolon := by decide
    exact kinds t.kind (value.kind_mem t ht)
  have noMore (rest : List Token) : assignments (sign :: (ts ++ stop :: rest)) =
      assignments rest := by
    rw [assignments_cons_of_kind (by simp [assign])]
    exact assignments_append (fun t ht => (value.quiet t ht).2) (by simp [semicolon])
      (by simp [semicolon]) rest
  have first (rest : List Token) : assignments (x :: sign :: (ts ++ stop :: rest)) =
      (x, ts) :: assignments rest := by
    have cut : (ts ++ stop :: rest).takeWhile (·.kind ≠ .semicolon) = ts := by
      rw [List.takeWhile_append_of_pos (by simpa using inside)]
      simp [semicolon]
    rw [assignments, if_pos ⟨name, assign⟩, cut, noMore]
  refine ⟨?_, ?_, ?_⟩
  · have quiet : ∀ t ∈ x :: sign :: (ts ++ [stop]), ¬ t.IsLeftOut := by
      simp only [List.forall_mem_cons, List.forall_mem_append]
      refine ⟨?_, ?_, fun t ht => (value.quiet t ht).1, ?_, List.forall_mem_nil _⟩
      · exact fun leftOut => by cases name.symm.trans leftOut.1
      · exact fun leftOut => by cases assign.symm.trans leftOut.1
      · exact fun leftOut => by cases semicolon.symm.trans leftOut.1
    rw [List.filter_eq_nil_iff.mpr (by simpa using quiet)]
    rfl
  · intro rest
    have alone := first []
    simp only [List.cons_append, List.append_assoc, List.nil_append]
    rw [alone, first]
    rfl
  · rw [first []]
    exact .cons ⟨rfl, value⟩ .nil

mutual

lemma Statement.accounts {ts : List Token} {s : Stmt} : Statement ts s → Accounts ts s.actions
  | .declaration (x := x) intWord name semicolon => by
    have first := accounts_single (quiet_of_is intWord (by decide)) (by simp [intWord.1])
    have others : ∀ t ∈ [x], Quiet t :=
      List.forall_mem_singleton.mpr (quiet_of_kind name (by decide))
    have stop := accounts_quiet others (quiet_of_kind semicolon (by decide)) (by simp [semicolon])
    simpa [Stmt.actions] using first.append stop
  | .assignment name assign value semicolon => by
    rw [Stmt.actions]
    exact accounts_assignment name assign value semicolon
  | .ifThen ifWord left cond right block => by
    have head := accounts_head ifWord (by decide) left cond right
    simpa [Stmt.actions] using head.append block.accounts
  | .ifElse ifWord left cond right block elseWord elseBlock => by
    have head := accounts_head ifWord (by decide) left cond right
    have between := accounts_single (quiet_of_is elseWord (by decide)) (by simp [elseWord.1])
    have blocks := (block.accounts.append between).append elseBlock.accounts
    simpa [Stmt.actions] using head.append blocks
  | .whileDo whileWord left cond right block => by
    have head := accounts_head whileWord (by decide) left cond right
    simpa [Stmt.actions] using head.append block.accounts
  | .print printWord left value right semicolon => by
    have head := accounts_head printWord (by decide) left value right
    have stop := accounts_mark semicolon (by decide)
    simpa [Stmt.actions] using head.append stop

lemma Block.accounts {ts : List Token} {brace : Token} {body : List Stmt} :
    Block ts brace body → Accounts ts (Stmt.actionsAll body)
  | .braces left inner right => by
    have opening := accounts_mark left (by decide)
    have closing := accounts_mark right (by decide)
    simpa using opening.append (inner.accounts.append closing)

/-- The tokens of a program account for its actions. -/
lemma Statements.accounts {ts : List Token} {p : List Stmt} :
    Statements ts p → Accounts ts (Stmt.actionsAll p)
  | .nil => by
    rw [Stmt.actionsAll]
    exact ⟨rfl, fun _ => rfl, .nil⟩
  | .cons first others => by
    rw [Stmt.actionsAll]
    exact first.accounts.append others.accounts

end

end Grammar

/-! From the actions to the code. -/

lemma Expr.omissions_emit (e : Expr) (n : Nat) : (e.emit n).2.omissions = [] := by
  induction e generalizing n with
  | hole => rfl
  | var id => rfl
  | num token digits => rfl
  | binary token symbol left right ihLeft ihRight =>
    have both : (emitBoth n left right).omissions = [] := by
      rw [emitBoth, Code.omissions_append, ihLeft, ihRight, List.append_nil]
    cases h : Op.ofSymbol? symbol with
    | none => rw [emit_binary_none h, Code.omissions_append, both, Code.missing, List.append_nil]
    | some op => rw [emit_binary h, Code.omissions_append, both, Code.operation, List.append_nil]

/-- With known operators, an expression makes one instruction for each operation. -/
lemma Expr.length_emit {Name Number : Text → Prop} {e : Expr} (within : e.Within Name Number)
    (n : Nat) : (e.emit n).2.instructions.length = e.operations := by
  induction e generalizing n with
  | hole => exact within.elim
  | var id => rfl
  | num token digits => rfl
  | binary token symbol left right ihLeft ihRight =>
    obtain ⟨op, hop⟩ := Option.isSome_iff_exists.mp within.1
    rw [emit_binary hop, Code.instructions_append, List.length_append, emitBoth,
      Code.instructions_append, List.length_append, ihLeft within.2.1, ihRight within.2.2,
      Code.operation, List.length_singleton, operations]

namespace Action

variable (as : List Action) (n : Nat)

lemma omissions_emitAll : (emitAll n as).omissions =
    (as.filterMap leftOut?).map fun t => ⟨t.lexeme, t.line⟩ := by
  induction as generalizing n with
  | nil => rfl
  | cons a as ih =>
    rw [emitAll, Code.omissions_append, ih]
    cases a with
    | assign id value =>
      rw [emit, Code.omissions_append, value.omissions_emit]
      rfl
    | leaveOut token => rfl

lemma copies_emitAll : ((emitAll n as).instructions.filter (·.op = .copy)).map Instruction.dest =
    (as.filterMap assigned?).map fun b => b.1.name := by
  induction as generalizing n with
  | nil => rfl
  | cons a as ih =>
    rw [emitAll, Code.instructions_append, List.filter_append, List.map_append, ih]
    cases a with
    | assign id value =>
      have none : (value.emit n).2.instructions.filter (·.op = .copy) = [] := by
        rw [List.filter_eq_nil_iff]
        intro i hi
        simpa using Expr.op_ne_copy_of_mem_emit i hi
      rw [emit, Code.instructions_append, List.filter_append, none]
      rfl
    | leaveOut token => rfl

variable {as}

/-- The operations before each copy are those of its value, and there are none behind the last
copy. -/
lemma splitOnP_emitAll {Name Number : Text → Prop} (within : ∀ a ∈ as, a.Within Name Number) :
    ((emitAll n as).instructions.splitOnP (·.op = .copy)).map List.length =
      ((as.filterMap assigned?).map fun b => b.2.operations) ++ [0] := by
  induction as generalizing n with
  | nil => rfl
  | cons a as ih =>
    obtain ⟨first, others⟩ := List.forall_mem_cons.mp within
    cases a with
    | assign id value =>
      have noCopy : ∀ i ∈ (value.emit n).2.instructions, decide (i.op = .copy) = false := by
        intro i hi
        simpa using Expr.op_ne_copy_of_mem_emit i hi
      rw [emitAll, Code.instructions_append, emit, Code.instructions_append, List.append_assoc,
        Code.copying, List.singleton_append,
        List.splitOnP_append_cons_of_forall_mem noCopy _ (by rfl), List.map_cons, ih _ others,
        value.length_emit first.2]
      rfl
    | leaveOut token => exact ih _ others

end Action

/-- The symbols of an accepted source are the names behind `int`, numbered in order. -/
lemma Accepted.symbols_eq {c : Compiled} (h : Accepted c) :
    c.symbols = (Token.declared c.tokens).zipIdx.map fun (x, index) => ⟨x.lexeme, index, x⟩ := by
  obtain ⟨table, scan, symbols⟩ := h.inScope
  rw [scanTokens, Table.scan_eq_replay] at scan
  have replayed := Verdict.eq_of_toExcept_eq_ok scan
  rcases Table.replay_empty (Token.events false c.tokens) with ⟨listed, _⟩ | ⟨_, _, failed, _⟩
  · rw [listed, Token.declarations_events_false] at replayed
    cases replayed
    rw [← symbols, Table.listing, List.zipIdx_map, List.map_map]
    rfl
  · rw [failed] at replayed
    cases replayed

/-- All that the code of an accepted source holds can be counted on the tokens. The statements
left out are those of the words `if`, `while` and `print`. There is a copy for each name before
a sign `=`, and before it an operation for each operator up to the next semicolon. The symbols
are the names behind `int`. There are no other instructions. -/
theorem code_accounts_for_tokens {options : Options} {source : Text} {c : Compiled}
    (accepted : compile options source = .ok c) :
    c.code.omissions = (c.tokens.filter (·.IsLeftOut)).map (fun t => ⟨t.lexeme, t.line⟩) ∧
    (c.code.instructions.filter (·.op = .copy)).map Instruction.dest =
      (Token.assignments c.tokens).map (fun a => a.1.lexeme) ∧
    c.symbols = (Token.declared c.tokens).zipIdx.map (fun (x, index) => ⟨x.lexeme, index, x⟩) ∧
    (c.code.instructions.splitOnP (·.op = .copy)).map List.length =
      (Token.assignments c.tokens).map (fun a => a.2.countP (·.IsOperation)) ++ [0] ∧
    ∀ i ∈ c.code.instructions, i.op = .copy ∨ i.op ∈ Op.binary := by
  have stages := accepted_of_compile accepted
  have accounts := stages.spelled.accounts
  have within : ∀ a ∈ Stmt.actionsAll c.program, a.Within (fun _ => True) (fun _ => True) :=
    Stmt.within_actionsAll c.program (stages.within (fun _ _ _ => trivial) fun _ _ _ => trivial)
  refine ⟨?_, ?_, stages.symbols_eq, ?_, ?_⟩
  · rw [stages.code_eq_actions, Action.omissions_emitAll, accounts.leftOut]
  · rw [stages.code_eq_actions, Action.copies_emitAll]
    apply Eq.symm
    apply accounts.map_assignments
    rintro ⟨x, value⟩ ⟨id, e⟩ ⟨rfl, _⟩
    rfl
  · rw [stages.code_eq_actions, Action.splitOnP_emitAll 0 within]
    apply congrArg (· ++ [0])
    apply Eq.symm
    apply accounts.map_assignments
    rintro ⟨x, value⟩ ⟨id, e⟩ ⟨_, spelled⟩
    exact spelled.countP_isOperation
  · intro i mem
    obtain ⟨k, here⟩ := List.getElem?_of_mem mem
    exact (stages.closed.fits k i here).dest.imp And.left And.left

/-- A source whose conditions, printed values and nested blocks stand around its assignments. -/
def scattered : Text :=
  "int a; if (a + 1 > 2) \x7b a = 1;\n" ++
    "print(a * a); while (a) \x7b int b; b = (a - 1) * (a < 2); \x7d \x7d"

theorem code_accounts_for_tokens_scattered : ∃ c,
    compile ⟨.reject, .tree⟩ scattered = .ok c ∧
    c.code.omissions = [⟨"if", 1⟩, ⟨"print", 2⟩, ⟨"while", 2⟩] ∧
    (c.code.instructions.filter (·.op = .copy)).map Instruction.dest = [utf8 "a", "b"] ∧
    c.symbols =
      [⟨"a", 0, ⟨.identifier, "a", 1, 5⟩⟩, ⟨"b", 1, ⟨.identifier, "b", 2, 31⟩⟩] ∧
    (c.code.instructions.splitOnP (·.op = .copy)).map List.length = [0, 3, 0] := by
  obtain ⟨c, accepted, leftOut, targets, declared, counts⟩ : ∃ c,
      compile ⟨.reject, .tree⟩ scattered = .ok c ∧
      (c.tokens.filter (·.IsLeftOut)).map (fun t => (⟨t.lexeme, t.line⟩ : Omission)) =
        [⟨"if", 1⟩, ⟨"print", 2⟩, ⟨"while", 2⟩] ∧
      (Token.assignments c.tokens).map (fun a => a.1.lexeme) = [utf8 "a", "b"] ∧
      (Token.declared c.tokens).zipIdx.map
          (fun (x, index) => (⟨x.lexeme, index, x⟩ : Symbol)) =
        [⟨"a", 0, ⟨.identifier, "a", 1, 5⟩⟩, ⟨"b", 1, ⟨.identifier, "b", 2, 31⟩⟩] ∧
      (Token.assignments c.tokens).map (fun a => a.2.countP (·.IsOperation)) ++ [0] =
        [0, 3, 0] := by decide +kernel
  obtain ⟨omissions, copies, symbols, operations, _⟩ := code_accounts_for_tokens accepted
  exact ⟨c, accepted, omissions.trans leftOut, copies.trans targets, symbols.trans declared,
    operations.trans counts⟩

end ThreeAddress
