import ThreeAddress.Proofs.Parsing
import ThreeAddress.Proofs.WholeReadings

/-!
# Scope events

All that scope is about is the order in which names are declared and used. Both checks
replay such a list of events against a table: one takes it from the tree, the other from
the tokens. The tokens of a program give the events of its tree, so the checks agree.
-/

namespace ThreeAddress

/-- An occurrence of a name, as far as scope is concerned. -/
inductive ScopeEvent where
  | declare (id : Ident)
  | use (id : Ident)
  deriving DecidableEq, Repr

namespace Verdict

lemma andThen_assoc (v : Verdict) (f g : Table → Verdict) :
    (v.andThen f).andThen g = v.andThen fun t => (f t).andThen g := by
  obtain ⟨t, violation⟩ := v
  cases violation <;> rfl

end Verdict

namespace Table

/-- The table after one event, or the violation it is. -/
def meet (t : Table) : ScopeEvent → Verdict
  | .declare id =>
    match t.declare id with
    | .ok t => ⟨t, none⟩
    | .error v => ⟨t, some v⟩
  | .use id => ⟨t, t.use id⟩

/-- Meets the events in order, up to the first violation. -/
def replay (t : Table) : List ScopeEvent → Verdict
  | [] => ⟨t, none⟩
  | e :: es => (t.meet e).andThen fun t => t.replay es

@[simp] lemma replay_nil (t : Table) : t.replay [] = ⟨t, none⟩ := rfl

lemma replay_cons (t : Table) (e : ScopeEvent) (es : List ScopeEvent) :
    t.replay (e :: es) = (t.meet e).andThen fun t => t.replay es := rfl

lemma replay_append (t : Table) (es fs : List ScopeEvent) :
    t.replay (es ++ fs) = (t.replay es).andThen fun t => t.replay fs := by
  induction es generalizing t with
  | nil => rfl
  | cons e es ih =>
    rw [List.cons_append, replay_cons, replay_cons, Verdict.andThen_assoc]
    congr 1
    funext t
    exact ih t

end Table

/-- The uses in an expression, left operands first. -/
def Expr.events : Expr → List ScopeEvent
  | hole => []
  | var id => [.use id]
  | num .. => []
  | binary _ _ left right => left.events ++ right.events

mutual

/-- The events of a statement in source order. -/
def Stmt.events : Stmt → List ScopeEvent
  | .hole => []
  | .declare _ id => [.declare id]
  | .assign _ id value => .use id :: value.events
  | .print _ value => value.events
  | .block _ body => Stmt.eventsAll body
  | .ifThen _ cond _ body => cond.events ++ Stmt.eventsAll body
  | .ifElse _ cond _ body _ elseBody =>
    cond.events ++ (Stmt.eventsAll body ++ Stmt.eventsAll elseBody)
  | .whileDo _ cond _ body => cond.events ++ Stmt.eventsAll body

def Stmt.eventsAll : List Stmt → List ScopeEvent
  | [] => []
  | s :: rest => s.events ++ Stmt.eventsAll rest

end

lemma Expr.replay_events (e : Expr) (t : Table) : t.replay e.events = ⟨t, e.check t⟩ := by
  induction e with
  | hole => rfl
  | var id =>
    cases h : t.use id <;> simp [events, check, Table.replay, Table.meet, h, Verdict.andThen]
  | num => rfl
  | binary token op left right ihLeft ihRight =>
    rw [events, Table.replay_append, ihLeft, check]
    cases left.check t with
    | none => exact ihRight
    | some v => rfl

mutual

/-- Checking a statement replays its events. -/
lemma Stmt.check_eq_replay (t : Table) : (s : Stmt) → s.check t = t.replay s.events
  | .hole => by rw [check, events, Table.replay_nil]
  | .declare _ id => by
    rw [check, events, Table.replay_cons, Table.meet]
    cases t.declare id <;> rfl
  | .assign _ id value => by
    rw [check, events, Table.replay_cons, Table.meet]
    cases t.use id with
    | none => exact (value.replay_events t).symm
    | some v => rfl
  | .print _ value => by rw [check, events, value.replay_events]
  | .block _ body => by rw [check, events, checkAll_eq_replay]
  | .ifThen _ cond _ body => by
    simp only [check, events, Table.replay_append, cond.replay_events, checkAll_eq_replay]
  | .ifElse _ cond _ body _ elseBody => by
    simp only [check, events, Table.replay_append, cond.replay_events, checkAll_eq_replay,
      Verdict.andThen_assoc]
  | .whileDo _ cond _ body => by
    simp only [check, events, Table.replay_append, cond.replay_events, checkAll_eq_replay]

lemma Stmt.checkAll_eq_replay (t : Table) :
    (p : List Stmt) → Stmt.checkAll p t = t.replay (Stmt.eventsAll p)
  | [] => by rw [checkAll, eventsAll, Table.replay_nil]
  | s :: rest => by
    simp only [checkAll, eventsAll, Table.replay_append, check_eq_replay, checkAll_eq_replay]

end

/-- The events of a token list. `declaring` tells that the token before it is `int`. -/
def Token.events (declaring : Bool) : List Token → List ScopeEvent
  | [] => []
  | t :: ts =>
    if t.kind = .identifier then
      (if declaring then .declare (.ofToken t) else .use (.ofToken t)) :: Token.events false ts
    else Token.events (decide (t.Is .keyword "int")) ts

namespace Token

variable {t : Token} {declaring : Bool} {ts : List Token}

lemma events_use (h : t.kind = .identifier) :
    events false (t :: ts) = .use (.ofToken t) :: events false ts := by
  simp [events, h]

lemma events_int (h : t.Is .keyword "int") : events declaring (t :: ts) = events true ts := by
  simp [events, h.1, h]

lemma events_declare (h : t.kind = .identifier) :
    events true (t :: ts) = .declare (.ofToken t) :: events false ts := by
  simp [events, h]

/-- Any token but a name and `int` is passed over. -/
lemma events_other (name : t.kind ≠ .identifier) (int : ¬ t.Is .keyword "int") :
    events declaring (t :: ts) = events false ts := by
  simp [events, name, int]

/-- The token before it matters to a name only. -/
lemma events_of_ne_identifier (name : t.kind ≠ .identifier) :
    events declaring (t :: ts) = events false (t :: ts) := by
  simp [events, name]

lemma events_kind (name : t.kind ≠ .identifier) (keyword : t.kind ≠ .keyword) :
    events declaring (t :: ts) = events false ts :=
  events_other name fun is => keyword is.1

lemma events_word {word : Text} (h : t.Is .keyword word) (int : word ≠ "int") :
    events declaring (t :: ts) = events false ts :=
  events_other (by simp [h.1]) fun is => int (h.2.symm.trans is.2)

end Token

/-- Scanning tokens replays their events: the scan looks ahead to a name that is declared where
the events look back to its `int`. -/
lemma Table.scan_eq_replay (t : Table) (ts : List Token) :
    t.scan ts = (t.replay (Token.events false ts)).toExcept := by
  fun_induction Table.scan t ts with
  | case1 t => rfl
  | case2 t tok int =>
    rw [Token.events_int int]
    rfl
  | case3 t tok int next behind name t' declared ih =>
    rw [Token.events_int int, Token.events_declare name, replay_cons, meet, declared, ih]
    rfl
  | case4 t tok int next behind name e declared =>
    rw [Token.events_int int, Token.events_declare name, replay_cons, meet, declared]
    rfl
  | case5 t tok int next behind name ih =>
    rw [Token.events_int int, Token.events_of_ne_identifier name, ih]
  | case6 t tok rest int name used ih =>
    rw [Token.events_use name, replay_cons, meet, used, ih]
    rfl
  | case7 t tok rest int name e used =>
    rw [Token.events_use name, replay_cons, meet, used]
    rfl
  | case8 t tok rest int name ih => rw [Token.events_other name int, ih]

namespace Grammar

/-- The tokens of an expression have the events of its tree, whatever follows them. -/
lemma Expression.events {level : Level} {ts : List Token} {e : Expr}
    (h : Expression level ts e) : ∀ us : List Token,
      Token.events false (ts ++ us) = e.events ++ Token.events false us := by
  induction h with
  | name kind => exact fun us => Token.events_use kind
  | number kind => exact fun us => Token.events_kind (by simp [kind]) (by simp [kind])
  | parens left _ right ih =>
    intro us
    rw [List.cons_append, Token.events_kind (by simp [left]) (by simp [left]), List.append_assoc,
      ih, List.singleton_append, Token.events_kind (by simp [right]) (by simp [right])]
  | factor _ ih => exact ih
  | term _ ih => exact ih
  | arith _ ih => exact ih
  | product _ times _ left right =>
    intro us
    rw [List.append_assoc, left, List.cons_append,
      Token.events_kind (by simp [times.kind]) (by simp [times.kind]), right, Expr.events,
      List.append_assoc]
  | sum _ plus _ left right =>
    intro us
    rw [List.append_assoc, left, List.cons_append,
      Token.events_kind (by simp [plus.kind]) (by simp [plus.kind]), right, Expr.events,
      List.append_assoc]
  | comparison _ comparator _ left right =>
    intro us
    rw [List.append_assoc, left, List.cons_append,
      Token.events_kind (by simp [comparator]) (by simp [comparator]), right, Expr.events,
      List.append_assoc]

/-- An expression in parentheses. -/
lemma Expression.events_parens {l r : Token} {ts : List Token} {e : Expr}
    (left : l.kind = .leftParen) (inner : Expression .expr ts e) (right : r.kind = .rightParen)
    (us : List Token) :
    Token.events false (l :: (ts ++ r :: us)) = e.events ++ Token.events false us := by
  have all := (Expression.parens left inner right).events us
  rwa [List.cons_append, List.append_assoc, List.singleton_append] at all

mutual

/-- The tokens of a statement have the events of its tree, whatever follows them. -/
lemma Statement.events {ts : List Token} {s : Stmt} (us : List Token) :
    Statement ts s → Token.events false (ts ++ us) = s.events ++ Token.events false us
  | .declaration intWord name semicolon => by
    simp only [List.cons_append, List.nil_append]
    rw [Token.events_int intWord, Token.events_declare name,
      Token.events_kind (by simp [semicolon]) (by simp [semicolon]), Stmt.events,
      List.singleton_append]
  | .assignment name assign value semicolon => by
    simp only [List.cons_append, List.append_assoc, List.nil_append]
    rw [Token.events_use name, Token.events_kind (by simp [assign]) (by simp [assign]),
      value.events, Token.events_kind (by simp [semicolon]) (by simp [semicolon]), Stmt.events,
      List.cons_append]
  | .ifThen ifWord left cond right block => by
    simp only [List.cons_append, List.append_assoc]
    rw [Token.events_word ifWord (by decide), Expression.events_parens left cond right,
      block.events, Stmt.events, List.append_assoc]
  | .ifElse ifWord left cond right block elseWord elseBlock => by
    simp only [List.cons_append, List.append_assoc]
    rw [Token.events_word ifWord (by decide), Expression.events_parens left cond right,
      block.events, Token.events_word elseWord (by decide), elseBlock.events, Stmt.events,
      List.append_assoc, List.append_assoc]
  | .whileDo whileWord left cond right block => by
    simp only [List.cons_append, List.append_assoc]
    rw [Token.events_word whileWord (by decide), Expression.events_parens left cond right,
      block.events, Stmt.events, List.append_assoc]
  | .print printWord left value right semicolon => by
    simp only [List.cons_append, List.append_assoc, List.nil_append]
    rw [Token.events_word printWord (by decide), Expression.events_parens left value right,
      Token.events_kind (by simp [semicolon]) (by simp [semicolon]), Stmt.events]

lemma Block.events {ts : List Token} {brace : Token} {body : List Stmt} (us : List Token) :
    Block ts brace body →
      Token.events false (ts ++ us) = Stmt.eventsAll body ++ Token.events false us
  | .braces left inner right => by
    simp only [List.cons_append, List.append_assoc, List.nil_append]
    rw [Token.events_kind (by simp [left]) (by simp [left]), inner.events,
      Token.events_kind (by simp [right]) (by simp [right])]

lemma Statements.events {ts : List Token} {p : List Stmt} (us : List Token) :
    Statements ts p → Token.events false (ts ++ us) = Stmt.eventsAll p ++ Token.events false us
  | .nil => by rw [Stmt.eventsAll, List.nil_append, List.nil_append]
  | .cons first others => by
    rw [List.append_assoc, first.events, others.events, Stmt.eventsAll, List.append_assoc]

end

/-- A token list that spells a program has the same events as the program. -/
lemma Statements.events_eq {ts : List Token} {p : Program} (h : Statements ts p) :
    Token.events false ts = Stmt.eventsAll p := by
  have all := h.events []
  rwa [List.append_nil, Token.events, List.append_nil] at all

end Grammar

lemma scanTokens_of_statements {ts : List Token} {p : Program} (h : Grammar.Statements ts p) :
    scanTokens ts = Program.check p := by
  rw [scanTokens, Table.scan_eq_replay, h.events_eq, Program.check, Stmt.checkAll_eq_replay]

/-- No token of a source marks the end. -/
lemma kind_ne_eof_of_readTokens {policy : Policy} {source : Text} {tokens skipped : List Token}
    (h : readTokens policy source = .ok (tokens, skipped)) : ∀ t ∈ tokens, t.kind ≠ .eof := by
  intro t ht eof
  have admits := admits_of_mem_tokens h t ht
  rw [eof] at admits
  exact admits

lemma statements_of_readProgram {policy : Policy} {source : Text} {parsed : Parsed}
    (h : readProgram policy source = .ok parsed) :
    Grammar.Statements parsed.tokens parsed.program := by
  unfold readProgram at h
  split at h
  · cases h
  · rename_i tokens skipped read
    split at h
    · cases h
    · rename_i program hparse
      cases h
      exact statements_of_parse (kind_ne_eof_of_readTokens read) hparse

/-- On the tokens of a program the scan gives the verdict of the tree check: the same table,
or the same violation. So it makes no difference to a compilation which of them is used. -/
theorem scanTokens_eq_check :
    (∀ (ts : List Token) (p : Program), (∀ t ∈ ts, t.kind ≠ .eof) → parse ts = .ok p →
      scanTokens ts = Program.check p) ∧
    ∀ (policy : Policy) (source : Text),
      compile ⟨policy, .tokens⟩ source = compile ⟨policy, .tree⟩ source := by
  constructor
  · intro ts p noEnd hparse
    exact scanTokens_of_statements (statements_of_parse noEnd hparse)
  · intro policy source
    unfold compile
    cases h : readProgram policy source with
    | error e => rfl
    | ok parsed =>
      have agree := scanTokens_of_statements (statements_of_readProgram h)
      simp only [checkScope, agree]

/-- Both checks stop at the same second declaration, also inside a block. -/
theorem scanTokens_eq_check_redeclared : ∃ read,
    readTokens .skip (utf8 "int x; if (x > 0) \x7b int x; \x7d print(y);") = .ok read ∧
    ∃ p, parse read.1 = .ok p ∧ scanTokens read.1 = Program.check p ∧
      (Stmt.checkAll p .empty).violation =
        some ⟨.redeclared, "x", ⟨.identifier, "x", 1, 25⟩⟩ := by
  obtain ⟨read, tokens, noEnd, p, parsed, verdict⟩ : ∃ read,
      readTokens .skip (utf8 "int x; if (x > 0) \x7b int x; \x7d print(y);") = .ok read ∧
      (∀ t ∈ read.1, t.kind ≠ .eof) ∧ ∃ p, parse read.1 = .ok p ∧
        (Stmt.checkAll p .empty).violation =
          some ⟨.redeclared, "x", ⟨.identifier, "x", 1, 25⟩⟩ := by
    decide +kernel
  exact ⟨read, tokens, p, parsed, scanTokens_eq_check.1 read.1 p noEnd parsed, verdict⟩

end ThreeAddress
