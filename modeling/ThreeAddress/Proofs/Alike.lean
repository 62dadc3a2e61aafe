import Mathlib.Data.List.Forall2
import Mathlib.Data.List.TakeWhile
import ThreeAddress.Proofs.EarliestError
import ThreeAddress.Proofs.Pieces
import ThreeAddress.Proofs.SourceForm

/-!
# Places matter to messages only

Token lists that agree in kinds and lexemes are treated alike by every stage, wherever their
tokens stand. They are read as trees that differ in places only, or refused at the same
position for the same reason; their names get the same symbols, or the same violation at the
same position; and their code differs in the lines of the statements left out, in nothing else.
So the blanks between the tokens of a source do not matter to its code.
-/

namespace ThreeAddress

/-- The tokens are of one kind and spelled alike, wherever they stand. -/
def Token.Alike (t u : Token) : Prop := t.kind = u.kind ∧ t.lexeme = u.lexeme

instance (t u : Token) : Decidable (t.Alike u) := inferInstanceAs (Decidable (_ ∧ _))

lemma Token.alike_iff {t u : Token} : t.Alike u ↔ t.unplaced = u.unplaced := by
  constructor
  · rintro ⟨kind, lexeme⟩
    rw [unplaced, unplaced, kind, lexeme]
  · intro same
    injection same with kind lexeme
    exact ⟨kind, lexeme⟩

lemma forall₂_alike_iff {ts us : List Token} :
    List.Forall₂ Token.Alike ts us ↔ ts.map Token.unplaced = us.map Token.unplaced := by
  rw [← List.forall₂_eq_eq_eq, List.forall₂_map_left_iff, List.forall₂_map_right_iff]
  constructor
  · exact List.Forall₂.imp fun _ _ => Token.alike_iff.mp
  · exact List.Forall₂.imp fun _ _ => Token.alike_iff.mpr

section Tokens

variable {ts us : List Token}

/-! Reading. -/

/-- Both lists are refused for the same reason: at position `i`, or both at their ends. -/
structure RefusedAlike (ts us : List Token) (i : Nat) (e f : SyntaxError) : Prop where
  first : (Parser.ofTokens ts).read = (.error e, ⟨ts, ts.drop i⟩)
  second : (Parser.ofTokens us).read = (.error f, ⟨us, us.drop i⟩)
  expected : e.expected = f.expected
  here : e.token = ts[i]?.getD (endOf ts)
  there : f.token = us[i]?.getD (endOf us)
  atEnd : e.AtEnd ↔ f.AtEnd
  message : e.message = f.message

/-- The ends of two lists differ in their places only, and so do the tokens where they go on. -/
lemma head?_getD_endOf_alike {rest rest' : List Token}
    (h : rest.map Token.unplaced = rest'.map Token.unplaced) :
    (rest.head?.getD (endOf ts)).Alike (rest'.head?.getD (endOf us)) := by
  have lexeme (vs : List Token) : (endOf vs).lexeme = [] := by
    unfold endOf
    split <;> rfl
  cases forall₂_alike_iff.mpr h with
  | nil => exact ⟨by simp [kind_endOf], by simp [lexeme]⟩
  | cons alike _ => exact alike

lemma SyntaxError.message_eq {e f : SyntaxError} (expected : e.expected = f.expected)
    (token : e.token.Alike f.token) : (e.AtEnd ↔ f.AtEnd) ∧ e.message = f.message := by
  have atEnd : e.AtEnd ↔ f.AtEnd := by rw [AtEnd, AtEnd, token.1]
  refine ⟨atEnd, ?_⟩
  simp only [message, expected, atEnd, Token.text, token.1, token.2]

/-- Readings that stop with as much left to read stop at the same position. -/
lemma exists_refusedAlike {expected : Expectation} {rest rest' : List Token}
    (alike : List.Forall₂ Token.Alike ts us)
    (here : Parse.State.initial.run ts = (.error expected, rest))
    (there : Parse.State.initial.run us = (.error expected, rest'))
    (rests : rest.map Token.unplaced = rest'.map Token.unplaced) :
    ∃ i e f, RefusedAlike ts us i e f := by
  have suffix : rest <:+ ts := by
    have := Parse.State.run_suffix .initial ts
    rwa [here] at this
  have suffix' : rest' <:+ us := by
    have := Parse.State.run_suffix .initial us
    rwa [there] at this
  have left : us.length - rest'.length = ts.length - rest.length := by
    have lengths := congrArg List.length rests
    rw [List.length_map, List.length_map] at lengths
    rw [alike.length_eq, lengths]
  rw [List.suffix_iff_eq_drop] at suffix suffix'
  rw [left] at suffix'
  let e : SyntaxError := ⟨expected, rest.head?.getD (endOf ts)⟩
  let f : SyntaxError := ⟨expected, rest'.head?.getD (endOf us)⟩
  have expectations : e.expected = f.expected := rfl
  obtain ⟨atEnd, message⟩ := SyntaxError.message_eq expectations (head?_getD_endOf_alike rests)
  refine ⟨ts.length - rest.length, e, f, ?_, ?_, expectations, ?_, ?_, atEnd, message⟩
  · rw [← suffix]
    exact Parser.read_of_run_eq_error here
  · rw [← suffix']
    exact Parser.read_of_run_eq_error there
  · rw [← List.head?_drop, ← suffix]
  · rw [← List.head?_drop, ← suffix']

lemma parse_alike (alike : List.Forall₂ Token.Alike ts us) :
    (∃ p q, parse ts = .ok p ∧ parse us = .ok q ∧ Stmt.unplacedAll p = Stmt.unplacedAll q) ∨
      ∃ i e f, RefusedAlike ts us i e f := by
  have same := Parse.State.run_unplaced .initial ts
  rw [forall₂_alike_iff.mp alike, Parse.State.run_unplaced .initial us] at same
  obtain ⟨outcome, rests⟩ := Prod.mk.inj same
  rcases here : Parse.State.initial.run ts with ⟨expected | p, rest⟩
  · rcases there : Parse.State.initial.run us with ⟨expected' | q, rest'⟩
    · rw [here, there] at outcome rests
      cases Except.error.inj outcome
      exact Or.inr (exists_refusedAlike alike here there rests.symm)
    · rw [here, there] at outcome
      cases outcome
  · rcases there : Parse.State.initial.run us with ⟨expected' | q, rest'⟩
    · rw [here, there] at outcome
      cases outcome
    · rw [here, there] at outcome
      exact Or.inl ⟨p, q, parse_eq_ok_iff_run.mpr ⟨rest, here⟩,
        parse_eq_ok_iff_run.mpr ⟨rest', there⟩, (Except.ok.inj outcome).symm⟩

/-! Names. -/

/-- The tables define the same names in the same order. -/
structure Table.Alike (t u : Table) : Prop where
  symbols : t.symbols.map (fun s => (s.name, s.index)) = u.symbols.map fun s => (s.name, s.index)
  count : t.count = u.count

/-- Two checks of token lists came to the same result, up to places: alike tables, or the same
violation at tokens of one position. -/
inductive ScopeAlike (ts us : List Token) :
    Except Violation Table → Except Violation Table → Prop where
  | ok {t u : Table} (tables : t.Alike u) : ScopeAlike ts us (.ok t) (.ok u)
  | error {i : Nat} {v w : Violation} (kind : v.kind = w.kind) (name : v.name = w.name)
      (here : ts[i]? = some v.token) (there : us[i]? = some w.token) :
      ScopeAlike ts us (.error v) (.error w)

namespace Table.Alike

variable {t u : Table}

/-- A name is in both tables or in neither. -/
lemma resolve_cases (h : t.Alike u) (name : Text) :
    (t.resolve name = none ∧ u.resolve name = none) ∨
      ∃ r s, t.resolve name = some r ∧ u.resolve name = some s := by
  have names : t.symbols.map Symbol.name = u.symbols.map Symbol.name := by
    have firsts := congrArg (List.map Prod.fst) h.symbols
    rwa [List.map_map, List.map_map] at firsts
  have absent (t : Table) : t.resolve name = none ↔ name ∉ t.symbols.map Symbol.name := by
    simp [resolve]
  by_cases missing : name ∈ u.symbols.map Symbol.name
  · right
    have here : t.resolve name ≠ none := by rwa [Ne, absent, names, not_not]
    have there : u.resolve name ≠ none := by rwa [Ne, absent, not_not]
    obtain ⟨r, hr⟩ := Option.ne_none_iff_exists'.mp here
    obtain ⟨s, hs⟩ := Option.ne_none_iff_exists'.mp there
    exact ⟨r, s, hr, hs⟩
  · left
    exact ⟨(absent t).mpr (names ▸ missing), (absent u).mpr missing⟩

lemma define (h : t.Alike u) (name : Text) (a b : Token) :
    (t.define name a).2.Alike (u.define name b).2 := by
  have filtered (t : Table) :
      (t.symbols.filter (·.name ≠ name)).map (fun s => (s.name, s.index)) =
        (t.symbols.map fun s => (s.name, s.index)).filter (·.1 ≠ name) := by
    rw [List.filter_map]
    rfl
  refine ⟨?_, congrArg (· + 1) h.count⟩
  simp only [Table.define, List.map_append, filtered, h.symbols, h.count, List.map_cons,
    List.map_nil]

end Table.Alike

lemma ScopeAlike.cons {a b : Except Violation Table} (h : ScopeAlike ts us a b) (t u : Token) :
    ScopeAlike (t :: ts) (u :: us) a b := by
  cases h with
  | ok tables => exact .ok tables
  | @error i v w kind name here there => exact .error (i := i + 1) kind name here there

lemma Table.replay_alike (alike : List.Forall₂ Token.Alike ts us) {t u : Table}
    (tables : t.Alike u) (declaring : Bool) :
    ScopeAlike ts us (t.replay (Token.events declaring ts)).toExcept
      (u.replay (Token.events declaring us)).toExcept := by
  induction alike generalizing t u declaring with
  | nil => exact .ok tables
  | @cons x y ts us first _ ih =>
    obtain ⟨kind, lexeme⟩ := first
    by_cases name : x.kind = .identifier
    · have name' : y.kind = .identifier := kind ▸ name
      rcases tables.resolve_cases x.lexeme with ⟨here, there⟩ | ⟨r, s, here, there⟩
      · cases declaring with
        | true =>
          simp only [Token.events_declare name, Token.events_declare name', replay_cons, meet,
            declare, Ident.ofToken, ← lexeme, here, there]
          exact (ih (tables.define x.lexeme x y) false).cons x y
        | false =>
          simp only [Token.events_use name, Token.events_use name', replay_cons, meet, use,
            Ident.ofToken, ← lexeme, here, there]
          exact .error (i := 0) rfl rfl rfl rfl
      · cases declaring with
        | true =>
          simp only [Token.events_declare name, Token.events_declare name', replay_cons, meet,
            declare, Ident.ofToken, ← lexeme, here, there]
          exact .error (i := 0) rfl rfl rfl rfl
        | false =>
          simp only [Token.events_use name, Token.events_use name', replay_cons, meet, use,
            Ident.ofToken, ← lexeme, here, there]
          exact (ih tables false).cons x y
    · have name' : y.kind ≠ .identifier := kind ▸ name
      have word : x.Is .keyword "int" ↔ y.Is .keyword "int" := by
        rw [Token.Is, Token.Is, kind, lexeme]
      rw [Token.events, Token.events, if_neg name, if_neg name', decide_eq_decide.mpr word]
      exact (ih tables _).cons x y

lemma scanTokens_alike (alike : List.Forall₂ Token.Alike ts us) :
    ScopeAlike ts us (scanTokens ts) (scanTokens us) := by
  rw [scanTokens, scanTokens, Table.scan_eq_replay, Table.scan_eq_replay]
  exact Table.replay_alike alike ⟨rfl, rfl⟩ false

/-- What stands from an end token on plays no part in a reading. -/
lemma Parse.State.run_takeWhile (st : State) (ts : List Token) :
    (st.run (ts.takeWhile (·.kind ≠ .eof))).1 = (st.run ts).1 := by
  have split := List.takeWhile_append_dropWhile (p := (·.kind ≠ .eof)) (l := ts)
  cases behind : ts.dropWhile (·.kind ≠ .eof) with
  | nil =>
    rw [behind, List.append_nil] at split
    rw [split]
  | cons stop after =>
    have ends : stop.kind = .eof := by
      have first : stop ∈ (ts.dropWhile (·.kind ≠ .eof)).head? := by rw [behind]; rfl
      simpa using not_of_mem_head_dropWhile stop first
    rw [behind] at split
    conv_rhs => rw [← split, st.run_append_end _ ends]

lemma check_eq_scanTokens {p : Program} (h : parse ts = .ok p) :
    Program.check p = scanTokens (ts.takeWhile (·.kind ≠ .eof)) := by
  obtain ⟨rest, run⟩ := parse_eq_ok_iff_run.mp h
  have before : parse (ts.takeWhile (·.kind ≠ .eof)) = .ok p := by
    refine parse_eq_ok_iff_run.mpr ⟨_, Prod.ext ?_ rfl⟩
    rw [Parse.State.run_takeWhile, run]
  have noEnd : ∀ t ∈ ts.takeWhile (·.kind ≠ .eof), t.kind ≠ .eof := by
    intro t ht
    simpa using List.mem_takeWhile_imp ht
  exact (scanTokens_of_statements (statements_of_parse noEnd before)).symm

lemma forall₂_takeWhile (alike : List.Forall₂ Token.Alike ts us) :
    List.Forall₂ Token.Alike (ts.takeWhile (·.kind ≠ .eof)) (us.takeWhile (·.kind ≠ .eof)) := by
  induction alike with
  | nil => exact .nil
  | @cons x y ts us first _ ih =>
    by_cases h : x.kind = .eof
    · simp [h, ← first.1]
    · have h' : y.kind ≠ .eof := first.1 ▸ h
      rw [List.takeWhile_cons_of_pos (by simpa using h),
        List.takeWhile_cons_of_pos (by simpa using h')]
      exact .cons first ih

lemma ScopeAlike.mono {vs ws : List Token} {a b : Except Violation Table}
    (h : ScopeAlike ts us a b) (left : ts <+: vs) (right : us <+: ws) : ScopeAlike vs ws a b := by
  have keep {xs ys : List Token} (h : xs <+: ys) {i : Nat} {t : Token} (at' : xs[i]? = some t) :
      ys[i]? = some t := by
    obtain ⟨bound, rfl⟩ := List.getElem?_eq_some_iff.mp at'
    exact List.prefix_iff_getElem?.mp h i bound
  cases h with
  | ok tables => exact .ok tables
  | error kind name here there => exact .error kind name (keep left here) (keep right there)

/-- The checks of trees stop where the readings stopped. -/
lemma check_alike {p q : Program} (alike : List.Forall₂ Token.Alike ts us)
    (hp : parse ts = .ok p) (hq : parse us = .ok q) :
    ScopeAlike ts us (Program.check p) (Program.check q) := by
  rw [check_eq_scanTokens hp, check_eq_scanTokens hq]
  exact (scanTokens_alike (forall₂_takeWhile alike)).mono (List.takeWhile_prefix _)
    (List.takeWhile_prefix _)

end Tokens

/-! Code. -/

/-- The code is the same up to the lines of the statements left out. -/
structure Code.Alike (c d : Code) : Prop where
  instructions : c.instructions = d.instructions
  omissions : c.omissions.map Omission.statement = d.omissions.map Omission.statement
  temporaries : c.temporaries = d.temporaries
  fallbacks : c.fallbacks = d.fallbacks
  digest : c.digest = d.digest

lemma lower_alike {p q : Program} (tree : Stmt.unplacedAll p = Stmt.unplacedAll q) :
    (Program.lower p).Alike (Program.lower q) := by
  have code : (Program.lower p).unplaced = (Program.lower q).unplaced := by
    rw [← Program.lower_unplacedAll, tree, Program.lower_unplacedAll]
  obtain ⟨instructions, omissions, temporaries, fallbacks⟩ := Code.mk.inj code
  have statements := congrArg (List.map Omission.statement) omissions
  rw [List.map_map, List.map_map] at statements
  refine ⟨instructions, statements, temporaries, fallbacks, ?_⟩
  rw [Code.digest, Code.digest, Code.text, Code.text, instructions]

/-- Both lists are read, as programs that differ in places only. -/
structure ReadAlike (ts us : List Token) (p q : Program) : Prop where
  first : parse ts = .ok p
  second : parse us = .ok q
  tree : Stmt.unplacedAll p = Stmt.unplacedAll q
  source : Program.source p = Program.source q
  scope : ScopeAlike ts us (Program.check p) (Program.check q)
  code : (Program.lower p).Alike (Program.lower q)

lemma readAlike_or_refusedAlike {ts us : List Token} (alike : List.Forall₂ Token.Alike ts us) :
    (∃ p q, ReadAlike ts us p q) ∨ ∃ i e f, RefusedAlike ts us i e f := by
  rcases parse_alike alike with ⟨p, q, first, second, tree⟩ | refused
  · have source : Program.source p = Program.source q := by
      rw [← Program.source_unplacedAll p, tree, Program.source_unplacedAll]
    exact Or.inl ⟨p, q, first, second, tree, source, check_alike alike first second,
      lower_alike tree⟩
  · exact Or.inr refused

/-! Sources. -/

/-- The sources are cut into the same tokens and strays, with other blanks between them. -/
def Respaced (a b : Text) : Prop :=
  ∃ ps qs, Cut a ps ∧ Cut b qs ∧
    List.Forall₂ Token.Alike (ps.filterMap Piece.item?) (qs.filterMap Piece.item?)

section Sources

variable {rest : Text}

lemma spelled_of_leads {p : Position} {piece : Piece} (h : piece.Leads p rest) :
    spelled (piece.text ++ rest) =
      (piece.item?.toList).map Token.unplaced ++ spelled rest := by
  rw [← map_unplaced_tokensFrom p, h.detaches.tokens, List.map_append, map_unplaced_tokensFrom]

/-- What a piece adds to the stream is the same wherever it stands, up to places. -/
lemma spelled_of_fits {piece : Piece} (fits : piece.Fits rest) :
    spelled (piece.text ++ rest) =
      (piece.item?.toList).map Token.unplaced ++ spelled rest := by
  cases piece with
  | blanks w =>
    have leads : Piece.Leads .start rest (.blanks w) := fits.leads (by simp [Piece.item?])
    exact spelled_of_leads leads
  | token t =>
    have leads : Piece.Leads .start rest (.token ⟨t.kind, t.lexeme, 1, 1⟩) :=
      Piece.Fits.leads fits (by simp [Piece.item?, Position.start])
    have moved := spelled_of_leads leads
    exact moved
  | stray t =>
    have leads : Piece.Leads .start rest (.stray ⟨t.kind, t.lexeme, 1, 1⟩) :=
      Piece.Fits.leads fits (by simp [Piece.item?, Position.start])
    have moved := spelled_of_leads leads
    exact moved

/-- The pieces of a cut determine the stream, up to places. -/
lemma Cut.spelled_eq {source : Text} {pieces : List Piece} (h : Cut source pieces) :
    spelled source = (pieces.filterMap Piece.item?).map Token.unplaced := by
  induction h with
  | nil => rfl
  | @cons piece rest pieces fits _ ih =>
    rw [spelled_of_fits fits, ih, List.filterMap_cons]
    cases piece.item? <;> rfl

end Sources

section Compiling

variable {a b : Text}

/-- Every source has a cut, so sources with alike streams differ in their blanks. -/
lemma respaced_iff :
    Respaced a b ↔ List.Forall₂ Token.Alike (Source.stream a) (Source.stream b) := by
  constructor
  · rintro ⟨ps, qs, cut, cut', alike⟩
    refine forall₂_alike_iff.mpr (cut.spelled_eq.trans ?_)
    rw [forall₂_alike_iff.mp alike]
    exact cut'.spelled_eq.symm
  · intro alike
    obtain ⟨ps, cut, items⟩ := exists_cut_of_tokensFrom .start a
    obtain ⟨qs, cut', items'⟩ := exists_cut_of_tokensFrom .start b
    refine ⟨ps, qs, cut, cut', ?_⟩
    rw [← items, ← items']
    exact alike

instance (a b : Text) : Decidable (Respaced a b) := decidable_of_iff' _ respaced_iff

lemma forall₂_filter_kind {ts us : List Token} (test : Kind → Bool)
    (alike : List.Forall₂ Token.Alike ts us) :
    List.Forall₂ Token.Alike (ts.filter (test ·.kind)) (us.filter (test ·.kind)) := by
  refine List.rel_filter (fun t u same => ?_) alike
  dsimp only
  rw [same.1]

lemma readTokens_alike (policy : Policy) (h : Respaced a b) :
    (∃ ts us skipped skipped', readTokens policy a = .ok (ts, skipped) ∧
      readTokens policy b = .ok (us, skipped') ∧ List.Forall₂ Token.Alike ts us) ∨
    ∃ e f, readTokens policy a = .error e ∧ readTokens policy b = .error f := by
  have strays := forall₂_filter_kind (fun k => decide (k = .unrecognized)) (respaced_iff.mp h)
  have tokens := forall₂_filter_kind (fun k => decide (k ≠ .unrecognized)) (respaced_iff.mp h)
  rcases readTokens_cases policy a with ⟨clean, read⟩ | ⟨t, others, rejects, here, read⟩
  · have clean' : policy.rejects → (Source.stream b).filter (·.kind = .unrecognized) = [] := by
      intro rejects
      rwa [clean rejects, List.forall₂_nil_left_iff] at strays
    exact Or.inl ⟨_, _, _, _, read, readTokens_of_clean clean', tokens⟩
  · rw [here, List.forall₂_cons_left_iff] at strays
    obtain ⟨u, us, _, _, there⟩ := strays
    exact Or.inr ⟨_, _, read, readTokens_of_stray rejects there⟩

/-- Both sources are compiled to the same code, or refused by the same stage. -/
def CompiledAlike (options : Options) (a b : Text) : Prop :=
  (∃ c d, compile options a = .ok c ∧ compile options b = .ok d ∧ c.code.Alike d.code) ∨
    ∃ e f, compile options a = .error e ∧ compile options b = .error f ∧ e.stage = f.stage

lemma Respaced.compiledAlike (options : Options) (h : Respaced a b) :
    CompiledAlike options a b := by
  rcases readTokens_alike options.policy h with
    ⟨ts, us, _, _, here, there, alike⟩ | ⟨e, f, here, there⟩
  · rcases readAlike_or_refusedAlike alike with ⟨p, q, read⟩ | ⟨i, e, f, refused⟩
    · have scope : ScopeAlike ts us (checkScope options.scope ts p)
          (checkScope options.scope us q) := by
        cases options.scope with
        | tree => exact read.scope
        | tokens => exact scanTokens_alike alike
      simp only [CompiledAlike, compile, readProgram, here, there, read.first, read.second]
      generalize checkScope options.scope ts p = result at scope
      generalize checkScope options.scope us q = result' at scope
      cases scope with
      | ok tables => exact Or.inl ⟨_, _, rfl, rfl, read.code⟩
      | error kind name _ _ => exact Or.inr ⟨_, _, rfl, rfl, rfl⟩
    · have first : parse ts = .error e := congrArg Prod.fst refused.first
      have second : parse us = .error f := congrArg Prod.fst refused.second
      simp only [CompiledAlike, compile, readProgram, here, there, first, second]
      exact Or.inr ⟨_, _, rfl, rfl, rfl⟩
  · simp only [CompiledAlike, compile, readProgram, here, there]
    exact Or.inr ⟨_, _, rfl, rfl, rfl⟩

end Compiling

/-- Places matter to messages only: on token lists that agree in kinds and lexemes all stages
come to the same result, and so do compilations of sources that differ in their blanks. -/
theorem outcomes_alike :
    (∀ ts us : List Token, List.Forall₂ Token.Alike ts us →
      ((∃ p q, ReadAlike ts us p q) ∨ ∃ i e f, RefusedAlike ts us i e f) ∧
        ScopeAlike ts us (scanTokens ts) (scanTokens us)) ∧
    ∀ (options : Options) (a b : Text), Respaced a b → CompiledAlike options a b :=
  ⟨fun _ _ alike => ⟨readAlike_or_refusedAlike alike, scanTokens_alike alike⟩,
    fun options _ _ respaced => respaced.compiledAlike options⟩

/-- A source with as few blanks as it can have, and a stray character. -/
def dense : Text :=
  "int x;x=1;if(x<2)\x7bx=x+3*x;\x7d@print(x);"

/-- The same tokens and strays on many lines. -/
def airy : Text :=
  "int\n  x ;\n x = 1; if ( x < 2 )\n\x7b\n\tx = x + 3 * x ;\n\x7d\n @ print\n(x) ; \n"

/-- A declaration that does not end, at places that no source has. -/
def halfDeclared (line : Int) : List Token :=
  [⟨.keyword, "int", line, line⟩, ⟨.identifier, "x", line, 0⟩, ⟨.assignOp, "=", -line, 5⟩]

theorem outcomes_alike_dense : List.Forall₂ Token.Alike (halfDeclared 1) (halfDeclared 7) ∧
    (∃ i e f, RefusedAlike (halfDeclared 1) (halfDeclared 7) i e f) ∧ Respaced dense airy ∧
    ∃ c d, compile ⟨.skip, .tree⟩ dense = .ok c ∧ compile ⟨.skip, .tree⟩ airy = .ok d ∧
      c.code.Alike d.code ∧ c.code ≠ d.code := by
  have alike : List.Forall₂ Token.Alike (halfDeclared 1) (halfDeclared 7) := by decide
  have respaced : Respaced dense airy := by decide +kernel
  obtain ⟨e, refused⟩ : ∃ e, parse (halfDeclared 1) = .error e := ⟨_, rfl⟩
  obtain ⟨c, here, lines⟩ : ∃ c, compile ⟨.skip, .tree⟩ dense = .ok c ∧
      c.code.omissions.map Omission.line = [1, 1] := by decide +kernel
  obtain ⟨d, there, lines'⟩ : ∃ d, compile ⟨.skip, .tree⟩ airy = .ok d ∧
      d.code.omissions.map Omission.line = [3, 7] := by decide +kernel
  refine ⟨alike, ?_, respaced, c, d, here, there, ?_, ?_⟩
  · rcases (outcomes_alike.1 _ _ alike).1 with ⟨p, q, read⟩ | both
    · cases refused.symm.trans read.first
    · exact both
  · rcases outcomes_alike.2 ⟨.skip, .tree⟩ dense airy respaced with
      ⟨c', d', here', there', codes⟩ | ⟨e, f, here', _⟩
    · cases here.symm.trans here'
      cases there.symm.trans there'
      exact codes
    · cases here.symm.trans here'
  · intro same
    rw [same, lines'] at lines
    cases lines

end ThreeAddress
