import Mathlib.Tactic.Lemma
import ThreeAddress.Settings

/-!
# Precedence of settings

For each key at most one text counts: that of the environment, or that of the file if the
environment has none. A setting is what the text of its key means, and its default if no text
counts. The rules of `Loads` say this for a whole load, with the two ways in which it fails, and
`load` comes to what they say and to nothing else.
-/

namespace ThreeAddress

/-- The spellings of a switch that is on, and of one that is off. -/
def switchNames : Bool → List Text
  | true => ["1", "t", "T", "TRUE", "true", "True"]
  | false => ["0", "f", "F", "FALSE", "false", "False"]

lemma switch?_eq_some_iff {t : Text} {b : Bool} : switch? t = some b ↔ t ∈ switchNames b := by
  constructor
  · intro h
    rw [switch?] at h
    split at h
    next on =>
      cases h
      exact List.contains_iff_mem.mp on
    next =>
      split at h
      next off =>
        cases h
        exact List.contains_iff_mem.mp off
      next => cases h
  · have all : ∀ b, ∀ t ∈ switchNames b, switch? t = some b := by decide
    exact all b t

lemma parseSwitch_of_mem {t : Text} {b : Bool} (h : t ∈ switchNames b) : parseSwitch t = .ok b := by
  rw [parseSwitch, switch?_eq_some_iff.mpr h]

lemma parseSwitch_of_forall_notMem {t : Text} (h : ∀ b, t ∉ switchNames b) :
    parseSwitch t = .error (.switch t) := by
  have none : switch? t = none :=
    Option.eq_none_iff_forall_ne_some.mpr fun b hb => h b (switch?_eq_some_iff.mp hb)
  rw [parseSwitch, none]

lemma ScopeMode.parse_name (m : ScopeMode) : parse m.name = .ok m := by
  cases m <;> rfl

lemma ScopeMode.name_injective {m m' : ScopeMode} (same : m.name = m'.name) : m = m' := by
  have parsed := parse_name m
  rw [same, parse_name m'] at parsed
  exact (Except.ok.inj parsed).symm

lemma ScopeMode.parse_of_forall_ne {t : Text} (h : ∀ m : ScopeMode, m.name ≠ t) :
    parse t = .error (.scope t) := by
  rw [parse, ofName?, if_neg fun tree => h .tree tree.symm,
    if_neg fun tokens => h .tokens tokens.symm]

namespace Key

/-- The settings that a key can have. -/
abbrev Value : Key → Type
  | lexPolicy => Policy
  | scopeMode => ScopeMode
  | showTokens => Bool

/-- What the texts of a key mean. White space around them does not matter, and in the name of a
policy letter case does not matter either. -/
inductive Means : (k : Key) → Text → k.Value → Prop where
  | skip {t : Text} (h : (t.trim isWhiteSpace).lower = utf8 "skip") : Means lexPolicy t Policy.skip
  | reject {t : Text} (h : (t.trim isWhiteSpace).lower = utf8 "reject") :
      Means lexPolicy t Policy.reject
  | mode {t : Text} {m : ScopeMode} (h : m.name = t.trim isWhiteSpace) : Means scopeMode t m
  | switch {t : Text} {b : Bool} (h : t.trim isWhiteSpace ∈ switchNames b) : Means showTokens t b

/-- The error about a text without meaning. Only a policy is quoted with the white space. -/
def complaint : Key → Text → ValueError
  | lexPolicy, t => .policy t
  | scopeMode, t => .scope (t.trim isWhiteSpace)
  | showTokens, t => .switch (t.trim isWhiteSpace)

/-- Reads a text of the key. -/
def parse : (k : Key) → Text → Except ValueError k.Value
  | lexPolicy, t => Policy.parse t
  | scopeMode, t => ScopeMode.parse (t.trim isWhiteSpace)
  | showTokens, t => parseSwitch (t.trim isWhiteSpace)

variable {k : Key} {t : Text}

lemma parse_of_means {v : k.Value} (h : k.Means t v) : k.parse t = .ok v := by
  cases h with
  | skip h => exact if_pos h
  | reject h =>
    rw [parse, Policy.parse, h]
    rfl
  | mode h =>
    rw [parse, ← h]
    exact ScopeMode.parse_name _
  | switch h => exact parseSwitch_of_mem h

lemma parse_of_forall_not_means (h : ∀ v, ¬ k.Means t v) : k.parse t = .error (k.complaint t) := by
  cases k with
  | lexPolicy =>
    rw [parse, Policy.parse, if_neg fun skip => h _ (.skip skip),
      if_neg fun reject => h _ (.reject reject)]
    rfl
  | scopeMode => exact ScopeMode.parse_of_forall_ne fun m hm => h m (.mode hm)
  | showTokens => exact parseSwitch_of_forall_notMem fun b hb => h b (.switch hb)

lemma Means.unique {v v' : k.Value} (h : k.Means t v) (h' : k.Means t v') : v = v' :=
  Except.ok.inj ((parse_of_means h).symm.trans (parse_of_means h'))

end Key

namespace Settings

/-- The setting of a key. -/
def get (s : Settings) : (k : Key) → k.Value
  | .lexPolicy => s.policy
  | .scopeMode => s.scope
  | .showTokens => s.showTokens

/-- The settings that have a setting for each key. -/
def ofGet (v : (k : Key) → k.Value) : Settings := ⟨v .lexPolicy, v .scopeMode, v .showTokens⟩

lemma get_ofGet (v : (k : Key) → k.Value) (k : Key) : (ofGet v).get k = v k := by
  cases k <;> rfl

end Settings

/-- The setting that a text makes, and the default without one. -/
def Key.Sets (k : Key) : Option Text → k.Value → Prop
  | none, v => v = Settings.default.get k
  | some t, v => k.Means t v

namespace Settings

variable {k : Key} {value : Key → Option Text} {t : Text} {s : Settings}

lemma valueOf_of_sets {text : Option Text} {v : k.Value} (h : k.Sets text v) :
    valueOf k (default.get k) k.parse text = .ok v := by
  cases text with
  | none =>
    cases h
    rfl
  | some t => rw [valueOf, Key.parse_of_means h]

lemma valueOf_of_forall_not_means (h : ∀ v, ¬ k.Means t v) :
    valueOf k (default.get k) k.parse (some t) = .error (.invalid k (k.complaint t)) := by
  rw [valueOf, Key.parse_of_forall_not_means h]

/-- The keys are asked for their settings in order. -/
lemma ofValues_eq (value : Key → Option Text) : ofValues value = do
    let policy ← valueOf .lexPolicy (default.get .lexPolicy) Key.lexPolicy.parse (value .lexPolicy)
    let scope ← valueOf .scopeMode (default.get .scopeMode) Key.scopeMode.parse (value .scopeMode)
    let showTokens ←
      valueOf .showTokens (default.get .showTokens) Key.showTokens.parse (value .showTokens)
    return { policy, scope, showTokens } := rfl

lemma ofValues_of_sets (h : ∀ k : Key, k.Sets (value k) (s.get k)) : ofValues value = .ok s := by
  rw [ofValues_eq, valueOf_of_sets (h _), valueOf_of_sets (h _), valueOf_of_sets (h _)]
  rfl

lemma ofValues_of_invalid {before after : List Key} (order : Key.all = before ++ k :: after)
    (earlier : ∀ j ∈ before, ∃ v, j.Sets (value j) v) (text : value k = some t)
    (meaningless : ∀ v, ¬ k.Means t v) :
    ofValues value = .error (.invalid k (k.complaint t)) := by
  have fails := valueOf_of_forall_not_means meaningless
  rw [← text] at fails
  rw [ofValues_eq]
  -- There are three keys, so at most two of them stand before the one at fault.
  match before, order with
  | [], order =>
    cases order
    rw [fails]
    rfl
  | [_], order =>
    cases order
    obtain ⟨_, first⟩ := earlier .lexPolicy (by simp)
    rw [valueOf_of_sets first, fails]
    rfl
  | [_, _], order =>
    cases order
    obtain ⟨_, first⟩ := earlier .lexPolicy (by simp)
    obtain ⟨_, second⟩ := earlier .scopeMode (by simp)
    rw [valueOf_of_sets first, valueOf_of_sets second, fails]
    rfl
  | _ :: _ :: _ :: _, order => simp [Key.all] at order

end Settings

section Loading

open Settings

/-- The text that counts for a key: that of the environment if it has one, else that of the file.
A file that could not be read has none. -/
def effective (environment : Key → Option Text) (outcome : Except BindingsError EnvFile.Bindings)
    (k : Key) : Option Text :=
  match environment k, outcome with
  | some t, _ => some t
  | none, .ok bindings => bindings.lookup k.name
  | none, .error _ => none

/-- No file was named, and the default one does not exist. -/
def DefaultMissing (named : Text) (e : BindingsError) : Prop :=
  named = [] ∧ ∃ path, e = .file (.missing path)

/-- The file was read, or need not be there. -/
def Usable (named : Text) (outcome : Except BindingsError EnvFile.Bindings) : Prop :=
  ∀ e, outcome = .error e → DefaultMissing named e

/-- What a load comes to. -/
inductive Loads (named : Text) (outcome : Except BindingsError EnvFile.Bindings)
    (environment : Key → Option Text) : Except SettingsError Settings → Prop where
  /-- The file cannot be read, and had to be. -/
  | unread {e : BindingsError} (failed : outcome = .error e) (needed : ¬ DefaultMissing named e) :
      Loads named outcome environment
        (.error (.unusable (if named = [] then utf8 ".env" else named) e))
  /-- The text of a key means nothing, and no key before it is at fault. -/
  | invalid {before after : List Key} {k : Key} {t : Text} (usable : Usable named outcome)
      (order : [Key.lexPolicy, .scopeMode, .showTokens] = before ++ k :: after)
      (earlier : ∀ j ∈ before, ∃ v, j.Sets (effective environment outcome j) v)
      (text : effective environment outcome k = some t) (meaningless : ∀ v, ¬ k.Means t v) :
      Loads named outcome environment (.error (.invalid k (k.complaint t)))
  /-- Every key makes its setting. -/
  | settled {s : Settings} (usable : Usable named outcome)
      (sets : ∀ k : Key, k.Sets (effective environment outcome k) (s.get k)) :
      Loads named outcome environment (.ok s)

variable {named : Text} {outcome : Except BindingsError EnvFile.Bindings}
  {environment : Key → Option Text}

lemma fileBindings_of_error {e : BindingsError} (needed : ¬ DefaultMissing named e) :
    fileBindings named (.error e) =
      .error (.unusable (if named = [] then utf8 ".env" else named) e) := by
  have path : path named = if named = [] then utf8 ".env" else named := by cases named <;> rfl
  rw [← path, fileBindings]
  intro missing unnamed absent
  exact needed ⟨unnamed, missing, absent⟩

lemma load_of_unread {e : BindingsError} (failed : outcome = .error e)
    (needed : ¬ DefaultMissing named e) :
    load named outcome environment =
      .error (.unusable (if named = [] then utf8 ".env" else named) e) := by
  rw [load, failed, fileBindings_of_error needed]

/-- A file that serves is asked for the texts that count, and for nothing else. -/
lemma load_of_usable (usable : Usable named outcome) :
    load named outcome environment = ofValues (effective environment outcome) := by
  cases outcome with
  | ok bindings =>
    rw [load, fileBindings]
    refine congrArg ofValues (funext fun k => ?_)
    cases set : environment k <;> simp [effective, set]
  | error e =>
    obtain ⟨rfl, path, rfl⟩ := usable e rfl
    rw [load, fileBindings]
    refine congrArg ofValues (funext fun k => ?_)
    cases set : environment k <;> simp [effective, set]

lemma load_of_loads {r : Except SettingsError Settings} (h : Loads named outcome environment r) :
    load named outcome environment = r := by
  cases h with
  | unread failed needed => exact load_of_unread failed needed
  | invalid usable order earlier text meaningless =>
    rw [load_of_usable usable]
    exact ofValues_of_invalid order earlier text meaningless
  | settled usable sets =>
    rw [load_of_usable usable]
    exact ofValues_of_sets sets

/-- The rules leave no case out. -/
lemma exists_loads (named : Text) (outcome : Except BindingsError EnvFile.Bindings)
    (environment : Key → Option Text) : ∃ r, Loads named outcome environment r := by
  classical
  by_cases usable : Usable named outcome
  -- A key without any setting is at fault, and the first such key is the one that is named.
  · cases first : Key.all.find? fun k => ¬ ∃ v, k.Sets (effective environment outcome k) v with
    | none =>
      have all : ∀ k : Key, ∃ v, k.Sets (effective environment outcome k) v := by
        intro k
        simpa using List.find?_eq_none.mp first k (by cases k <;> decide)
      obtain ⟨v, sets⟩ := Classical.axiomOfChoice all
      refine ⟨.ok (ofGet v), .settled usable ?_⟩
      intro k
      rw [get_ofGet]
      exact sets k
    | some k =>
      obtain ⟨fails, before, after, order, earlier⟩ := List.find?_eq_some_iff_append.mp first
      simp only [decide_eq_true_eq, Bool.not_eq_true', decide_eq_false_iff_not,
        Classical.not_not] at fails earlier
      cases text : effective environment outcome k with
      | none => exact absurd ⟨_, by rw [text]; exact rfl⟩ fails
      | some t =>
        rw [text] at fails
        exact ⟨_, .invalid usable order earlier text fun v h => fails ⟨v, h⟩⟩
  · obtain ⟨e, h⟩ := Classical.not_forall.mp usable
    obtain ⟨failed, needed⟩ := Classical.not_imp.mp h
    exact ⟨_, .unread failed needed⟩

/-- A load comes to what the rules say. -/
lemma load_eq_iff_loads {r : Except SettingsError Settings} :
    load named outcome environment = r ↔ Loads named outcome environment r := by
  constructor
  · rintro rfl
    obtain ⟨r, loads⟩ := exists_loads named outcome environment
    rw [load_of_loads loads]
    exact loads
  · exact load_of_loads

lemma Loads.get_eq {s : Settings} (h : Loads named outcome environment (.ok s)) (k : Key) :
    k.Sets (effective environment outcome k) (s.get k) := by
  cases h with
  | settled _ sets => exact sets k

lemma Key.Sets.unique {k : Key} {text : Option Text} {v v' : k.Value} (h : k.Sets text v)
    (h' : k.Sets text v') : v = v' := by
  cases text with
  | none => exact Eq.trans h (Eq.symm h')
  | some t => exact Key.Means.unique h h'

/-- Settings follow the order of precedence. A load comes to what the rules say of the texts that
count. It fails at the file if and only if the file had to be read and was not. Otherwise it fails
if and only if a text that counts means nothing. Its error names the file or the key. A setting
depends on the text of its own key only, and the whole load on nothing but the texts of the keys. -/
theorem load_follows_precedence (named : Text) (outcome : Except BindingsError EnvFile.Bindings)
    (environment : Key → Option Text) :
    (∀ r, load named outcome environment = r ↔ Loads named outcome environment r) ∧
    ((∃ path e, load named outcome environment = .error (.unusable path e)) ↔
      ∃ e, outcome = .error e ∧ ¬ DefaultMissing named e) ∧
    (Usable named outcome → ((∃ err, load named outcome environment = .error err) ↔
      ∃ k t, effective environment outcome k = some t ∧ ∀ v, ¬ k.Means t v)) ∧
    (∀ err, load named outcome environment = .error err →
      (∃ e, outcome = .error e ∧ err.message =
        utf8 "reading " ++ (if named = [] then utf8 ".env" else named) ++ utf8 ": " ++ e.message) ∨
      ∃ k t, effective environment outcome k = some t ∧ (∀ v, ¬ k.Means t v) ∧
        err.message = k.name ++ utf8 ": " ++ (k.complaint t).message) ∧
    ∀ named' outcome' environment',
      (∀ s s', load named outcome environment = .ok s →
        load named' outcome' environment' = .ok s' →
        ∀ k, effective environment outcome k = effective environment' outcome' k →
          s.get k = s'.get k) ∧
      (Usable named outcome → Usable named' outcome' →
        (∀ k, effective environment outcome k = effective environment' outcome' k) →
        load named outcome environment = load named' outcome' environment') := by
  refine ⟨fun r => load_eq_iff_loads, ⟨?_, ?_⟩, fun usable => ⟨?_, ?_⟩, ?_, ?_⟩
  · rintro ⟨path, e, fails⟩
    cases load_eq_iff_loads.mp fails with
    | unread failed needed => exact ⟨e, failed, needed⟩
  · rintro ⟨e, failed, needed⟩
    exact ⟨_, e, load_of_unread failed needed⟩
  · rintro ⟨err, fails⟩
    cases load_eq_iff_loads.mp fails with
    | unread failed needed => exact absurd (usable _ failed) needed
    | invalid _ _ _ text meaningless => exact ⟨_, _, text, meaningless⟩
  · rintro ⟨k, t, text, meaningless⟩
    obtain ⟨r, loads⟩ := exists_loads named outcome environment
    cases r with
    | error err => exact ⟨err, load_of_loads loads⟩
    | ok s =>
      have sets := loads.get_eq k
      rw [text] at sets
      exact absurd sets (meaningless _)
  · intro err fails
    cases load_eq_iff_loads.mp fails with
    | unread failed _ => exact Or.inl ⟨_, failed, rfl⟩
    | invalid _ _ _ text meaningless => exact Or.inr ⟨_, _, text, meaningless, rfl⟩
  · intro named' outcome' environment'
    refine ⟨?_, ?_⟩
    · intro s s' loads loads' k same
      have sets := (load_eq_iff_loads.mp loads).get_eq k
      rw [same] at sets
      exact sets.unique ((load_eq_iff_loads.mp loads').get_eq k)
    · intro usable usable' same
      rw [load_of_usable usable, load_of_usable usable', funext same]

/-- A text without meaning in the file does no harm under one with a meaning in the environment,
and a key that nobody asks for does none at all. -/
theorem load_follows_precedence_overruled :
    load [] (.ok [(Key.lexPolicy.name, "maybe"), (Key.showTokens.name, " F\n"), ("OTHER", "1")])
      (fun k => if k = .lexPolicy then some " Reject" else none) = .ok ⟨.reject, .tree, false⟩ := by
  apply ((load_follows_precedence _ _ _).1 _).mpr
  refine .settled (fun e failed => by cases failed) ?_
  rintro (_ | _ | _)
  · exact .reject (by decide)
  · exact rfl
  · exact .switch (by decide)

end Loading

end ThreeAddress
