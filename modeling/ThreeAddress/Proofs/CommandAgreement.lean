import Mathlib.Tactic.Lemma
import ThreeAddress.Command.Run

/-!
# Commands agree

Each command takes a source to its tokens, to its program or to its code (`Command.reach`). An
error on the way is met by every command that goes at least as far, so commands that are given
the same input fail together and with the same words. What the whole run writes is put together
from what the commands for the tokens and for the code write.
-/

namespace ThreeAddress

/-- The first error that a source meets on the way to its tokens, its program and its code. -/
def errorWithin (options : Options) (source : Text) : Nat → Option CompileError
  | 0 =>
    match readTokens options.policy source with
    | .error e => some (.lexical e)
    | .ok _ => none
  | 1 =>
    match readProgram options.policy source with
    | .error e => some e
    | .ok _ => none
  | _ =>
    match compile options source with
    | .error e => some e
    | .ok _ => none

section Stages

variable {options : Options} {source : Text} {e : CompileError} {m n : Nat}

/-- The next stage passes an error on. -/
lemma errorWithin_succ (h : errorWithin options source n = some e) :
    errorWithin options source (n + 1) = some e := by
  match n with
  | 0 =>
    cases read : readTokens options.policy source with
    | error e' => simpa [errorWithin, readProgram, read] using h
    | ok tokens => simp [errorWithin, read] at h
  | 1 =>
    cases read : readProgram options.policy source with
    | error e' => simpa [errorWithin, compile, read] using h
    | ok parsed => simp [errorWithin, read] at h
  | n + 2 => exact h

lemma errorWithin_of_le (le : m ≤ n) (h : errorWithin options source m = some e) :
    errorWithin options source n = some e := by
  induction le with
  | refl => exact h
  | step _ ih => exact errorWithin_succ ih

/-- The tokens of compiled code are those that were read. -/
lemma readTokens_of_compile {c : Compiled} (h : compile options source = .ok c) :
    readTokens options.policy source = .ok (c.tokens, c.skipped) := by
  cases read : readTokens options.policy source with
  | error e => simp [compile, readProgram, read] at h
  | ok result =>
    obtain ⟨tokens, skipped⟩ := result
    cases parsed : parse tokens with
    | error e => simp [compile, readProgram, read, parsed] at h
    | ok program =>
      cases checked : checkScope options.scope tokens program with
      | error v => simp [compile, readProgram, read, parsed, checked] at h
      | ok table =>
        simp only [compile, readProgram, read, parsed, checked, Except.ok.injEq] at h
        rw [← h]

end Stages

namespace Command

/-- How far a command takes a source: to its tokens, to its program or to its code. -/
def reach : Command → Nat
  | tokens => 0
  | check => 1
  | ast => 1
  | run => 2
  | ir => 2
  | inspect => 2

/-- A command ends with the first error that it meets, and with no other. -/
lemma write_cases (c : Command) (on : Bool) (s : Settings) (source : Text) :
    (∃ e, errorWithin s.options source c.reach = some e ∧ c.write on s source = .error e) ∨
    (errorWithin s.options source c.reach = none ∧
      ∃ written, c.write on s source = .ok written) := by
  have policy : s.options.policy = s.policy := rfl
  cases c with
  | tokens =>
    cases read : readTokens s.policy source with
    | error e => exact Or.inl ⟨.lexical e, by simp [errorWithin, reach, policy, read, write]⟩
    | ok result => exact Or.inr (by simp [errorWithin, reach, policy, read, write])
  | check | ast =>
    cases read : readProgram s.policy source with
    | error e => exact Or.inl ⟨e, by simp [errorWithin, reach, policy, read, write]⟩
    | ok parsed => exact Or.inr (by simp [errorWithin, reach, policy, read, write])
  | run | ir | inspect =>
    cases compiled : ThreeAddress.compile s.options source with
    | error e => exact Or.inl ⟨e, by simp [errorWithin, reach, compiled, write]⟩
    | ok r => exact Or.inr (by simp [errorWithin, reach, compiled, write])

end Command

/-- Command lines, one for each command, that give the commands the same input: a file that can
be read, and settings that load, by whatever flags. -/
structure SameInput (w : World) where
  arguments : Command → List Text
  globals : Command → Globals
  /-- The switches of the commands themselves. -/
  on : Command → Bool
  path : Text
  content : Text
  settings : Settings
  asks : ∀ c, Request.ofArguments (arguments c) = .run (globals c) c (on c) (some path)
  stored : w.stored path = .file content
  loads : ∀ c, w.settings (globals c) = .ok settings

namespace SameInput

variable {w : World} (i : SameInput w)

/-- What a command leaves behind. -/
def out (c : Command) : Output := runProgram w (i.arguments c)

/-- The error that a command meets. -/
def error? (c : Command) : Option CompileError :=
  errorWithin i.settings.options i.content c.reach

lemma out_eq (c : Command) : i.out c =
    match c.write (i.on c) i.settings i.content with
    | .ok written => ⟨0, written.stdout, written.stderr⟩
    | .error e => ⟨1, [], Text.line e.message⟩ := by
  have source : w.source c (some i.path) = .ok i.content := by
    simp [World.source, Stored.read, i.stored]
  rw [out, runProgram, i.asks]
  simp only [Request.perform, World.run, i.loads, source, bind, Except.bind]
  cases c.write (i.on c) i.settings i.content <;> rfl

/-- A command that meets an error writes it and nothing else, any other succeeds. -/
lemma out_cases (c : Command) :
    (∃ e, i.error? c = some e ∧ i.out c = ⟨1, [], Text.line e.message⟩) ∨
    (i.error? c = none ∧ (i.out c).exit = 0) := by
  rcases c.write_cases (i.on c) i.settings i.content with
    ⟨e, error, fails⟩ | ⟨none, written, succeeds⟩
  · refine Or.inl ⟨e, error, ?_⟩
    rw [out_eq, fails]
  · refine Or.inr ⟨none, ?_⟩
    rw [out_eq, succeeds]

lemma exists_error {c : Command} (fails : (i.out c).exit ≠ 0) :
    ∃ e, i.error? c = some e ∧ i.out c = ⟨1, [], Text.line e.message⟩ := by
  rcases i.out_cases c with failed | ⟨_, succeeds⟩
  · exact failed
  · exact absurd succeeds fails

lemma out_of_error {c : Command} {e : CompileError} (h : i.error? c = some e) :
    i.out c = ⟨1, [], Text.line e.message⟩ := by
  rcases i.out_cases c with ⟨e', error, out⟩ | ⟨none, _⟩
  · cases error.symm.trans h
    exact out
  · cases none.symm.trans h

/-- The whole run writes what the commands for the tokens and for the code write, with fixed lines
before and between. -/
lemma stdout_run (tokens : i.on .tokens = false) (ir : i.on .ir = false)
    (succeeds : (i.out .run).exit = 0) : (i.out .run).stdout =
      (if i.settings.showTokens then Text.line "Lexical Tokens:" ++ (i.out .tokens).stdout
        else []) ++
      Text.lines ["Syntax Analysis: Passed.", "Semantic Analysis: Passed.", [],
        "Intermediate Code:"] ++ (i.out .ir).stdout := by
  cases compiled : compile i.settings.options i.content with
  | error e =>
    simp [out_eq, Command.write, compiled] at succeeds
  | ok r =>
    have read : readTokens i.settings.policy i.content = .ok (r.tokens, r.skipped) :=
      readTokens_of_compile compiled
    have code : (i.out .ir).stdout = r.code.text := by
      simp [out_eq, Command.write, compiled, ir]
    have listing : (i.out .tokens).stdout = Token.listing r.tokens := by
      simp [out_eq, Command.write, read, tokens]
    rw [code, listing]
    simp only [out_eq, Command.write, compiled]
    rfl

end SameInput

/-- Commands that are given the same input agree. A command that fails has written its error and
nothing else, and every command that takes the source at least as far leaves the same behind. If
the whole run succeeds, its text is put together from those of the tokens and of the code. -/
theorem commands_agree {w : World} (i : SameInput w) :
    (∀ c, (i.out c).exit ≠ 0 →
      ∃ message, i.out c = ⟨1, [], Text.line message⟩) ∧
    (∀ c d, c.reach ≤ d.reach → (i.out c).exit ≠ 0 → i.out d = i.out c) ∧
    (i.on .tokens = false → i.on .ir = false → (i.out .run).exit = 0 →
      (i.out .run).stdout =
        (if i.settings.showTokens then Text.line "Lexical Tokens:" ++ (i.out .tokens).stdout
          else []) ++
        Text.lines ["Syntax Analysis: Passed.", "Semantic Analysis: Passed.", [],
          "Intermediate Code:"] ++ (i.out .ir).stdout) := by
  refine ⟨?_, ?_, i.stdout_run⟩
  · intro c fails
    obtain ⟨e, _, out⟩ := i.exists_error fails
    exact ⟨e.message, out⟩
  · intro c d further fails
    obtain ⟨e, error, out⟩ := i.exists_error fails
    have later : i.error? d = some e := errorWithin_of_le further error
    rw [out, i.out_of_error later]

/-- A world with one file and no settings. -/
def World.single (path content : Text) : World :=
  ⟨fun p => if p = path then .file content else .missing, fun _ => none⟩

/-- The commands on the only file there is, in strict reading. -/
def SameInput.strict (content : Text) : SameInput (.single "a" content) where
  arguments c := ["--strict", c.name, "a"]
  globals _ := ⟨[], some true, none⟩
  on _ := false
  path := "a"
  content := content
  settings := ⟨.reject, .tree, true⟩
  asks c := by cases c <;> decide +kernel
  stored := rfl
  loads _ := rfl

/-- A name that is not declared stops the commands that go on to the code. A program without
faults goes through all of them. -/
theorem commands_agree_undeclared :
    ((SameInput.strict "int x; x = y;").out .check).exit = 0 ∧
    (SameInput.strict "int x; x = y;").out .inspect =
      (SameInput.strict "int x; x = y;").out .run ∧
    ((SameInput.strict "int x; x = 1;").out .run).stdout =
      Text.line "Lexical Tokens:" ++ ((SameInput.strict "int x; x = 1;").out .tokens).stdout ++
      Text.lines ["Syntax Analysis: Passed.", "Semantic Analysis: Passed.", [],
        "Intermediate Code:"] ++ ((SameInput.strict "int x; x = 1;").out .ir).stdout := by
  refine ⟨by decide +kernel, ?_, ?_⟩
  · exact (commands_agree (.strict "int x; x = y;")).2.1 .run .inspect (by decide)
      (by decide +kernel)
  · exact (commands_agree (.strict "int x; x = 1;")).2.2 rfl rfl (by decide +kernel)

end ThreeAddress
