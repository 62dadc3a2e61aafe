import ThreeAddress.Proofs.Alike
import ThreeAddress.Proofs.PolicyAgreement

/-!
# Blanks part a source

Behind a blank reading begins anew, whatever stands before it: a word or a number that is not
finished, a cut-off character, or further blanks (`Source.tokensFrom_append_blank`). So a source
can be read line by line, each line from its first column on. And the tokens of a source are all
that is needed to write one that reads the same: the lexemes with blanks between them.
-/

namespace ThreeAddress

/-! A blank behind a text changes nothing in it. -/

/-- A byte of ASCII and what follows it do not complete the first character of a text. -/
lemma IsFirst.append_ascii {w r : Text} {b : UInt8} (h : IsFirst w r) (ascii : b.toNat < 0x80)
    (rest : Text) : IsFirst w (r ++ b :: rest) := by
  rcases h with character | ⟨a, rfl, none⟩
  · exact Or.inl character
  · refine Or.inr ⟨a, rfl, ?_⟩
    intro u character within
    have there := List.prefix_append (a :: r) (b :: rest)
    rcases List.prefix_or_prefix_of_prefix within there with short | ⟨v, rfl⟩
    · exact none u character short
    · have next : v <+: b :: rest := (List.prefix_append_right_inj (a :: r)).mp within
      cases v with
      | nil => exact none _ character (by simp)
      | cons c v =>
        -- `b` would be one of several bytes of a character.
        obtain ⟨rfl, _⟩ := List.cons_prefix_cons.mp next
        have long : 1 < (a :: r ++ c :: v).length := by
          simp only [List.length_append, List.length_cons]
          omega
        have large := character.toNat_ge long c (by simp)
        omega

lemma isBlank_newline : isBlank Text.newline := rfl

section Blank

variable {b : UInt8} {p : Position} {r : Text}

/-- A token ends where a blank or nothing follows. -/
lemma Kind.Admits.fits_of_blank {t : Token} (h : t.kind.Admits t.lexeme)
    (blank : ∀ b ∈ r.head?, isBlank b) : (Piece.token t).Fits r :=
  ⟨h, fun b hb => t.kind.not_goesOn_of_isBlank (blank b hb)⟩

/-- With a blank behind all that is there, the first piece is read as before. -/
lemma Piece.Leads.detaches_blank {piece : Piece} (h : piece.Leads p r) (blank : isBlank b)
    (rest : Text) : Source.Detaches p piece.text piece.item?.toList (r ++ b :: rest) := by
  obtain ⟨fits, place, _⟩ := h
  cases piece with
  | blanks w =>
    -- The run may become longer, but what is added to it makes no token either.
    exact Source.detaches_ascii (fun c hc => (of_isBlank (fits.2.1 c hc)).1)
      (Source.tokensFrom_blanks p fits.2.1 _)
  | token t =>
    have before : (token t).Fits (r ++ b :: rest) := by
      cases r with
      | nil => exact fits.1.fits_of_blank (by simpa using blank)
      | cons c r => exact ⟨fits.1, fits.2⟩
    exact (before.leads place).detaches
  | stray t =>
    obtain ⟨_, stray, _⟩ := fits.isStray_stray
    obtain ⟨line, column⟩ := place t rfl
    have item : (Piece.stray t).item?.toList =
        [⟨.unrecognized, t.lexeme, p.line, p.column⟩] := by
      rw [← fits.1, ← line, ← column]
      rfl
    rw [item]
    exact Source.detaches_stray (fits.2.1.append_ascii (of_isBlank blank).1 rest) stray

lemma Text.glyphs_append_blank (a : Text) (blank : isBlank b) (rest : Text) :
    (a ++ b :: rest).glyphs = a.glyphs ++ .byte b :: rest.glyphs := by
  induction Position.start, a using Piece.induction with
  | nil p =>
    have ascii : ∀ c ∈ [b], c.toNat < 0x80 := by simpa using (of_isBlank blank).1
    exact Text.glyphs_ascii ascii rest
  | cons p piece r leads ih =>
    rw [List.append_assoc, (leads.detaches_blank blank rest).glyphs, ih, leads.detaches.glyphs,
      List.append_assoc]

/-- Behind a blank reading begins anew, whatever stands before it. -/
lemma Source.tokensFrom_append_blank (p : Position) (a : Text) (blank : isBlank b) (rest : Text) :
    tokensFrom p (a ++ b :: rest) =
      tokensFrom p a ++ tokensFrom ((p.after a.glyphs).step (.byte b)) rest := by
  induction p, a using Piece.induction with
  | nil p => exact tokensFrom_blank p blank rest
  | cons p piece r leads ih =>
    rw [List.append_assoc, (leads.detaches_blank blank rest).tokens, ih, leads.detaches.tokens,
      leads.detaches.glyphs, Position.after_append, List.append_assoc]

end Blank

/-! Some lines further down a text makes the same tokens. -/

/-- The position that many lines further down, in the same column. -/
def Position.down (n : Nat) (p : Position) : Position := ⟨p.line + n, p.column⟩

/-- The token that many lines further down, in the same column. -/
def Token.down (n : Nat) (t : Token) : Token := { t with line := t.line + n }

/-- The error about a character that many lines further down. -/
def LexicalError.down (n : Nat) (e : LexicalError) : LexicalError := ⟨e.token.down n⟩

lemma Position.step_down (n : Nat) (p : Position) (g : Glyph) :
    (p.down n).step g = (p.step g).down n := by
  unfold step
  split
  · rw [down, down, Nat.add_right_comm]
  · rfl

lemma Position.after_down (n : Nat) (p : Position) (gs : List Glyph) :
    (p.down n).after gs = (p.after gs).down n := by
  induction gs generalizing p with
  | nil => rfl
  | cons g gs ih => rw [after_cons, after_cons, step_down, ih]

namespace Source

lemma tokensAt_down (n : Nat) (p : Position) (segments : List Segment) :
    tokensAt (p.down n) segments = (tokensAt p segments).map (Token.down n) := by
  induction segments generalizing p with
  | nil => rfl
  | cons s segments ih =>
    rw [tokensAt, tokensAt, Position.after_down, ih]
    cases s.kind? with
    | none => rfl
    | some k =>
      rw [List.map_cons]
      apply congrArg (· :: _)
      simp [Token.down, Position.down]

/-- Behind a line break the columns begin anew. -/
lemma after_line_break (a : Text) :
    (Position.start.after a.glyphs).step (.byte Text.newline) =
      Position.start.down (1 + a.count Text.newline) := by
  have ends : (Glyph.byte Text.newline).bytes = [Text.newline] := rfl
  rw [Position.step, if_pos ends, Position.after_glyphs, Position.down, Position.start,
    Nat.add_assoc, Nat.add_comm (a.count Text.newline)]

lemma stream_append_line (a b : Text) : stream (a ++ Text.newline :: b) =
    stream a ++ (stream b).map (Token.down (1 + a.count Text.newline)) := by
  have parted := tokensFrom_append_blank .start a isBlank_newline b
  rw [after_line_break, tokensFrom, tokensFrom, tokensFrom, tokensAt_down] at parted
  exact parted

lemma endToken_append_line (a b : Text) : endToken (a ++ Text.newline :: b) =
    (endToken b).down (1 + a.count Text.newline) := by
  rw [endToken, Text.glyphs_append_blank a isBlank_newline, Position.after_append,
    Position.after_cons, after_line_break, Position.after_down]
  simp [endToken, Token.down, Position.down]

/-- The tokens of a kind are found in both parts. -/
lemma filter_stream_append_line (test : Kind → Bool) (a b : Text) :
    (stream (a ++ Text.newline :: b)).filter (test ·.kind) = (stream a).filter (test ·.kind) ++
      ((stream b).filter (test ·.kind)).map (Token.down (1 + a.count Text.newline)) := by
  rw [stream_append_line, List.filter_append, List.filter_map]
  rfl

end Source

/-- What comes of reading a source and, `n` lines further down, another one. The first error is
the one that counts. -/
def joinReadings (n : Nat) : (above below : Except LexicalError (List Token × List Token)) →
    Except LexicalError (List Token × List Token)
  | .error e, _ => .error e
  | .ok _, .error e => .error (e.down n)
  | .ok (tokens, skipped), .ok (more, moreSkipped) =>
    .ok (tokens ++ more.map (Token.down n), skipped ++ moreSkipped.map (Token.down n))

lemma readTokens_reject_append_line (a b : Text) :
    readTokens .reject (a ++ Text.newline :: b) =
      joinReadings (1 + a.count Text.newline) (readTokens .reject a) (readTokens .reject b) := by
  have tokens := Source.filter_stream_append_line (fun k => decide (k ≠ .unrecognized)) a b
  have strays := Source.filter_stream_append_line (fun k => decide (k = .unrecognized)) a b
  cases above : (Source.stream a).filter (·.kind = .unrecognized) with
  | cons t others =>
    rw [above, List.cons_append] at strays
    rw [readTokens_of_stray rfl strays, readTokens_of_stray rfl above, joinReadings]
  | nil =>
    rw [above, List.nil_append] at strays
    cases below : (Source.stream b).filter (·.kind = .unrecognized) with
    | cons t others =>
      rw [below, List.map_cons] at strays
      rw [readTokens_of_stray rfl strays, readTokens_reject_of_clean above,
        readTokens_of_stray rfl below, joinReadings, LexicalError.down]
    | nil =>
      rw [below, List.map_nil] at strays
      rw [readTokens_reject_of_clean strays, readTokens_reject_of_clean above,
        readTokens_reject_of_clean below, joinReadings, tokens, List.map_nil, List.append_nil]

/-- A source can be read line by line. Under every policy, what a line break parts is read apart,
and the tokens, the characters skipped and the error of the lower part are the same as by itself,
in the same columns, as many lines further down as there are line breaks above them. The skipping
policy gets through both parts, and the end moves with the lower one. -/
theorem reading_parts_at_line_break (a b : Text) :
    (∀ policy, readTokens policy (a ++ Text.newline :: b) =
      joinReadings (1 + a.count Text.newline) (readTokens policy a) (readTokens policy b)) ∧
    (∃ tokens skipped more moreSkipped, readTokens .skip a = .ok (tokens, skipped) ∧
      readTokens .skip b = .ok (more, moreSkipped) ∧
      readTokens .skip (a ++ Text.newline :: b) =
        .ok (tokens ++ more.map (Token.down (1 + a.count Text.newline)),
          skipped ++ moreSkipped.map (Token.down (1 + a.count Text.newline)))) ∧
    Source.endToken (a ++ Text.newline :: b) =
      (Source.endToken b).down (1 + a.count Text.newline) := by
  have tokens := Source.filter_stream_append_line (fun k => decide (k ≠ .unrecognized)) a b
  have strays := Source.filter_stream_append_line (fun k => decide (k = .unrecognized)) a b
  have skipping {policy : Policy} (skips : ¬ policy.rejects) :
      readTokens policy (a ++ Text.newline :: b) =
        joinReadings (1 + a.count Text.newline) (readTokens policy a) (readTokens policy b) := by
    have read (source : Text) : readTokens policy source =
        .ok ((Source.stream source).filter (·.kind ≠ .unrecognized),
          (Source.stream source).filter (·.kind = .unrecognized)) :=
      readTokens_of_clean fun rejects => absurd rejects skips
    rw [read, read, read, joinReadings, tokens, strays]
  refine ⟨?_, ?_, Source.endToken_append_line a b⟩
  · intro policy
    cases policy with
    | skip => exact skipping nofun
    | reject => exact readTokens_reject_append_line a b
    | unnamed n => exact skipping nofun
  · refine ⟨_, _, _, _, readTokens_skip a, readTokens_skip b, ?_⟩
    have skips : ¬ Policy.skip.rejects := nofun
    rw [skipping skips, readTokens_skip, readTokens_skip, joinReadings]

/-- The first part ends with a cut-off character. -/
example : readTokens .skip (utf8 "x1\n y" ++ [0xE2, 0x82] ++ Text.newline :: utf8 "\t2@") =
    .ok ([⟨.identifier, "x1", 1, 1⟩, ⟨.identifier, "y", 2, 2⟩, ⟨.number, "2", 3, 2⟩],
      [⟨.unrecognized, [0xE2], 2, 3⟩, ⟨.unrecognized, [0x82], 2, 4⟩,
        ⟨.unrecognized, "@", 3, 3⟩]) := by decide +kernel

/-! Lexemes with blanks between them. -/

/-- The lexemes one behind another, each with its gap in front of it. -/
def Text.spread (gaps lexemes : List Text) : Text := (List.zipWith (· ++ ·) gaps lexemes).flatten

lemma Text.spread_cons (gap w : Text) (gaps lexemes : List Text) :
    spread (gap :: gaps) (w :: lexemes) = gap ++ (w ++ spread gaps lexemes) := by
  simp [spread]

/-- The gaps are blank, and only the first of them may be empty. -/
structure Gaps (gaps : List Text) : Prop where
  blank : ∀ gap ∈ gaps, ∀ b ∈ gap, isBlank b
  apart : ∀ gap ∈ gaps.tail, gap ≠ []

lemma spelled_blanks {w : Text} (blank : ∀ b ∈ w, isBlank b) (rest : Text) :
    spelled (w ++ rest) = spelled rest := by
  rw [← map_unplaced_tokensFrom .start, Source.tokensFrom_blanks _ blank, map_unplaced_tokensFrom]

/-- What follows a lexeme begins with a blank, if there is anything. -/
lemma Gaps.head_spread {gap back : Text} {gaps lexemes : List Text} (h : Gaps (gap :: gaps))
    (behind : ∀ b ∈ back, isBlank b) :
    ∀ b ∈ (Text.spread gaps lexemes ++ back).head?, isBlank b := by
  have last : ∀ b ∈ back.head?, isBlank b := fun b hb => behind b (List.mem_of_mem_head? hb)
  cases gaps with
  | nil => exact last
  | cons next gaps =>
    cases lexemes with
    | nil => exact last
    | cons w lexemes =>
      obtain ⟨b, more, rfl⟩ := List.exists_cons_of_ne_nil (h.apart next List.mem_cons_self)
      have blank := h.blank (b :: more) (by simp) b List.mem_cons_self
      simpa [Text.spread_cons] using blank

/-- Lexemes that are spread spell their tokens. -/
lemma spelled_spread {tokens : List Token} {gaps : List Text} {back : Text}
    (admitted : ∀ t ∈ tokens, t.kind.Admits t.lexeme) (count : gaps.length = tokens.length)
    (h : Gaps gaps) (behind : ∀ b ∈ back, isBlank b) :
    spelled (Text.spread gaps (tokens.map Token.lexeme) ++ back) =
      tokens.map Token.unplaced := by
  induction tokens generalizing gaps with
  | nil =>
    rw [List.eq_nil_of_length_eq_zero count]
    have alone := spelled_blanks behind []
    rw [List.append_nil] at alone
    exact alone
  | cons t tokens ih =>
    obtain ⟨gap, gaps, rfl⟩ := List.exists_cons_of_length_eq_add_one count
    obtain ⟨first, others⟩ := List.forall_mem_cons.mp admitted
    have later : Gaps gaps :=
      ⟨fun g hg => h.blank g (List.mem_cons_of_mem gap hg),
        fun g hg => h.apart g (List.mem_of_mem_tail hg)⟩
    have head : ∀ b ∈ (Text.spread gaps (tokens.map Token.lexeme) ++ back).head?, isBlank b :=
      h.head_spread behind
    have spells := spelled_of_fits (first.fits_of_blank head)
    rw [ih others (Nat.succ.inj count) later] at spells
    rw [List.map_cons, Text.spread_cons, List.append_assoc, List.append_assoc,
      spelled_blanks (h.blank gap List.mem_cons_self)]
    exact spells

/-- The tokens of a source survive when their lexemes are written anew with other blanks: any at
the ends, and at least one between neighbours. That text has no stray, so it is read under the
rejecting policy as well, as tokens of the same kinds and lexemes in the same order. -/
theorem tokens_survive_respacing {source back : Text} {tokens skipped : List Token}
    {gaps : List Text} (read : readTokens .skip source = .ok (tokens, skipped))
    (count : gaps.length = tokens.length) (h : Gaps gaps) (behind : ∀ b ∈ back, isBlank b) :
    ∃ again,
      readTokens .reject (Text.spread gaps (tokens.map Token.lexeme) ++ back) = .ok (again, []) ∧
      List.Forall₂ Token.Alike again tokens := by
  have admitted := admits_of_mem_tokens read
  have spells := spelled_spread admitted count h behind
  refine ⟨_, readTokens_of_known .reject ?_, forall₂_alike_iff.mpr spells⟩
  intro t mem
  have listed : t.unplaced ∈ tokens.map Token.unplaced := spells ▸ List.mem_map_of_mem mem
  obtain ⟨u, hu, same⟩ := List.mem_map.mp listed
  have kind : u.kind = t.kind := (Token.alike_iff.mpr same).1
  exact kind ▸ (admitted u hu).ne.2

/-- A text in which some tokens have no blank between them, and two of them a stray. -/
def huddled : Text := "1abc x@y=int8"

/-- Gaps for its six tokens. -/
def sixGaps : List Text := ["\n", " ", "\t\t", " \r", "\x0c", "\n"]

theorem tokens_survive_respacing_huddled : ∃ read again,
    readTokens .skip huddled = .ok read ∧ read.2 = [⟨.unrecognized, "@", 1, 7⟩] ∧
    Text.spread sixGaps (read.1.map Token.lexeme) ++ [Text.space] =
      utf8 "\n1 abc\t\tx \ry\x0c=\nint8 " ∧
    readTokens .reject (utf8 "\n1 abc\t\tx \ry\x0c=\nint8 ") = .ok (again, []) ∧
    List.Forall₂ Token.Alike again read.1 := by
  obtain ⟨read, here, count, stray, text⟩ : ∃ read, readTokens .skip huddled = .ok read ∧
      sixGaps.length = read.1.length ∧ read.2 = [⟨.unrecognized, "@", 1, 7⟩] ∧
      Text.spread sixGaps (read.1.map Token.lexeme) ++ [Text.space] =
        utf8 "\n1 abc\t\tx \ry\x0c=\nint8 " := by decide +kernel
  have gaps : Gaps sixGaps := ⟨by decide +kernel, by decide⟩
  have space : ∀ b ∈ [Text.space], isBlank b := List.forall_mem_singleton.mpr rfl
  obtain ⟨again, reread, alike⟩ := tokens_survive_respacing here count gaps space
  rw [text] at reread
  exact ⟨read, again, here, stray, text, reread, alike⟩

end ThreeAddress
