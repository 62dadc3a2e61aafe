import ThreeAddress.Text.Quoted

/-!
# Files of settings

A file of settings has entries `key=value` or `key: value`, comments behind `#` and blank
lines. A key may stand behind the word `export`. Values are plain to the end of the line,
or quoted, and a quoted value may run over several lines. Plain and double-quoted values
may refer to the keys above them.

Entries are read one after another, and each takes at least one byte of the file
(`readEntry_length`).
-/

namespace ThreeAddress.EnvFile

/-- What keys are bound to, the latest binding first. -/
abbrev Bindings := List (Text × Text)

inductive Error where
  /-- A byte that no key has, and the text from the key on. -/
  | badKey (byte : UInt8) (near : Text)
  /-- Nothing follows `export`. -/
  | nothing
  /-- A quote without its partner, and what follows it on its line. -/
  | openQuote (text : Text)
  deriving DecidableEq, Repr

/-- The character with the number of a byte. -/
def characterOf (b : UInt8) : Text :=
  if b < 0x80 then [b] else [0xC0 + b / 0x40, 0x80 + b % 0x40]

def Error.message : Error → Text
  | badKey b near =>
    "unexpected character " ++ Text.quoted (characterOf b) ++ " in variable name near " ++
      Text.quoted near
  | nothing => "zero length string"
  | openQuote t => "unterminated quoted value " ++ t

/-- Line ends of two bytes become newlines. -/
def unifyLineEnds : Text → Text
  | 0x0D :: 0x0A :: r => 0x0A :: unifyLineEnds r
  | b :: r => b :: unifyLineEnds r
  | [] => []

/-! ## Keys -/

/-- The bytes of a key, each taken as the character of its number: letters, numbers, `_`
and `.`. -/
def isKeyByte (b : UInt8) : Bool :=
  b == 0x5F || b == 0x2E || (0x30 ≤ b && b ≤ 0x39) || (0x41 ≤ b && b ≤ 0x5A) ||
    (0x61 ≤ b && b ≤ 0x7A) || b == 0xAA || b == 0xB2 || b == 0xB3 || b == 0xB5 || b == 0xB9 ||
    b == 0xBA || (0xBC ≤ b && b ≤ 0xBE) || (0xC0 ≤ b && b ≤ 0xD6) || (0xD8 ≤ b && b ≤ 0xF6) ||
    0xF8 ≤ b

/-- What stands before and behind the first `=` or `:`, or the byte before it that no key
has. Spacing is passed over. -/
def splitKey : Text → Except UInt8 (Option (Text × Text))
  | [] => .ok none
  | b :: r =>
    if b = 0x3D ∨ b = 0x3A then .ok (some ([], r))
    else if isSpacing b.toNat || isKeyByte b then
      match splitKey r with
      | .ok (some (key, rest)) => .ok (some (b :: key, rest))
      | found => found
    else .error b

/-- Drops the word `export` and the spacing behind it. -/
def dropExport (t : Text) : Text :=
  match Text.after? "export" t with
  | some r => if (Text.glyphs r).head?.any (Glyph.isIn isSpacing) then r.trimLeft isSpacing else t
  | none => t

/-! ## Values -/

/-- The first byte on its own, if it is `b`. -/
def takeByte (b : UInt8) : Text → Text × Text
  | [] => ([], [])
  | c :: r => if c = b then ([c], r) else ([], c :: r)

/-- The bytes of a key that can be referred to. -/
def isNameByte (b : UInt8) : Bool :=
  (0x41 ≤ b && b ≤ 0x5A) || (0x30 ≤ b && b ≤ 0x39) || b == 0x5F

/-- What follows the `$` of a reference. -/
structure Reference where
  /-- The whole of it, as written. -/
  text : Text
  name : Text
  rest : Text

/-- Reads a name behind `$`. It may stand in braces, of which each may be missing, and
behind a parenthesis. -/
def Reference.read (t : Text) : Reference :=
  let (paren, t) := takeByte 0x28 t
  let (brace, t) := takeByte 0x7B t
  let (name, t) := (t.takeWhile isNameByte, t.dropWhile isNameByte)
  let (close, t) := takeByte 0x7D t
  ⟨paren ++ brace ++ name ++ close, name, t⟩

theorem takeByte_append (b : UInt8) (t : Text) : (takeByte b t).1 ++ (takeByte b t).2 = t := by
  cases t with
  | nil => rfl
  | cons c r => by_cases h : c = b <;> simp [takeByte, h]

theorem Reference.read_append (t : Text) : (read t).text ++ (read t).rest = t := by
  simp only [read, List.append_assoc, takeByte_append, List.takeWhile_append_dropWhile]

/-- Replaces each reference by what its key is bound to above, or by nothing. A backslash
keeps the reference behind it, and a `$` without a name stays. -/
def expand (above : Bindings) : Text → Text
  | [] => []
  | 0x5C :: 0x24 :: t =>
    let ref := Reference.read t
    0x24 :: ref.text ++ expand above ref.rest
  | 0x24 :: t =>
    let ref := Reference.read t
    (if ref.name.isEmpty then 0x24 :: ref.text else (above.lookup ref.name).getD []) ++
      expand above ref.rest
  | b :: t => b :: expand above t
termination_by t => t.length
decreasing_by
  all_goals simp_wf
  all_goals
    first
    | omega
    | have h := congrArg List.length (Reference.read_append t)
      simp only [List.length_append] at h
      omega

/-- Line ends that are written as escapes. -/
def lineEscapes : Text → Text
  | 0x5C :: 0x6E :: r => 0x0A :: lineEscapes r
  | 0x5C :: 0x72 :: r => 0x0D :: lineEscapes r
  | 0x5C :: b :: r => 0x5C :: b :: lineEscapes r
  | b :: r => b :: lineEscapes r
  | [] => []

/-- Drops the backslash of every other escape, but for `\$`. -/
def dropEscapes : Text → Text
  | 0x5C :: b :: r => if b = 0x24 then 0x5C :: b :: dropEscapes r else b :: dropEscapes r
  | b :: r => b :: dropEscapes r
  | [] => []

/-- The bytes that stand on a line: neither newline nor carriage return. -/
def onLine (b : UInt8) : Bool := b != 0x0A && b != 0x0D

/-- Cuts off the last `#` that follows spacing, and all behind it. The characters are given
from the last to the first. -/
def dropComment : List Glyph → Option (List Glyph)
  | [] => none
  | g :: before =>
    if g.bytes = [0x23] ∧ before.head?.any (Glyph.isIn isSpacing) then some before
    else dropComment before

/-- The character in place of a byte that belongs to none. -/
def mend (g : Glyph) : Glyph := if g.codePoint?.isSome then g else ⟨"�"⟩

/-- The value on a line, without its comment. -/
def plainValue (above : Bindings) (line : Text) : Text :=
  let reversed := (line.glyphs.map mend).reverse
  let value := Text.ofGlyphs ((dropComment reversed).getD reversed).reverse
  expand above (value.trim isSpacing)

/-- What stands before and behind the next quote that does not follow a backslash. `last`
is the byte before the text. -/
def splitQuote (quote last : UInt8) : Text → Option (Text × Text)
  | [] => none
  | b :: r =>
    if b = quote ∧ last ≠ 0x5C then some ([], r)
    else match splitQuote quote b r with
      | some (inner, rest) => some (b :: inner, rest)
      | none => none

/-- Drops all quotes at both ends. -/
def dropQuotes (quote : UInt8) (t : Text) : Text :=
  (t.reverse.dropWhile (· == quote)).reverse.dropWhile (· == quote)

/-- The value between two quotes. -/
def quotedValue (above : Bindings) (quote : UInt8) (inner : Text) : Text :=
  let value := dropQuotes quote (quote :: inner)
  if quote = 0x22 then expand above (dropEscapes (lineEscapes value)) else value

/-- The value at the front of a text, and what follows it. -/
def readValue (above : Bindings) (t : Text) : Except Error (Text × Text) :=
  match t with
  | [] => .ok ([], [])
  | b :: r =>
    if b = 0x22 ∨ b = 0x27 then
      match splitQuote b b r with
      | some (inner, rest) => .ok (quotedValue above b inner, rest)
      | none => .error (.openQuote (t.takeWhile (· != Text.newline)))
    else .ok (plainValue above (t.takeWhile onLine), t.dropWhile onLine)

/-! ## Entries -/

structure Entry where
  key : Text
  value : Text
  rest : Text

/-- The entry at the front of a text. Without a sign behind its key, the whole line is the
value of the empty key. -/
def readEntry (above : Bindings) (t : Text) : Except Error Entry :=
  match dropExport (t.trimLeft isSpacing) with
  | [] => .error .nothing
  | b :: r =>
    match splitKey (b :: r) with
    | .error bad => .error (.badKey bad (b :: r))
    | .ok none =>
      .ok ⟨[], plainValue above (b :: r.takeWhile onLine), r.dropWhile onLine⟩
    | .ok (some (key, valueAndRest)) =>
      match readValue above (Text.trimLeft isSpacing valueAndRest) with
      | .error e => .error e
      | .ok (value, rest) => .ok ⟨Text.trimRight isWhiteSpace key, value, rest⟩

theorem length_trimLeft_le (p : Nat → Bool) (t : Text) : (t.trimLeft p).length ≤ t.length := by
  have h := congrArg List.length (Text.ofGlyphs_glyphs t)
  rw [← List.takeWhile_append_dropWhile (p := Glyph.isIn p) (l := t.glyphs),
    Text.ofGlyphs_append, List.length_append] at h
  simp only [Text.trimLeft]
  omega

theorem length_dropExport_le (t : Text) : (dropExport t).length ≤ t.length := by
  unfold dropExport
  split
  next r hr =>
    have hlen : r.length ≤ t.length := by
      simp only [Text.after?, Option.ite_none_right_eq_some, Option.some.injEq] at hr
      rw [← hr.2, List.length_drop]
      omega
    split
    · exact Nat.le_trans (length_trimLeft_le _ r) hlen
    · exact Nat.le_refl _
  · exact Nat.le_refl _

theorem length_splitKey {t key rest : Text} (h : splitKey t = .ok (some (key, rest))) :
    key.length + rest.length < t.length := by
  induction t generalizing key with
  | nil => simp [splitKey] at h
  | cons b r ih =>
    simp only [splitKey] at h
    split at h
    · simp only [Except.ok.injEq, Option.some.injEq, Prod.mk.injEq] at h
      obtain ⟨rfl, rfl⟩ := h
      simp
    · split at h
      · split at h
        next key' rest' hr =>
          simp only [Except.ok.injEq, Option.some.injEq, Prod.mk.injEq] at h
          obtain ⟨rfl, rfl⟩ := h
          have := ih hr
          simp only [List.length_cons]
          omega
        next found hne => exact absurd h (hne key rest)
      · simp at h

theorem length_splitQuote {quote last : UInt8} {t inner rest : Text}
    (h : splitQuote quote last t = some (inner, rest)) : rest.length < t.length := by
  induction t generalizing last inner with
  | nil => simp [splitQuote] at h
  | cons b r ih =>
    simp only [splitQuote] at h
    split at h
    · simp only [Option.some.injEq, Prod.mk.injEq] at h
      simp [h.2]
    · split at h
      next inner' rest' hr =>
        simp only [Option.some.injEq, Prod.mk.injEq] at h
        obtain ⟨-, rfl⟩ := h
        have := ih hr
        simp only [List.length_cons]
        omega
      · simp at h

theorem length_readValue {above : Bindings} {t value rest : Text}
    (h : readValue above t = .ok (value, rest)) : rest.length ≤ t.length := by
  cases t with
  | nil =>
    simp only [readValue, Except.ok.injEq, Prod.mk.injEq] at h
    simp [← h.2]
  | cons b r =>
    simp only [readValue] at h
    split at h
    · split at h
      next inner rest' hq =>
        simp only [Except.ok.injEq, Prod.mk.injEq] at h
        obtain ⟨-, rfl⟩ := h
        have := length_splitQuote hq
        simp only [List.length_cons]
        omega
      · simp at h
    · simp only [Except.ok.injEq, Prod.mk.injEq] at h
      rw [← h.2]
      exact (List.dropWhile_suffix _).length_le

/-- An entry takes at least one byte. -/
theorem readEntry_length {above : Bindings} {t : Text} {e : Entry}
    (h : readEntry above t = .ok e) : e.rest.length < t.length := by
  have hle := Nat.le_trans (length_dropExport_le (t.trimLeft isSpacing))
    (length_trimLeft_le isSpacing t)
  unfold readEntry at h
  split at h
  · simp at h
  next b r hbr =>
    rw [hbr, List.length_cons] at hle
    split at h
    · simp at h
    · simp only [Except.ok.injEq] at h
      subst h
      have := (List.dropWhile_suffix (l := r) onLine).length_le
      simp only
      omega
    next key valueAndRest hk =>
      have hkey := length_splitKey hk
      rw [List.length_cons] at hkey
      split at h
      · simp at h
      next value rest hv =>
        simp only [Except.ok.injEq] at h
        subst h
        have := length_readValue hv
        have := length_trimLeft_le isSpacing valueAndRest
        simp only
        omega

/-- A comment takes at least one byte. -/
theorem length_afterComment {t r : Text} {b : UInt8} (h : t.trimLeft isWhiteSpace = b :: r) :
    (r.dropWhile (· != Text.newline)).length < t.length := by
  have hle := length_trimLeft_le isWhiteSpace t
  have := (List.dropWhile_suffix (l := r) (· != Text.newline)).length_le
  rw [h, List.length_cons] at hle
  omega

/-- The text from the next entry on, past white space and comments. -/
def nextEntry (t : Text) : Text :=
  match h : t.trimLeft isWhiteSpace with
  | [] => []
  | b :: r =>
    have := length_afterComment h
    if b = 0x23 then nextEntry (r.dropWhile (· != Text.newline)) else b :: r
termination_by t.length

theorem length_nextEntry_le (t : Text) : (nextEntry t).length ≤ t.length := by
  fun_induction nextEntry t with
  | case1 t h => exact Nat.zero_le _
  | case2 t r h hlt ih => exact Nat.le_trans ih (Nat.le_of_lt hlt)
  | case3 t b r h hlt hb =>
    have hle := length_trimLeft_le isWhiteSpace t
    rwa [h] at hle

theorem length_entry {above : Bindings} {t : Text} {e : Entry}
    (h : readEntry above (nextEntry t) = .ok e) : e.rest.length < t.length :=
  Nat.lt_of_lt_of_le (readEntry_length h) (length_nextEntry_le t)

/-- Reads the entries of a text on top of what is bound above it. -/
def readEntries (above : Bindings) (t : Text) : Except Error Bindings :=
  if (nextEntry t).isEmpty then .ok above
  else match h : readEntry above (nextEntry t) with
    | .error e => .error e
    | .ok entry =>
      have := length_entry h
      readEntries ((entry.key, entry.value) :: above) entry.rest
termination_by t.length

/-- What a file of settings binds its keys to. -/
def read (t : Text) : Except Error Bindings := readEntries [] (unifyLineEnds t)

end ThreeAddress.EnvFile
