/-
# A place in a YAML text

The characters that are still to be read, and where they stand: index, line and column, each from
zero.  A byte order mark takes no column.  Line breaks are the line feed and the line and
paragraph separators; other spellings are replaced before a text is read.
-/
namespace SchemaTypes.Yaml

/-- Why a text has no value: it breaks a rule of the language, its collections are nested too
deeply, or a scalar in it stands for nothing: a number or a date out of its range, a code point far
beyond the last one, or a text whose written tag asks for a word, a date or digits that are not
there. -/
inductive Fault where
  | malformed
  | tooDeep
  | unusable (message : String)
  | tooLarge
  | unknownWord
  | notAStamp
  | noDigits
deriving DecidableEq, Repr

/-! ## 1. Kinds of characters -/

/-- The character ends a line. -/
def isBreak (c : Char) : Bool := c == '\n' || c == '\u2028' || c == '\u2029'

/-- The character is a space or a tab. -/
def isBlank (c : Char) : Bool := c == ' ' || c == '\t'

/-- The character separates tokens. -/
def isGap (c : Char) : Bool := isBlank c || isBreak c

/-- Here a line ends, or the text. -/
def atLineEnd : List Char → Bool
  | [] => true
  | c :: _ => isBreak c

/-- Here is a gap, or the text ends. -/
def atGap : List Char → Bool
  | [] => true
  | c :: _ => isGap c

/-- Here is a space, or a line ends, or the text. -/
def atSpace : List Char → Bool
  | [] => true
  | c :: _ => c == ' ' || isBreak c

/-- A mark between documents stands here, at the beginning of a line. -/
def atDocumentMark : List Char → Bool
  | '-' :: '-' :: '-' :: rest => atGap rest
  | '.' :: '.' :: '.' :: rest => atGap rest
  | _ => false

/-- The character may stand in a YAML text. -/
def isAllowed (c : Char) : Bool :=
  let n := c.toNat
  n == 0x09 || n == 0x0A || n == 0x0D || (0x20 ≤ n && n ≤ 0x7E) || n == 0x85
    || (0xA0 ≤ n && n ≤ 0xFFFD) || 0x10000 ≤ n

/-- The character may stand in the name of an anchor, a handle or a directive. -/
def isNameChar (c : Char) : Bool :=
  ('0' ≤ c && c ≤ '9') || ('A' ≤ c && c ≤ 'Z') || ('a' ≤ c && c ≤ 'z') || c == '-' || c == '_'

/-! ## 2. Places -/

/-- Where a character stands. -/
structure Place where
  index : Nat := 0
  line : Nat := 0
  column : Nat := 0
deriving DecidableEq, Repr

/-- The place behind a character. -/
def Place.after (p : Place) (c : Char) : Place :=
  if isBreak c then ⟨p.index + 1, p.line + 1, 0⟩
  else ⟨p.index + 1, p.line, if c == '\uFEFF' then p.column else p.column + 1⟩

/-- The characters to be read and the place of the first one. -/
structure Cursor where
  rest : List Char
  place : Place := {}
deriving Repr

namespace Cursor

/-- Behind the next character. -/
def step (c : Cursor) : Cursor :=
  match c.rest with
  | [] => c
  | ch :: rest => ⟨rest, c.place.after ch⟩

/-- Behind some characters. -/
def advance (c : Cursor) : Nat → Cursor
  | 0 => c
  | n + 1 => c.step.advance n

/-- The characters in front that satisfy a test, and the place behind them. -/
def takeWhile (c : Cursor) (test : Char → Bool) : List Char × Cursor :=
  let taken := c.rest.takeWhile test
  (taken, c.advance taken.length)

/-- Behind the characters that satisfy a test. -/
def skipWhile (c : Cursor) (test : Char → Bool) : Cursor := (c.takeWhile test).2

/-- The column. -/
def column (c : Cursor) : Nat := c.place.column

/-- Behind the spaces and the comment at the end of a line and behind its break; anything else on
the line is a fault. -/
def endLine (c : Cursor) : Except Fault Cursor :=
  let c := c.skipWhile (· == ' ')
  let c := if c.rest.head? == some '#' then c.skipWhile (!isBreak ·) else c
  if atLineEnd c.rest then .ok c.step else .error .malformed

/-- Advancing takes the characters off. -/
theorem rest_advance (c : Cursor) (n : Nat) : (c.advance n).rest = c.rest.drop n := by
  induction n generalizing c with
  | zero => simp [advance]
  | succ n ih =>
    obtain ⟨rest, place⟩ := c
    cases rest with
    | nil => simp [advance, step, ih]
    | cons ch r => simp [advance, step, ih]

end Cursor

end SchemaTypes.Yaml
