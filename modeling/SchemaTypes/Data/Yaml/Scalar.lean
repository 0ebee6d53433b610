/-
# Plain and block scalars

A plain scalar has no quotes and ends at a colon or a comment, inside brackets also at commas and
brackets, or where a line is indented too little (`readPlain`).  A block scalar follows a header
with a bar or an angle; its lines keep their breaks or are folded (`readBlock`).
-/
import SchemaTypes.Data.Yaml.Cursor

namespace SchemaTypes.Yaml

/-! ## 1. Plain scalars -/

/-- The characters that end a plain scalar inside brackets. -/
def flowEnds : List Char := [',', '?', '[', ']', '\x7b', '\x7d']

/-- The characters behind a colon that make it end a plain scalar inside brackets. -/
def flowColonEnds : List Char := [',', '[', ']', '\x7b', '\x7d']

/-- The colon in front of these characters ends a plain scalar. -/
def colonEnds (flow : Bool) (ahead : List Char) : Bool :=
  atGap ahead || (flow && (ahead.head?.any flowColonEnds.contains))

/-- How many characters of a plain scalar stand here without a gap. -/
def plainLength (flow : Bool) : List Char → Nat
  | [] => 0
  | c :: rest =>
    if isGap c || (c == ':' && colonEnds flow rest) || (flow && flowEnds.contains c) then 0
    else plainLength flow rest + 1

/-- The breaks on further lines, the last one first; `stopped` tells whether a mark between
documents follows. -/
structure FurtherBreaks where
  breaks : List Char
  stopped : Bool
  cursor : Cursor

/-- Reads blanks and breaks at the beginning of a line. -/
def furtherBreaks (place : Place) (breaks : List Char) : List Char → FurtherBreaks
  | [] => ⟨breaks, false, ⟨[], place⟩⟩
  | c :: rest =>
    if c == ' ' then furtherBreaks (place.after c) breaks rest
    else if isBreak c then
      if atDocumentMark rest then ⟨c :: breaks, true, ⟨rest, place.after c⟩⟩
      else furtherBreaks (place.after c) (c :: breaks) rest
    else ⟨breaks, false, ⟨c :: rest, place⟩⟩

/-- What stands between two parts of a plain scalar: the text of it, whether a line ended, and
the place behind it.  The text is empty where the scalar ends. -/
structure PlainGap where
  text : List Char
  newLine : Bool
  cursor : Cursor

/-- Reads what may stand between two parts of a plain scalar. -/
def plainGap (c : Cursor) : PlainGap :=
  let (spaces, c) := c.takeWhile (· == ' ')
  match c.rest with
  | b :: rest =>
    if isBreak b then
      if atDocumentMark rest then ⟨[], true, c.step⟩
      else
        let further := furtherBreaks c.step.place [] c.step.rest
        if further.stopped then ⟨[], true, further.cursor⟩
        else
          let first :=
            if b != '\n' then [b] else if further.breaks.isEmpty then [' '] else []
          ⟨first ++ further.breaks.reverse, true, further.cursor⟩
    else ⟨spaces, false, c⟩
  | [] => ⟨spaces, false, c⟩

/-- A scalar, the place behind it, and whether a new line began there. -/
structure PlainScalar where
  text : String
  newLine : Bool
  cursor : Cursor

/-- Reads on in a plain scalar; `gap` stands in front of its next part. -/
def readPlainFrom (flow : Bool) (least : Int) (newLine : Bool) (gap done : List Char) (c : Cursor) :
    Nat → PlainScalar
  | 0 => ⟨String.ofList done, newLine, c⟩
  | fuel + 1 =>
    let n := plainLength flow c.rest
    if c.rest.head? == some '#' || n = 0 then ⟨String.ofList done, newLine, c⟩
    else
      let done := done ++ gap ++ c.rest.take n
      let next := plainGap (c.advance n)
      if next.text.isEmpty || next.cursor.rest.head? == some '#'
          || (!flow && Int.ofNat next.cursor.column < least) then
        ⟨String.ofList done, next.newLine, next.cursor⟩
      else readPlainFrom flow least next.newLine next.text done next.cursor fuel

/-- Reads a plain scalar whose further lines are indented by at least `least`. -/
def readPlain (flow : Bool) (least : Int) (c : Cursor) : PlainScalar :=
  readPlainFrom flow least false [] [] c (c.rest.length + 1)

/-! ## 2. Headers of block scalars -/

/-- What becomes of the breaks at the end of a block scalar. -/
inductive Chomping where
  | strip
  | clip
  | keep
deriving DecidableEq, Repr

/-- What the header of a block scalar says. -/
structure BlockHeader where
  chomping : Chomping := .clip
  increment : Option Nat := none
deriving DecidableEq, Repr

/-- The sign for the breaks at the end. -/
def chompingOf? (c : Char) : Option Chomping :=
  if c == '+' then some .keep else if c == '-' then some .strip else none

/-- The sign for the breaks at the end, if one stands here. -/
def readChomping (c : Cursor) : Chomping × Cursor :=
  match c.rest.head?.bind chompingOf? with
  | some s => (s, c.step)
  | none => (.clip, c)

/-- The digit for the indentation, if one stands here; zero is a fault. -/
def readIncrement (c : Cursor) : Except Fault (Option Nat × Cursor) :=
  match c.rest.head? with
  | some d =>
    if d == '0' then .error .malformed
    else if '1' ≤ d && d ≤ '9' then .ok (some (d.toNat - '0'.toNat), c.step)
    else .ok (none, c)
  | none => .ok (none, c)

/-- Reads the header of a block scalar and the end of its line. -/
def readBlockHeader (c : Cursor) : Except Fault (BlockHeader × Cursor) := do
  let (increment, second) ← readIncrement c
  let (chomping, increment, c) ←
    match increment with
    | some n =>
      let (chomping, c) := readChomping second
      pure (chomping, some n, c)
    | none =>
      let (chomping, second) := readChomping c
      if second.place == c.place then pure (Chomping.clip, none, c)
      else do
        let (increment, c) ← readIncrement second
        pure (chomping, increment, c)
  if atSpace c.rest then
    let c ← c.endLine
    return (⟨chomping, increment⟩, c)
  else .error .malformed

/-! ## 3. Lines of block scalars -/

/-- The breaks in front of the first line, and the greatest number of spaces on a line. -/
structure Indentation where
  breaks : List Char
  spaces : Nat
  cursor : Cursor

/-- Reads blank lines and measures their spaces. -/
def measureIndentation (place : Place) (breaks : List Char) (spaces : Nat) :
    List Char → Indentation
  | [] => ⟨breaks.reverse, spaces, ⟨[], place⟩⟩
  | c :: rest =>
    if c == ' ' then
      measureIndentation (place.after c) breaks (max spaces (place.after c).column) rest
    else if isBreak c then measureIndentation (place.after c) (c :: breaks) spaces rest
    else ⟨breaks.reverse, spaces, ⟨c :: rest, place⟩⟩

/-- Reads blank lines, each up to an indentation. -/
def blankLines (indent : Nat) (place : Place) (breaks : List Char) :
    List Char → List Char × Cursor
  | [] => (breaks.reverse, ⟨[], place⟩)
  | c :: rest =>
    if c == ' ' && place.column < indent then blankLines indent (place.after c) breaks rest
    else if isBreak c then blankLines indent (place.after c) (c :: breaks) rest
    else (breaks.reverse, ⟨c :: rest, place⟩)

/-- A block scalar as far as it was read: its text, the last break, and the breaks behind it. -/
structure BlockText where
  text : List Char
  lastBreak : List Char
  breaks : List Char
  cursor : Cursor

/-- What joins two lines of a block scalar. -/
def joint (isFolded : Bool) (lineBreak breaks : List Char) (spaced : Bool) : List Char :=
  if isFolded && lineBreak == ['\n'] && !spaced then (if breaks.isEmpty then [' '] else [])
  else lineBreak

/-- Reads the lines of a block scalar. -/
def blockLines (isFolded : Bool) (indent : Nat) (b : BlockText) : Nat → BlockText
  | 0 => b
  | fuel + 1 =>
    if b.cursor.column != indent || b.cursor.rest.isEmpty then b
    else
      let startsBlank := b.cursor.rest.head?.any isBlank
      let (line, c) := b.cursor.takeWhile (!isBreak ·)
      let lineBreak := (c.rest.head?).toList
      let (breaks, next) := blankLines indent c.step.place [] c.step.rest
      let text := b.text ++ b.breaks ++ line
      if next.column = indent && !next.rest.isEmpty then
        let spaced := startsBlank || next.rest.head?.any isBlank
        blockLines isFolded indent
          ⟨text ++ joint isFolded lineBreak breaks spaced, lineBreak, breaks, next⟩ fuel
      else ⟨text, lineBreak, breaks, next⟩

/-- Reads a block scalar from its header on; its lines are indented by at least `least`. -/
def readBlock (isFolded : Bool) (least : Nat) (c : Cursor) : Except Fault (String × Cursor) := do
  let (header, c) ← readBlockHeader c.step
  let (indent, breaks, c) :=
    match header.increment with
    | none =>
      let m := measureIndentation c.place [] 0 c.rest
      (max least m.spaces, m.breaks, m.cursor)
    | some n =>
      let indent := least + n - 1
      let (breaks, c) := blankLines indent c.place [] c.rest
      (indent, breaks, c)
  let b := blockLines isFolded indent ⟨[], [], breaks, c⟩ (c.rest.length + 1)
  let tail :=
    match header.chomping with
    | .strip => []
    | .clip => b.lastBreak
    | .keep => b.lastBreak ++ b.breaks
  return (String.ofList (b.text ++ tail), b.cursor)

/-- A part of a plain scalar ends no later than the text. -/
theorem plainLength_le (flow : Bool) (cs : List Char) : plainLength flow cs ≤ cs.length := by
  induction cs with
  | nil => simp [plainLength]
  | cons c r ih =>
    simp only [plainLength, List.length_cons]
    split <;> omega

end SchemaTypes.Yaml
