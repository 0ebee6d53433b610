/-
# Tokens of a YAML text

A text becomes a list of tokens (`tokens`).  Indentation becomes tokens that open and close block
collections.  A key may be known as one only at the colon behind it; the places where one may have
begun are kept as marks (`KeyMark`), and at the colon its token goes in front of what was read
since its mark.
-/
import SchemaTypes.Data.Yaml.Quoted
import SchemaTypes.Data.Yaml.Scalar
import SchemaTypes.Text.Utf8

namespace SchemaTypes.Yaml

/-- What a line with a percent sign says. -/
inductive Directive where
  | version (major minor : Nat)
  | tag (handle start : String)
  | other
deriving DecidableEq, Repr

/-- A token. -/
inductive Token where
  | directive (d : Directive)
  | documentStart
  | documentEnd
  | blockSequenceStart
  | blockMappingStart
  | blockEnd
  | flowSequenceStart
  | flowSequenceEnd
  | flowMappingStart
  | flowMappingEnd
  | blockEntry
  | flowEntry
  | key
  | value
  | alias (name : String)
  | anchor (name : String)
  | tag (handle : Option String) (suffix : String)
  | scalar (text : Spelling) (plain : Bool)
deriving DecidableEq, Repr

/-! ## 1. Names, tags and directives -/

/-- Reads a name that is not empty. -/
def readName (c : Cursor) : Except Fault (String × Cursor) :=
  let (name, c) := c.takeWhile isNameChar
  if name.isEmpty then .error .malformed else .ok (String.ofList name, c)

/-- The characters that may stand behind the name of an anchor. -/
def behindAnchor : List Char := ['?', ':', ',', ']', '\x7d', '%', '@', '\x60']

/-- Reads the name of an anchor or an alias from its sign on. -/
def readAnchor (c : Cursor) : Except Fault (String × Cursor) := do
  let (name, c) ← readName c.step
  if atGap c.rest || c.rest.head?.any behindAnchor.contains then return (name, c)
  else .error .malformed

/-- The character may stand in a tag. -/
def isTagChar (c : Char) : Bool :=
  isNameChar c || "-;/?:@&=+$,_.!~*'()[]%".toList.contains c

/-- Reads the characters that hexadecimal escapes stand for; `bytes` are the ones so far, the
last one first. -/
def readEscapes (place : Place) (bytes : List UInt8) :
    List Char → Except Fault (List Char × Cursor)
  | '%' :: a :: b :: rest =>
    match hexValue? a, hexValue? b with
    | some x, some y =>
      readEscapes (((place.after '%').after a).after b) (UInt8.ofNat (x * 16 + y) :: bytes) rest
    | _, _ => .error .malformed
  | rest =>
    if rest.head? == some '%' then .error .malformed
    else
      match Text.Utf8.decode bytes.reverse with
      | .ok cs => .ok (cs, ⟨rest, place⟩)
      | .error _ => .error .malformed

/-- Reads on in a tag. -/
def readTagCharsFrom (done : List Char) (c : Cursor) : Nat → Except Fault (List Char × Cursor)
  | 0 => .ok (done, c)
  | fuel + 1 =>
    match c.rest.head? with
    | some '%' => do
      let (cs, c) ← readEscapes c.place [] c.rest
      readTagCharsFrom (done ++ cs) c fuel
    | some ch => if isTagChar ch then readTagCharsFrom (done ++ [ch]) c.step fuel else .ok (done, c)
    | none => .ok (done, c)

/-- Reads the characters of a tag, of which there has to be one. -/
def readTagChars (c : Cursor) : Except Fault (String × Cursor) := do
  let (cs, next) ← readTagCharsFrom [] c (c.rest.length + 1)
  if next.place == c.place then .error .malformed else return (String.ofList cs, next)

/-- Reads the handle of a tag: an exclamation mark, or a name between two. -/
def readHandle (c : Cursor) : Except Fault (String × Cursor) :=
  match c.rest with
  | '!' :: rest =>
    if rest.head? == some ' ' then .ok ("!", c.step)
    else
      let (name, next) := c.step.takeWhile isNameChar
      if next.rest.head? == some '!' then .ok (String.ofList ('!' :: (name ++ ['!'])), next.step)
      else .error .malformed
  | _ => .error .malformed

/-- A second exclamation mark stands before the next space, break or end. -/
def hasSecondMark : List Char → Bool
  | [] => false
  | c :: rest => if c == ' ' || isBreak c then false else c == '!' || hasSecondMark rest

/-- Reads a tag: its handle, if it has one, and its suffix. -/
def readTag (c : Cursor) : Except Fault (Token × Cursor) := do
  let inner := c.step
  let (token, c) ←
    match inner.rest with
    | '<' :: _ => do
      let (suffix, c) ← readTagChars inner.step
      if c.rest.head? == some '>' then pure (Token.tag none suffix, c.step) else .error .malformed
    | rest =>
      if atGap rest then pure (Token.tag none "!", inner)
      else if hasSecondMark rest then do
        let (handle, c) ← readHandle c
        let (suffix, c) ← readTagChars c
        pure (Token.tag (some handle) suffix, c)
      else do
        let (suffix, c) ← readTagChars inner
        pure (Token.tag (some "!") suffix, c)
  if atSpace c.rest then return (token, c) else .error .malformed

/-- Reads a decimal number. -/
def readNumber (c : Cursor) : Except Fault (Nat × Cursor) :=
  let (digits, c) := c.takeWhile fun d => '0' ≤ d && d ≤ '9'
  if digits.isEmpty then .error .malformed
  else .ok (digits.foldl (fun n d => n * 10 + (d.toNat - '0'.toNat)) 0, c)

/-- Reads the numbers of a version. -/
def readVersion (c : Cursor) : Except Fault (Directive × Cursor) := do
  let (major, c) ← readNumber (c.skipWhile (· == ' '))
  if c.rest.head? != some '.' then .error .malformed
  let (minor, c) ← readNumber c.step
  if atSpace c.rest then return (.version major minor, c) else .error .malformed

/-- Reads a handle and what it stands for. -/
def readTagDirective (c : Cursor) : Except Fault (Directive × Cursor) := do
  let (handle, c) ← readHandle (c.skipWhile (· == ' '))
  if c.rest.head? != some ' ' then .error .malformed
  let (start, c) ← readTagChars (c.skipWhile (· == ' '))
  if atSpace c.rest then return (.tag handle start, c) else .error .malformed

/-- Reads a line with a percent sign. -/
def readDirective (c : Cursor) : Except Fault (Directive × Cursor) := do
  let (name, c) ← readName c.step
  if !atSpace c.rest then .error .malformed
  let (d, c) ←
    if name == "YAML" then readVersion c
    else if name == "TAG" then readTagDirective c
    else pure (Directive.other, c.skipWhile (!isBreak ·))
  let c ← c.endLine
  return (d, c)

/-! ## 2. The state of the reading -/

/-- A place where a key may have begun, with the number of tokens in front of it. -/
structure KeyMark where
  level : Nat
  token : Nat
  required : Bool
  place : Place
deriving DecidableEq, Repr

/-- What was read so far; the tokens have the last one first, and so do the indentations. -/
structure Lexer where
  cursor : Cursor
  tokens : List Token := []
  count : Nat := 0
  level : Nat := 0
  indents : List Nat := []
  allowKey : Bool := true
  marks : List KeyMark := []

namespace Lexer

/-- The current indentation; outside of all block collections it is one left of the margin. -/
def indent (x : Lexer) : Int :=
  match x.indents with
  | i :: _ => Int.ofNat i
  | [] => -1

/-- The place of the next character. -/
def place (x : Lexer) : Place := x.cursor.place

/-- Adds a token. -/
def push (x : Lexer) (t : Token) : Lexer := { x with tokens := t :: x.tokens, count := x.count + 1 }

/-- Adds a token behind the first `n` ones. -/
def insert (x : Lexer) (n : Nat) (t : Token) : Lexer :=
  let k := x.count - n
  { x with tokens := x.tokens.take k ++ t :: x.tokens.drop k, count := x.count + 1 }

/-- Goes on at another place. -/
def goTo (x : Lexer) (c : Cursor) : Lexer := { x with cursor := c }

/-- A key that begins at a mark can no longer end: it ends on its line and is not too long. -/
def isStale (x : Lexer) (k : KeyMark) : Bool :=
  k.place.line != x.place.line || 1024 < x.place.index - k.place.index

/-- Drops the marks of keys that can no longer end; a key that has to be there is a fault. -/
def dropStale (x : Lexer) : Except Fault Lexer :=
  if x.marks.any fun k => x.isStale k && k.required then .error .malformed
  else .ok { x with marks := x.marks.filter (!x.isStale ·) }

/-- The mark on the current level. -/
def mark? (x : Lexer) : Option KeyMark := x.marks.find? (·.level == x.level)

/-- Without the mark on the current level. -/
def withoutMark (x : Lexer) : Lexer := { x with marks := x.marks.filter (·.level != x.level) }

/-- Drops the mark on the current level; a key that has to be there is a fault. -/
def dropMark (x : Lexer) : Except Fault Lexer :=
  if x.mark?.any (·.required) then .error .malformed else .ok x.withoutMark

/-- Marks this place, if a key may begin here. -/
def markKey (x : Lexer) : Except Fault Lexer :=
  if x.allowKey then do
    let y ← x.dropMark
    return { y with
      marks :=
        { level := x.level
          token := x.count
          required := x.level = 0 && x.indent = Int.ofNat x.place.column
          place := x.place } :: y.marks }
  else .ok x

/-- Closes the block collections that are indented by more than a column. -/
def unwind (x : Lexer) (column : Int) : Lexer :=
  if x.level != 0 then x
  else
    let closed := x.indents.takeWhile fun i => column < Int.ofNat i
    { x with
      indents := x.indents.drop closed.length
      tokens := List.replicate closed.length Token.blockEnd ++ x.tokens
      count := x.count + closed.length }

/-- Opens a block collection at a column, behind the first `n` tokens, if it is indented by more
than the current one. -/
def openBlock (x : Lexer) (column n : Nat) (t : Token) : Lexer :=
  if x.indent < Int.ofNat column then { x.insert n t with indents := column :: x.indents } else x

/-- Skips gaps and comments.  Outside brackets a key may begin on a new line. -/
def skipGaps (x : Lexer) : Nat → Lexer
  | 0 => x
  | fuel + 1 =>
    let c := x.cursor.skipWhile (· == ' ')
    let c := if c.rest.head? == some '#' then c.skipWhile (!isBreak ·) else c
    if c.rest.head?.any isBreak then
      skipGaps { x with cursor := c.step, allowKey := x.allowKey || x.level = 0 } fuel
    else x.goTo c

/-! ## 3. Single tokens -/

/-- A token of some characters after which no key begins, and which ends all blocks. -/
def readBoundary (x : Lexer) (t : Token) (c : Cursor) : Except Fault Lexer := do
  let x ← (x.unwind (-1)).dropMark
  return { (x.push t).goTo c with allowKey := false }

/-- Opens a collection between brackets. -/
def openFlow (x : Lexer) (t : Token) : Except Fault Lexer := do
  let x ← x.markKey
  return { (x.push t).goTo x.cursor.step with level := x.level + 1, allowKey := true }

/-- Closes a collection between brackets. -/
def closeFlow (x : Lexer) (t : Token) : Except Fault Lexer := do
  if x.level = 0 then .error .malformed
  let x ← x.dropMark
  return { (x.push t).goTo x.cursor.step with level := x.level - 1, allowKey := false }

/-- A comma between brackets. -/
def readFlowEntry (x : Lexer) : Except Fault Lexer := do
  let x ← { x with allowKey := true }.dropMark
  return (x.push .flowEntry).goTo x.cursor.step

/-- A block collection may begin or go on here. -/
def checkBlock (x : Lexer) : Except Fault Lexer :=
  if x.level = 0 && !x.allowKey then .error .malformed else .ok x

/-- Opens a block collection here, outside brackets. -/
def openHere (x : Lexer) (t : Token) : Lexer :=
  if x.level = 0 then x.openBlock x.place.column x.count t else x

/-- A dash. -/
def readBlockEntry (x : Lexer) : Except Fault Lexer := do
  let x ← x.checkBlock
  let x ← { x.openHere .blockSequenceStart with allowKey := true }.dropMark
  return (x.push .blockEntry).goTo x.cursor.step

/-- A question mark. -/
def readKey (x : Lexer) : Except Fault Lexer := do
  let x ← x.checkBlock
  let x ← { x.openHere .blockMappingStart with allowKey := x.level = 0 }.dropMark
  return (x.push .key).goTo x.cursor.step

/-- A colon: behind a mark it ends a key that began there. -/
def readValue (x : Lexer) : Except Fault Lexer := do
  let x ←
    match x.mark? with
    | some k =>
      let y := x.withoutMark.insert k.token .key
      let y := if x.level = 0 then y.openBlock k.place.column k.token .blockMappingStart else y
      pure { y with allowKey := false }
    | none => do
      let x ← x.checkBlock
      { x.openHere .blockMappingStart with allowKey := x.level = 0 }.dropMark
  return (x.push .value).goTo x.cursor.step

/-- A token that may begin a key and behind which none begins. -/
def readInline (x : Lexer) (t : Token) (c : Cursor) : Except Fault Lexer := do
  let x ← x.markKey
  return { (x.push t).goTo c with allowKey := false }

/-- A plain scalar. -/
def readPlainScalar (x : Lexer) : Except Fault Lexer := do
  let x ← x.markKey
  let s := readPlain (x.level != 0) (x.indent + 1) x.cursor
  return { (x.push (.scalar ⟨s.text, false⟩ true)).goTo s.cursor with allowKey := s.newLine }

/-- A block scalar. -/
def readBlockScalar (x : Lexer) (isFolded : Bool) : Except Fault Lexer := do
  let x ← { x with allowKey := true }.dropMark
  let (text, c) ← readBlock isFolded (max (x.indent + 1) 1).toNat x.cursor
  return (x.push (.scalar ⟨text, false⟩ false)).goTo c

/-! ## 4. All tokens -/

/-- The characters that begin no plain scalar. -/
def indicators : List Char := "-?:,[]\x7b\x7d#&*!|>'\"%@\x60".toList

/-- A plain scalar begins here. -/
def startsPlain (x : Lexer) (c : Char) (ahead : List Char) : Bool :=
  if isGap c then false
  else !indicators.contains c
    || (!atGap ahead && (c == '-' || (x.level = 0 && (c == '?' || c == ':'))))

/-- Reads a token that the character decides; `none` if it decides nothing. -/
def readIndicator? (x : Lexer) (c : Char) (ahead : List Char) : Option (Except Fault Lexer) :=
  match c with
  | '[' => some (x.openFlow .flowSequenceStart)
  | '\x7b' => some (x.openFlow .flowMappingStart)
  | ']' => some (x.closeFlow .flowSequenceEnd)
  | '\x7d' => some (x.closeFlow .flowMappingEnd)
  | ',' => some x.readFlowEntry
  | '-' => if atGap ahead then some x.readBlockEntry else none
  | '?' => if x.level != 0 || atGap ahead then some x.readKey else none
  | ':' => if x.level != 0 || atGap ahead then some x.readValue else none
  | '*' => some do
    let (name, c) ← readAnchor x.cursor
    x.readInline (.alias name) c
  | '&' => some do
    let (name, c) ← readAnchor x.cursor
    x.readInline (.anchor name) c
  | '!' => some do
    let (t, c) ← readTag x.cursor
    x.readInline t c
  | '|' => if x.level = 0 then some (x.readBlockScalar false) else none
  | '>' => if x.level = 0 then some (x.readBlockScalar true) else none
  | '\'' => some do
    let (text, c) ← readQuoted false x.cursor
    x.readInline (.scalar text false) c
  | '"' => some do
    let (text, c) ← readQuoted true x.cursor
    x.readInline (.scalar text false) c
  | _ => none

/-- Reads a directive or a mark between documents, if one stands here. -/
def readBoundary? (x : Lexer) (c : Char) : Option (Except Fault Lexer) :=
  if x.place.column != 0 then none
  else if c == '%' then some do
    let (d, c) ← readDirective x.cursor
    x.readBoundary (.directive d) c
  else if atDocumentMark x.cursor.rest then
    some (x.readBoundary (if c == '-' then .documentStart else .documentEnd) (x.cursor.advance 3))
  else none

/-- Reads the next token; its first character is `c`. -/
def readToken (x : Lexer) (c : Char) (ahead : List Char) : Except Fault Lexer :=
  match x.readBoundary? c with
  | some r => r
  | none =>
    match x.readIndicator? c ahead with
    | some r => r
    | none => if x.startsPlain c ahead then x.readPlainScalar else .error .malformed

/-- Reads all tokens. -/
def readAll (x : Lexer) : Nat → Except Fault (List Token)
  | 0 => .error .malformed
  | fuel + 1 => do
    let x ← (x.skipGaps (x.cursor.rest.length + 1)).dropStale
    let x := x.unwind (Int.ofNat x.place.column)
    match x.cursor.rest with
    | [] => do
      let x ← (x.unwind (-1)).dropMark
      return x.tokens.reverse
    | c :: ahead => do
      let x ← x.readToken c ahead
      readAll x fuel

end Lexer

/-- A text with its breaks in the spelling that is read. -/
def unifyBreaks (cs : List Char) : List Char :=
  cs.map fun c => if c == '\u0085' then '\n' else c

/-- The text without the byte order mark in front. -/
def withoutMark (c : Cursor) : Cursor := if c.rest.head? == some '\uFEFF' then c.step else c

/-- The tokens of a text.  Every token takes at least one character. -/
def tokens (cs : List Char) : Except Fault (List Token) :=
  if cs.all isAllowed then
    { cursor := withoutMark ⟨unifyBreaks cs, {}⟩ : Lexer }.readAll (cs.length + 1)
  else .error .malformed

end SchemaTypes.Yaml
