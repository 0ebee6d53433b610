/-
# Texts in a message

A text that a message shows between quotes: single quotes, or double quotes when the text holds a
single quote and no double one.  The quote in use and the backslash are escaped, line breaks and
tabs are written as letters, and other characters without a picture by their code point.  A whole
number with more than `Numeral.lengthLimit` digits is not shown at all.
-/
import SchemaTypes.Text.Printable
import SchemaTypes.Data.Value

namespace SchemaTypes.Text

/-- A number in hexadecimal digits of a fixed width. -/
def hexPadded (width n : Nat) : List Char :=
  let ds := Nat.toDigits 16 n
  List.replicate (width - ds.length) '0' ++ ds

/-- The form of a character between the quotes `q`. -/
def quotedChar (q : Char) (c : Char) : List Char :=
  if c = q || c = '\\' then ['\\', c]
  else if c = '\n' then ['\\', 'n']
  else if c = '\r' then ['\\', 'r']
  else if c = '\t' then ['\\', 't']
  else if isPrintable c then [c]
  else if c.toNat < 0x100 then '\\' :: 'x' :: hexPadded 2 c.toNat
  else if c.toNat < 0x10000 then '\\' :: 'u' :: hexPadded 4 c.toNat
  else '\\' :: 'U' :: hexPadded 8 c.toNat

/-- The quote around a text. -/
def quoteOf (cs : List Char) : Char :=
  if cs.contains '\'' && !cs.contains '"' then '"' else '\''

/-- A text between quotes. -/
def quotedText (s : String) : String :=
  let cs := s.toList
  let q := quoteOf cs
  String.ofList (q :: (cs.flatMap (quotedChar q) ++ [q]))

/-- A list of texts between brackets. -/
def quotedTexts (xs : List String) : String :=
  "[" ++ String.intercalate ", " (xs.map quotedText) ++ "]"

/-- The form of a byte between the quotes `q`. -/
def quotedByte (q : Char) (b : UInt8) : List Char :=
  if b < 0x7F then quotedChar q (Char.ofNat b.toNat) else '\\' :: 'x' :: hexPadded 2 b.toNat

/-- Bytes between quotes, those of ASCII characters as the characters. -/
def quotedBytes (bs : List UInt8) : String :=
  let q := quoteOf (bs.map fun b => Char.ofNat b.toNat)
  "b" ++ String.ofList (q :: (bs.flatMap (quotedByte q) ++ [q]))

end SchemaTypes.Text

namespace SchemaTypes

/-- A key inside a list or map that a message shows, unless it is too long to be shown. -/
def Key.shown? : Key → Option String
  | .null => some "None"
  | .bool b => some (if b then "True" else "False")
  | .int i => Numeral.text? i
  | .real d => some d.text
  | .text s => some (Text.quotedText s)
  | .halfText => some "'\uFFFD'"
  | .stamp t => some t.shown
  | .bytes bs => some (Text.quotedBytes bs)

mutual

/-- A value inside a list or map that a message shows, unless a number in it is too long to be
shown. -/
def Value.shown? : Value → Option String
  | .null => some "None"
  | .bool b => some (if b then "True" else "False")
  | .int i => Numeral.text? i
  | .real d => some d.text
  | .text s => some (Text.quotedText s)
  | .halfText => some "'\uFFFD'"
  | .stamp t => some t.shown
  | .bytes bs => some (Text.quotedBytes bs)
  | .list items =>
    (Value.shownItems? items).map fun ts => "[" ++ String.intercalate ", " ts ++ "]"
  | .pair a b => do return "(" ++ (← Value.shown? a) ++ ", " ++ (← Value.shown? b) ++ ")"
  | .set [] => some "set()"
  | .set members =>
    (members.mapM Key.shown?).map fun ts => "\x7b" ++ String.intercalate ", " ts ++ "\x7d"
  | .map entries =>
    (Value.shownEntries? entries).map fun ts => "\x7b" ++ String.intercalate ", " ts ++ "\x7d"
  | .endless => some "..."

/-- The items of a list. -/
def Value.shownItems? : List Value → Option (List String)
  | [] => some []
  | v :: r => do return (← Value.shown? v) :: (← Value.shownItems? r)

/-- The entries of a map. -/
def Value.shownEntries? : List (Key × Value) → Option (List String)
  | [] => some []
  | (k, v) :: r => do
    return ((← k.shown?) ++ ": " ++ (← Value.shown? v)) :: (← Value.shownEntries? r)

end

/-- A value as a message shows it: a text or a stamp as it is, any other value with the quotes of
its parts. -/
def Value.display? : Value → Option String
  | .text s => some s
  | .stamp t => some t.text
  | v => v.shown?

/-- A key as a message shows it. -/
def Key.display? (k : Key) : Option String := k.value.display?

end SchemaTypes
