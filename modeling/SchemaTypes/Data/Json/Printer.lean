/-
# Values as JSON

`Value.json` writes a value on one line, with or without blanks behind commas and colons, or over
several lines with a fixed number of spaces for each level.  Every character of a text but the
quote, the backslash and the controls stands for itself.  Keys that are no texts are written as the
text of their JSON form.  Stamps, bytes and sets have no form in JSON, neither have values that
contain themselves and texts with half of a surrogate pair.  A whole number with more than
`Numeral.lengthLimit` digits is not written, and no more lists and maps inside each other than there
is room for.  The first such part is the reason why a value is not written (`Json.Obstacle`).
-/
import SchemaTypes.Data.Value

namespace SchemaTypes

/-! ## 1. Texts and numbers -/

namespace Json

/-- A hexadecimal digit. -/
def hexDigit (n : Nat) : Char := Nat.digitChar (n % 16)

/-- The form of a character inside a text. -/
def escapeChar (c : Char) : List Char :=
  if c = '"' then ['\\', '"']
  else if c = '\\' then ['\\', '\\']
  else if c = '\n' then ['\\', 'n']
  else if c = '\r' then ['\\', 'r']
  else if c = '\t' then ['\\', 't']
  else if c = '\x08' then ['\\', 'b']
  else if c = '\x0c' then ['\\', 'f']
  else if c.toNat < 0x20 then
    ['\\', 'u', '0', '0', hexDigit (c.toNat / 16), hexDigit c.toNat]
  else [c]

/-- A text between double quotes. -/
def textChars (cs : List Char) : List Char := '"' :: (cs.flatMap escapeChar ++ ['"'])

/-- A text between double quotes. -/
def text (s : String) : String := String.ofList (textChars s.toList)

/-- A double: the shortest text that reads back, or the name of an unbounded value. -/
def real : Double → String
  | .notANumber => "NaN"
  | .infinite negative => if negative then "-Infinity" else "Infinity"
  | d => d.text

/-- Why a value is not written: it has no form in JSON, or it is beyond the limits of writing. -/
inductive Obstacle where
  | kind
  | endless
  | halfText
  | overlong
  | tooDeep
deriving DecidableEq, Repr

/-- A whole number. -/
def whole (i : Int) : Except Obstacle String :=
  match Numeral.text? i with
  | some s => .ok s
  | none => .error .overlong

/-- The text of a key, for the kinds of keys that have one. -/
def key : Key → Except Obstacle String
  | .text s => .ok s
  | .null => .ok "null"
  | .bool b => .ok (if b then "true" else "false")
  | .int i => whole i
  | .real d => .ok (real d)
  | .halfText => .error .halfText
  | .stamp _ => .error .kind
  | .bytes _ => .error .kind

/-! ## 2. Layout -/

/-- How a value is laid out: on one line without or with blanks, or `width` spaces deeper on each
level. -/
inductive Layout where
  | compact
  | spaced
  | indented (width : Nat)
deriving DecidableEq, Repr

/-- What stands before an item on the given level. -/
def Layout.lead (l : Layout) (level : Nat) : String :=
  match l with
  | .compact => ""
  | .spaced => ""
  | .indented w => String.ofList ('\n' :: List.replicate (w * level) ' ')

/-- What stands between two items on the given level. -/
def Layout.comma (l : Layout) (level : Nat) : String :=
  match l with
  | .spaced => ", "
  | l => "," ++ l.lead level

/-- What stands between a key and its value. -/
def Layout.colon : Layout → String
  | .compact => ":"
  | .spaced => ": "
  | .indented _ => ": "

/-- Items on the level below `level` between brackets; nothing stands between empty brackets. -/
def Layout.enclose (l : Layout) (level : Nat) (opening closing : String)
    (items : List String) : String :=
  if items.isEmpty then opening ++ closing
  else
    opening ++ l.lead (level + 1) ++ String.intercalate (l.comma (level + 1)) items
      ++ l.lead level ++ closing

end Json

/-! ## 3. Values -/

open Json in
mutual

/-- The JSON form of a value on a level, where at most `room` collections may stand inside each
other. -/
def Value.jsonAt (room : Nat) (l : Layout) (level : Nat) : Value → Except Obstacle String
  | .null => .ok "null"
  | .bool b => .ok (if b then "true" else "false")
  | .int i => whole i
  | .real d => .ok (Json.real d)
  | .text s => .ok (Json.text s)
  | .halfText => .error .halfText
  | .stamp _ => .error .kind
  | .bytes _ => .error .kind
  | .list items =>
    if room ≤ level then .error .tooDeep
    else (Value.jsonItems room l (level + 1) items).map (l.enclose level "[" "]")
  | .pair a b =>
    if room ≤ level then .error .tooDeep
    else do
      let first ← Value.jsonAt room l (level + 1) a
      let second ← Value.jsonAt room l (level + 1) b
      return l.enclose level "[" "]" [first, second]
  | .set _ => .error .kind
  | .map entries =>
    if room ≤ level then .error .tooDeep
    else (Value.jsonEntries room l (level + 1) entries).map (l.enclose level "\x7b" "\x7d")
  | .endless => .error .endless

/-- The JSON forms of the items of a list. -/
def Value.jsonItems (room : Nat) (l : Layout) (level : Nat) :
    List Value → Except Obstacle (List String)
  | [] => .ok []
  | v :: r => do
    let s ← Value.jsonAt room l level v
    let rest ← Value.jsonItems room l level r
    return s :: rest

/-- The JSON forms of the entries of a map. -/
def Value.jsonEntries (room : Nat) (l : Layout) (level : Nat) :
    List (Key × Value) → Except Obstacle (List String)
  | [] => .ok []
  | (k, v) :: r => do
    let name ← Json.key k
    let s ← Value.jsonAt room l level v
    let rest ← Value.jsonEntries room l level r
    return (Json.text name ++ l.colon ++ s) :: rest

end

namespace Value

/-- The JSON form of a value, where at most `room` collections may stand inside each other. -/
def json (v : Value) (room : Nat) (l : Json.Layout) : Except Json.Obstacle String :=
  v.jsonAt room l 0

end Value

namespace Json

/-- A list of texts on one line. -/
def texts (xs : List String) : String :=
  Layout.enclose .compact 0 "[" "]" (xs.map text)

/-- A map from texts to texts, one entry a line or on one line. -/
def textMap (l : Layout) (xs : List (String × String)) : String :=
  l.enclose 0 "\x7b" "\x7d" (xs.map fun x => text x.1 ++ l.colon ++ text x.2)

end Json

end SchemaTypes
