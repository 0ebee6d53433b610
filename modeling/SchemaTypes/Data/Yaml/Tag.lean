/-
# Tags of YAML values

What kind of value a node stands for.  A tag may be written out; a plain scalar without one has
the tag that its text asks for (`Tag.ofPlain`): a word for yes or no, a number, nothing, a
calendar stamp, one of two signs for keys, or else a text.
-/
import SchemaTypes.Number.Numeral

namespace SchemaTypes.Yaml

open SchemaTypes.Text (isDigit)

/-- The kind of a value. -/
inductive Tag where
  | null
  | bool
  | int
  | real
  | stamp
  | text
  | bytes
  | merge
  | value
  | list
  | map
  | set
  | orderedMap
  | pairs
  | other (name : String)
deriving DecidableEq, Repr, Inhabited

/-- What the full names of tags begin with. -/
def tagStart : String := "tag:yaml.org,2002:"

/-- The tags that have a meaning, with the ends of their full names. -/
def knownTags : List (String × Tag) := [
  ("null", .null), ("bool", .bool), ("int", .int), ("float", .real), ("timestamp", .stamp),
  ("str", .text), ("binary", .bytes), ("merge", .merge), ("value", .value), ("seq", .list),
  ("map", .map), ("set", .set), ("omap", .orderedMap), ("pairs", .pairs)]

/-- The tag of a full name. -/
def Tag.ofName (name : String) : Tag :=
  match knownTags.find? fun t => tagStart ++ t.1 == name with
  | some t => t.2
  | none => .other name

/-- The tag belongs to a collection. -/
def Tag.isCollection : Tag → Bool
  | .list | .map | .set | .orderedMap | .pairs => true
  | _ => false

/-- The tag belongs to a scalar with a meaning. -/
def Tag.isScalar : Tag → Bool
  | .null | .bool | .int | .real | .stamp | .text | .bytes => true
  | _ => false

/-! ## 1. Numbers -/

/-- A digit, or the line that may stand between digits. -/
def isDigitOrLine (c : Char) : Bool := isDigit c || c == '_'

/-- Takes a sign off the front. -/
def dropSign : List Char → List Char
  | '+' :: r => r
  | '-' :: r => r
  | cs => cs

/-- Takes a digit and the digits and lines behind it off the front. -/
def dropNumber? : List Char → Option (List Char)
  | c :: r => if isDigit c then some (r.dropWhile isDigitOrLine) else none
  | [] => none

/-- Takes groups of a colon and a number below sixty off the front. -/
def dropSixties : List Char → Nat → List Char
  | cs, 0 => cs
  | ':' :: r, fuel + 1 =>
    match r.takeWhile isDigit with
    | [_] => dropSixties (r.drop 1) fuel
    | [t, _] => if t ≤ '5' then dropSixties (r.drop 2) fuel else ':' :: r
    | _ => ':' :: r
  | cs, _ + 1 => cs

/-- Nothing, or an exponent with its sign. -/
def isExponentTail : List Char → Bool
  | [] => true
  | e :: s :: r => (e == 'e' || e == 'E') && (s == '+' || s == '-') && !r.isEmpty && r.all isDigit
  | _ => false

/-- A point, with digits and lines behind it. -/
def isPointTail : List Char → Bool
  | '.' :: r => r.all isDigitOrLine
  | _ => false

/-- An unsigned number that begins with a digit and has a point. -/
def isPointedText (cs : List Char) : Bool :=
  match dropNumber? cs with
  | some ('.' :: r) => isExponentTail (r.dropWhile isDigitOrLine)
  | some (':' :: r) =>
    let rest := dropSixties (':' :: r) (r.length + 1)
    rest.length < r.length + 1 && isPointTail rest
  | _ => false

/-- A number that begins with a point. -/
def isFractionText : List Char → Bool
  | '.' :: r => (dropNumber? r).any isExponentTail
  | _ => false

/-- The spellings of infinity. -/
def infinityTexts : List String := [".inf", ".Inf", ".INF"]

/-- The spellings of no number. -/
def notANumberTexts : List String := [".nan", ".NaN", ".NAN"]

/-- The text is a number with a point. -/
def isRealText (cs : List Char) : Bool :=
  isPointedText (dropSign cs) || isFractionText cs
    || infinityTexts.contains (String.ofList (dropSign cs))
    || notANumberTexts.contains (String.ofList cs)

/-- A binary digit or a line. -/
def isBinaryDigit (c : Char) : Bool := c == '0' || c == '1' || c == '_'

/-- An octal digit or a line. -/
def isOctalDigit (c : Char) : Bool := ('0' ≤ c && c ≤ '7') || c == '_'

/-- A hexadecimal digit or a line. -/
def isHexDigit (c : Char) : Bool :=
  isDigitOrLine c || ('a' ≤ c && c ≤ 'f') || ('A' ≤ c && c ≤ 'F')

/-- The text is a whole number: binary, octal, hexadecimal, decimal, or to the base sixty. -/
def isIntText (cs : List Char) : Bool :=
  match dropSign cs with
  | ['0'] => true
  | '0' :: 'b' :: r => !r.isEmpty && r.all isBinaryDigit
  | '0' :: 'x' :: r => !r.isEmpty && r.all isHexDigit
  | '0' :: r => r.all isOctalDigit
  | cs =>
    match dropNumber? cs with
    | some r => (dropSixties r (r.length + 1)).isEmpty
    | none => false

/-! ## 2. Stamps -/

/-- The numbers of a stamp as they were written. -/
structure StampText where
  year : Nat
  month : Nat
  day : Nat
  clock : Option (Nat × Nat × Nat × List Char) := none
  offset : Option (Bool × Nat × Nat) := none
deriving DecidableEq, Repr

/-- Takes between `least` and `most` digits off the front. -/
def takeNumber? (least most : Nat) (cs : List Char) : Option (Nat × List Char) :=
  let ds := (cs.take most).takeWhile isDigit
  if ds.length < least then none else some (Numeral.digitsValue ds, cs.drop ds.length)

/-- Takes a character off the front. -/
def takeChar? (c : Char) : List Char → Option (List Char)
  | d :: r => if d = c then some r else none
  | [] => none

/-- A distance from universal time up to the end of the text; a letter stands for none. -/
def readOffset? : List Char → Option (Bool × Nat × Nat)
  | ['Z'] => some (false, 0, 0)
  | s :: r => do
    guard (s = '+' || s = '-')
    let (hours, r) ← takeNumber? 1 2 r
    match r with
    | [] => return (s == '-', hours, 0)
    | ':' :: r => do
      let (minutes, r) ← takeNumber? 2 2 r
      guard r.isEmpty
      return (s == '-', hours, minutes)
    | _ => none
  | [] => none

/-- A space or a tab. -/
def isStampGap (c : Char) : Bool := c == ' ' || c == '\t'

/-- Takes what stands between a date and a time off the front. -/
def takeStampGap? : List Char → Option (List Char)
  | [] => none
  | c :: r =>
    if c = 'T' || c = 't' then some r
    else if isStampGap c then some (r.dropWhile isStampGap)
    else none

/-- Reads a time and the distance behind it. -/
def readClock? (cs : List Char) :
    Option ((Nat × Nat × Nat × List Char) × Option (Bool × Nat × Nat)) := do
  let (hour, r) ← takeNumber? 1 2 cs
  let (minute, r) ← takeNumber? 2 2 (← takeChar? ':' r)
  let (second, r) ← takeNumber? 2 2 (← takeChar? ':' r)
  let (fraction, r) :=
    match r with
    | '.' :: r => (r.takeWhile isDigit, r.dropWhile isDigit)
    | r => ([], r)
  if r.isEmpty then return ((hour, minute, second, fraction), none)
  else
    let offset ← readOffset? (r.dropWhile isStampGap)
    return ((hour, minute, second, fraction), some offset)

/-- Reads a date, alone or with a time. -/
def readStamp? (cs : List Char) : Option StampText := do
  let (year, r) ← takeNumber? 4 4 cs
  let (month, r) ← takeNumber? 1 2 (← takeChar? '-' r)
  let (day, r) ← takeNumber? 1 2 (← takeChar? '-' r)
  if r.isEmpty then return { year := year, month := month, day := day }
  else
    let (clock, offset) ← readClock? (← takeStampGap? r)
    return { year := year, month := month, day := day, clock := some clock, offset := offset }

/-- The text is a stamp; a date alone has two digits for the month and for the day. -/
def isStampText (cs : List Char) : Bool :=
  (readStamp? cs).any fun s => s.clock.isSome || cs.length == 10

/-! ## 3. Plain scalars -/

/-- The words for yes. -/
def yesTexts : List String :=
  ["yes", "Yes", "YES", "true", "True", "TRUE", "on", "On", "ON"]

/-- The words for no. -/
def noTexts : List String :=
  ["no", "No", "NO", "false", "False", "FALSE", "off", "Off", "OFF"]

/-- The spellings of nothing. -/
def nullTexts : List String := ["", "~", "null", "Null", "NULL"]

/-- The signs that no plain scalar can be; they have a tag without a meaning. -/
def signTexts : List String := ["!", "&", "*"]

/-- Drops a line break at the end, unless nothing else is there. -/
def dropFinalBreak (cs : List Char) : List Char :=
  if cs.getLast? = some '\n' && 1 < cs.length then cs.dropLast else cs

/-- The tag that a text asks for; a line break at its end does not count. -/
def Tag.ofPlain (s : String) : Tag :=
  let cs := dropFinalBreak s.toList
  let s := String.ofList cs
  if yesTexts.contains s || noTexts.contains s then .bool
  else if nullTexts.contains s then .null
  else if s == "<<" then .merge
  else if s == "=" then .value
  else if signTexts.contains s then .other (tagStart ++ "yaml")
  else if isRealText cs then .real
  else if isIntText cs then .int
  else if isStampText cs then .stamp
  else .text

example : Tag.ofPlain "1e3" = .text := by decide +kernel
example : Tag.ofPlain "12:30" = .int := by decide +kernel
example : Tag.ofPlain "1_000.5" = .real := by decide +kernel

/-- A name that is none of the known ones stands for itself. -/
theorem Tag.ofName_other {name : String}
    (h : ∀ t ∈ knownTags, tagStart ++ t.1 ≠ name) : Tag.ofName name = .other name := by
  unfold Tag.ofName
  rw [List.find?_eq_none.2 (by simpa using h)]

end SchemaTypes.Yaml
