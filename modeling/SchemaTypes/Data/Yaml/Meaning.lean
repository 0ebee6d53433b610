/-
# What scalars stand for

The value of a scalar with a tag (`scalarValue`).  A text without a written tag always has the
form that its tag asks for; it may still be no value, since a date can lie outside the calendar.
With a written tag the digits of a number may be those of any script.
-/
import SchemaTypes.Data.Base64
import SchemaTypes.Data.Yaml.Quoted
import SchemaTypes.Data.Yaml.Tag
import SchemaTypes.Text.Blank
import SchemaTypes.Text.Digit
import SchemaTypes.Text.Quoted
import SchemaTypes.Text.Search

namespace SchemaTypes.Yaml

open SchemaTypes.Text (isDigit isWhiteSpace quotedText trimBy)
open SchemaTypes.Numeral (asciiLower digitsValue lengthLimit overlongText plainReal? takeSign)

/-! ## 1. Whole numbers -/

/-- The text without white space around it and with ASCII digits. -/
def asciiNumeral (cs : List Char) : List Char := (trimBy isWhiteSpace cs).map Text.asciiDigit

/-- The value of a digit, of any case, to a base of at most sixteen. -/
def digitValue? (base : Nat) (c : Char) : Option Nat :=
  let n? :=
    if isDigit c then some (c.toNat - '0'.toNat)
    else if 'a' ≤ c && c ≤ 'f' then some (c.toNat - 'a'.toNat + 10)
    else if 'A' ≤ c && c ≤ 'F' then some (c.toNat - 'A'.toNat + 10)
    else none
  n?.filter (· < base)

/-- The letters that can stand behind a zero in front of the digits to a base. -/
def marksOf (base : Nat) : List Char :=
  match base with
  | 2 => ['b', 'B']
  | 8 => ['o', 'O']
  | 16 => ['x', 'X']
  | _ => []

/-- Takes the mark of a base off the front. -/
def dropMark (base : Nat) (cs : List Char) : List Char :=
  match cs with
  | '0' :: c :: rest => if (marksOf base).contains c then rest else cs
  | _ => cs

/-- The message about a text that is no number to a base; it shows the beginning of the text. -/
def notANumberText (base : Nat) (cs : List Char) : String :=
  "invalid literal for int() with base " ++ toString base ++ ": "
    ++ String.ofList ((quotedText (String.ofList cs)).toList.take 200)

/-- The number of a text to a base, with an optional sign and an optional mark. -/
def intIn (base : Nat) (text : List Char) : Except Fault Int :=
  let (negative, cs) := takeSign (asciiNumeral text)
  let ds := dropMark base cs
  let count := (ds.takeWhile fun c => (digitValue? base c).isSome).length
  if base = 10 && lengthLimit < count then .error (.unusable (overlongText count))
  else
    match ds.mapM (digitValue? base) with
    | some (d :: r) =>
      let n := Int.ofNat ((d :: r).foldl (fun n x => n * base + x) 0)
      .ok (if negative then -n else n)
    | _ => .error (.unusable (notANumberText base text))

/-- The number with the digits `ds` to the base sixty. -/
def sixtiesOf (ds : List Int) : Int := ds.foldl (fun n d => n * 60 + d) 0

/-- A whole number behind its sign; a zero in front stands for the base eight. -/
def unsignedInt (cs : List Char) : Except Fault Int :=
  match cs with
  | [] => .error .noDigits
  | ['0'] => .ok 0
  | '0' :: 'b' :: r => intIn 2 r
  | '0' :: 'x' :: r => intIn 16 r
  | '0' :: _ => intIn 8 cs
  | _ =>
    if cs.contains ':' then sixtiesOf <$> (Text.splitOn ':' cs).mapM (intIn 10) else intIn 10 cs

/-- Without the lines between digits. -/
def withoutLines (cs : List Char) : List Char := cs.filter (· != '_')

/-- The whole number of a text. -/
def intOf (s : String) : Except Fault Int := do
  let (negative, digits) := takeSign (withoutLines s.toList)
  let n ← unsignedInt digits
  return if negative then -n else n

/-! ## 2. Numbers with a point -/

/-- The number of a text; white space around it does not count. -/
def plainRealOf (cs : List Char) : Except Fault Double :=
  match plainReal? (asciiNumeral cs) with
  | some d => .ok d
  | none =>
    .error (.unusable ("could not convert string to float: " ++ quotedText (String.ofList cs)))

/-- The nearest number to a ratio. -/
def ofRatio (i : Int) (den : Nat) : Double := Double.ofRatio (decide (i < 0)) i.natAbs den

/-- The nearest number to a product with a finite one. -/
def times (d e : Double) : Double :=
  match d.scaled?, e.scaled? with
  | some i, some j => ofRatio (i * j) (Double.unitsPerOne * Double.unitsPerOne)
  | _, _ => d

/-- The nearest number to a sum. -/
def plus (d e : Double) : Double :=
  match d.scaled?, e.scaled? with
  | some i, some j => ofRatio (i + j) Double.unitsPerOne
  | none, some _ => d
  | some _, none => e
  | none, none => if d = e then d else .notANumber

/-- Adds up numbers to the base sixty, the last one first. -/
def sixtiesReal (base : Nat) (sum : Double) : List Double → Except Fault Double
  | [] => .ok sum
  | d :: rest =>
    match Double.ofInt base with
    | .finite s m q => sixtiesReal (base * 60) (plus sum (times d (.finite s m q))) rest
    | _ => .error .tooLarge

/-- The number with the other sign. -/
def negate : Double → Double
  | .finite negative m q => .finite (!negative) m q
  | .infinite negative => .infinite (!negative)
  | .notANumber => .notANumber

/-- The number with a point of a text. -/
def realOf (s : String) : Except Fault Double := do
  let cs := Text.lower (withoutLines s.toList)
  if cs.isEmpty then .error .noDigits
  let (negative, cs) := takeSign cs
  let d ←
    if cs == ".inf".toList then pure (Double.infinite false)
    else if cs == ".nan".toList then pure Double.notANumber
    else if cs.contains ':' then do
      let ds ← (Text.splitOn ':' cs).mapM plainRealOf
      sixtiesReal 1 (.ofInt 0) ds.reverse
    else plainRealOf cs
  return if negative then negate d else d

/-! ## 3. Stamps -/

/-- The year has a day more. -/
def isLeapYear (year : Nat) : Bool := year % 4 = 0 && (year % 100 != 0 || year % 400 = 0)

/-- How many days a month has. -/
def daysIn (year month : Nat) : Nat :=
  if month = 2 then (if isLeapYear year then 29 else 28)
  else if [4, 6, 9, 11].contains month then 30
  else 31

/-- The date is in the calendar. -/
def checkDay (year month day : Nat) : Except Fault Unit :=
  if year = 0 then .error (.unusable "year 0 is out of range")
  else if month < 1 || 12 < month then .error (.unusable "month must be in 1..12")
  else if day < 1 || daysIn year month < day then
    .error (.unusable "day is out of range for month")
  else .ok ()

/-- The time is on the clock. -/
def checkClock (hour minute second : Nat) : Except Fault Unit :=
  if 23 < hour then .error (.unusable "hour must be in 0..23")
  else if 59 < minute then .error (.unusable "minute must be in 0..59")
  else if 59 < second then .error (.unusable "second must be in 0..59")
  else .ok ()

/-- A number of minutes of a day or more in days and seconds. -/
def minutesText (minutes : Int) : String :=
  let days := minutes.fdiv 1440
  let seconds := (minutes.fmod 1440) * 60
  "days=" ++ toString days ++ (if seconds = 0 then "" else ", seconds=" ++ toString seconds)

/-- The distance from universal time in minutes, less than a day. -/
def offsetOf (negative : Bool) (hours minutes : Nat) : Except Fault Int :=
  let n := Int.ofNat (hours * 60 + minutes)
  let n := if negative then -n else n
  if n.natAbs < 1440 then .ok n
  else
    .error (.unusable ("offset must be a timedelta strictly between -timedelta(hours=24) and "
      ++ "timedelta(hours=24), not datetime.timedelta(" ++ minutesText n ++ ")."))

/-- Fractions of a second in millionths; further digits are dropped. -/
def microsOf (fraction : List Char) : Nat :=
  let ds := fraction.take 6
  digitsValue ds * Nat.pow 10 (6 - ds.length)

/-- The stamp of a text. -/
def stampOf (s : String) : Except Fault Stamp :=
  match readStamp? (dropFinalBreak s.toList) with
  | none => .error .notAStamp
  | some t =>
    match t.clock with
    | none => do
      checkDay t.year t.month t.day
      return .day t.year t.month t.day
    | some (hour, minute, second, fraction) => do
      let offset ←
        match t.offset with
        | some (negative, hours, minutes) => some <$> offsetOf negative hours minutes
        | none => pure none
      checkDay t.year t.month t.day
      checkClock hour minute second
      return .moment t.year t.month t.day hour minute second (microsOf fraction) offset

/-! ## 4. Scalars -/

/-- The truth value of a word. -/
def boolOf (s : String) : Except Fault Bool :=
  let word := asciiLower s
  if ["yes", "true", "on"].contains word then .ok true
  else if ["no", "false", "off"].contains word then .ok false
  else .error .unknownWord

/-- The bytes of a text in base 64. -/
def bytesOf (s : String) : Except Fault (List UInt8) :=
  let cs := s.toList
  if cs.all fun c => c.toNat < 0x80 then
    match Base64.decode cs with
    | some bs => .ok bs
    | none => .error .malformed
  else .error .malformed

/-- The value of a text. -/
def textValue (t : Spelling) : Value := if t.isHalf then .halfText else .text t.text

/-- The value of a scalar.  A sign for keys is no value, and neither is a scalar with the tag of a
collection or a tag without a meaning. -/
def scalarValue (tag : Tag) (t : Spelling) : Except Fault Value :=
  match tag with
  | .null => .ok .null
  | .bool => .bool <$> boolOf t.text
  | .int => .int <$> intOf t.text
  | .real => .real <$> realOf t.text
  | .stamp => .stamp <$> stampOf t.text
  | .text => .ok (textValue t)
  | .bytes => .bytes <$> bytesOf t.text
  | _ => .error .malformed

/-- A text stands for itself. -/
@[simp] theorem scalarValue_text (s : String) : scalarValue .text ⟨s, false⟩ = .ok (.text s) := rfl

end SchemaTypes.Yaml
