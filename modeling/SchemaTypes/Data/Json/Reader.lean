/-
# Reading JSON

`Json.read` reads one value and nothing else.  A failure names its cause and how many characters
were left (`Failure`); `Failure.message` turns that into a line, a column and an offset.  Numbers
with a fraction or an exponent are doubles, all others whole numbers; the names `NaN` and `Infinity`
are accepted; a repeated key keeps its first position and its last value.  The number of digits of
a whole number and the number of brackets that are open at a time (`Nesting.read`) are limited.

Every reading function takes the rest of the text and gives back what it leaves, so that a
position is a length.  The recursion is bounded by fuel, and `read` gives twice the length of the
text, which no text uses up.
-/
import SchemaTypes.Data.Value
import SchemaTypes.Number.Numeral

namespace SchemaTypes.Json

open SchemaTypes.Text (isDigit)

/-! ## 1. Failures -/

/-- Why a text is not JSON. -/
inductive Fault where
  | expectedValue
  | expectedName
  | expectedColon
  | expectedComma
  | unterminatedText
  | controlCharacter
  | badEscape
  | badUnicodeEscape
  | extraData
  | byteOrderMark
  | tooManyDigits (count : Nat)
  | tooDeep
deriving DecidableEq, Repr

/-- A cause, and how many characters are left from the place where it was found. -/
structure Failure where
  fault : Fault
  remaining : Nat
deriving DecidableEq, Repr

/-- What was found. -/
def Fault.text : Fault → String
  | .expectedValue => "Expecting value"
  | .expectedName => "Expecting property name enclosed in double quotes"
  | .expectedColon => "Expecting ':' delimiter"
  | .expectedComma => "Expecting ',' delimiter"
  | .unterminatedText => "Unterminated string starting at"
  | .controlCharacter => "Invalid control character at"
  | .badEscape => "Invalid \\escape"
  | .badUnicodeEscape => "Invalid \\uXXXX escape"
  | .extraData => "Extra data"
  | .byteOrderMark => "Unexpected UTF-8 BOM (decode using utf-8-sig)"
  | .tooManyDigits count => Numeral.overlongText count
  | .tooDeep => "Too many brackets are open"

/-- The failure with the line, the column and the offset of its place in the text. -/
def Failure.message (f : Failure) (whole : List Char) : String :=
  let offset := whole.length - f.remaining
  let before := whole.take offset
  let line := before.count '\n' + 1
  let column := (before.reverse.takeWhile (· != '\n')).length + 1
  f.fault.text ++ ": line " ++ toString line ++ " column " ++ toString column
    ++ " (char " ++ toString offset ++ ")"

/-! ## 2. Blanks, texts, numbers -/

/-- The four blanks of JSON. -/
def isSpace (c : Char) : Bool := c == ' ' || c == '\t' || c == '\n' || c == '\r'

/-- Drops blanks from the front. -/
def skipSpace (cs : List Char) : List Char := cs.dropWhile isSpace

/-- The value of a hexadecimal digit. -/
def hexValue? (c : Char) : Option Nat :=
  if '0' ≤ c && c ≤ '9' then some (c.toNat - 48)
  else if 'a' ≤ c && c ≤ 'f' then some (c.toNat - 87)
  else if 'A' ≤ c && c ≤ 'F' then some (c.toNat - 55)
  else none

/-- The value of four hexadecimal digits. -/
def hexValue4? (a b c d : Char) : Option Nat := do
  return (((← hexValue? a) * 16 + (← hexValue? b)) * 16 + (← hexValue? c)) * 16 + (← hexValue? d)

/-- The code unit opens a pair. -/
def isHighSurrogate (n : Nat) : Bool := 0xD800 ≤ n && n ≤ 0xDBFF

/-- The code unit closes a pair. -/
def isLowSurrogate (n : Nat) : Bool := 0xDC00 ≤ n && n ≤ 0xDFFF

/-- The character of a pair of code units. -/
def pairChar (high low : Nat) : Char :=
  Char.ofNat (0x10000 + (high - 0xD800) * 0x400 + (low - 0xDC00))

/-- The character that a one-letter escape stands for. -/
def plainEscape? : Char → Option Char
  | '"' => some '"'
  | '\\' => some '\\'
  | '/' => some '/'
  | 'b' => some '\x08'
  | 'f' => some '\x0c'
  | 'n' => some '\n'
  | 'r' => some '\r'
  | 't' => some '\t'
  | _ => none

/-- The characters of a text as far as it was read, the last one first, and whether half of a
surrogate pair stands in it. -/
structure Spelled where
  chars : List Char := []
  isHalf : Bool := false
deriving DecidableEq, Repr

namespace Spelled

/-- One character more. -/
def push (s : Spelled) (c : Char) : Spelled := { s with chars := c :: s.chars }

/-- One half of a surrogate pair more. -/
def pushHalf (s : Spelled) : Spelled := { s with isHalf := true }

/-- The key with the text. -/
def key (s : Spelled) : Key :=
  if s.isHalf then .halfText else .text (String.ofList s.chars.reverse)

end Spelled

/-- Reads a text after its opening quote.  `start` counts the characters left from the quote on. -/
def readText (start : Nat) (done : Spelled) :
    List Char → Except Failure (Spelled × List Char)
  | [] => .error ⟨.unterminatedText, start⟩
  | '"' :: r => .ok (done, r)
  | '\\' :: 'u' :: a :: b :: c :: d :: e :: r =>
    match hexValue4? a b c d with
    | none => .error ⟨.badUnicodeEscape, r.length + 6⟩
    | some n =>
      if isHighSurrogate n then
        match e, r with
        | '\\', 'u' :: a' :: b' :: c' :: d' :: f :: r' =>
          match hexValue4? a' b' c' d' with
          | none => .error ⟨.badUnicodeEscape, r'.length + 6⟩
          | some n' =>
            if isLowSurrogate n' then readText start (done.push (pairChar n n')) (f :: r')
            else readText start done.pushHalf ('\\' :: 'u' :: a' :: b' :: c' :: d' :: f :: r')
        | e, r => readText start done.pushHalf (e :: r)
      else if isLowSurrogate n then readText start done.pushHalf (e :: r)
      else readText start (done.push (Char.ofNat n)) (e :: r)
  | '\\' :: c :: r =>
    if c = 'u' then .error ⟨.badUnicodeEscape, r.length + 1⟩
    else match plainEscape? c with
      | some d => readText start (done.push d) r
      | none => .error ⟨.badEscape, r.length + 2⟩
  | ['\\'] => .error ⟨.unterminatedText, start⟩
  | c :: r =>
    if c.toNat < 0x20 then .error ⟨.controlCharacter, r.length + 1⟩
    else readText start (done.push c) r
termination_by cs => cs.length

/-- The value of a list of decimal digits. -/
def decimalValue (ds : List Char) : Nat := ds.foldl (fun n c => n * 10 + (c.toNat - 48)) 0

/-- A fraction: a point with at least one digit after it. -/
def splitFraction : List Char → List Char × List Char
  | '.' :: c :: r =>
    if isDigit c then ((c :: r).takeWhile isDigit, (c :: r).dropWhile isDigit)
    else ([], '.' :: c :: r)
  | cs => ([], cs)

/-- The sign of an exponent and what follows it. -/
def splitSign : List Char → Bool × List Char
  | '-' :: r => (true, r)
  | '+' :: r => (false, r)
  | cs => (false, cs)

/-- An exponent: the letter, an optional sign and at least one digit. -/
def splitExponent (cs : List Char) : Option Int × List Char :=
  match cs with
  | c :: r =>
    if c = 'e' || c = 'E' then
      let (negative, t) := splitSign r
      let ds := t.takeWhile isDigit
      if ds.isEmpty then (none, cs)
      else
        let n := Int.ofNat (decimalValue ds)
        (some (if negative then -n else n), t.dropWhile isDigit)
    else (none, cs)
  | [] => (none, [])

/-- The digits of a whole number: a zero alone, or digits that do not begin with one. -/
def splitWhole : List Char → List Char × List Char
  | '0' :: r => (['0'], r)
  | cs => (cs.takeWhile isDigit, cs.dropWhile isDigit)

/-- Reads an unsigned number and gives it the sign. -/
def readUnsigned (negative : Bool) (cs : List Char) : Option (Value × List Char) :=
  let (whole, r) := splitWhole cs
  if whole.isEmpty then none
  else
    let (fraction, r) := splitFraction r
    let (exponent, r) := splitExponent r
    let n := decimalValue whole
    if fraction.isEmpty && exponent.isNone then
      some (.int (if negative then -Int.ofNat n else Int.ofNat n), r)
    else
      let e := exponent.getD 0 - Int.ofNat fraction.length
      some (.real (Double.ofDecimal negative (decimalValue (whole ++ fraction)) e), r)

/-- The words that stand for a value. -/
def readWord : List Char → Option (Value × List Char)
  | 'n' :: 'u' :: 'l' :: 'l' :: r => some (.null, r)
  | 't' :: 'r' :: 'u' :: 'e' :: r => some (.bool true, r)
  | 'f' :: 'a' :: 'l' :: 's' :: 'e' :: r => some (.bool false, r)
  | 'N' :: 'a' :: 'N' :: r => some (.real .notANumber, r)
  | 'I' :: 'n' :: 'f' :: 'i' :: 'n' :: 'i' :: 't' :: 'y' :: r => some (.real (.infinite false), r)
  | '-' :: 'I' :: 'n' :: 'f' :: 'i' :: 'n' :: 'i' :: 't' :: 'y' :: r =>
    some (.real (.infinite true), r)
  | _ => none

/-- How many digits stand in front, behind an optional minus. -/
def wholeLength : List Char → Nat
  | '-' :: r => (splitWhole r).1.length
  | cs => (splitWhole cs).1.length

/-- Reads a word or a number. -/
def readAtom (cs : List Char) : Except Failure (Value × List Char) :=
  match readWord cs with
  | some x => .ok x
  | none =>
    let answer :=
      match cs with
      | '-' :: r => readUnsigned true r
      | cs => readUnsigned false cs
    match answer with
    | some (.int i, r) =>
      let count := wholeLength cs
      if Numeral.lengthLimit < count then .error ⟨.tooManyDigits count, cs.length⟩
      else .ok (.int i, r)
    | some x => .ok x
    | none => .error ⟨.expectedValue, cs.length⟩

/-! ## 3. Values -/

variable [Nesting]

mutual

/-- Reads the value at the front; `level` brackets are open. -/
def readValue : Nat → Nat → List Char → Except Failure (Value × List Char)
  | 0, _, cs => .error ⟨.expectedValue, cs.length⟩
  | fuel + 1, level, cs =>
    match cs with
    | '"' :: r => do
      let (s, r) ← readText cs.length {} r
      return (s.key.value, r)
    | '[' :: r =>
      if Nesting.read ≤ level then .error ⟨.tooDeep, cs.length⟩
      else match skipSpace r with
        | ']' :: r => .ok (.list [], r)
        | r => readItems fuel (level + 1) [] r
    | '{' :: r =>
      if Nesting.read ≤ level then .error ⟨.tooDeep, cs.length⟩
      else match skipSpace r with
        | '}' :: r => .ok (.map [], r)
        | r => readEntries fuel (level + 1) [] r
    | cs => readAtom cs

/-- Reads the items of a list up to its end; `done` holds those read, reversed. -/
def readItems : Nat → Nat → List Value → List Char → Except Failure (Value × List Char)
  | 0, _, _, cs => .error ⟨.expectedValue, cs.length⟩
  | fuel + 1, level, done, cs => do
    let (v, r) ← readValue fuel level cs
    match skipSpace r with
    | ']' :: r => return (.list (v :: done).reverse, r)
    | ',' :: r => readItems fuel level (v :: done) (skipSpace r)
    | r => .error ⟨.expectedComma, r.length⟩

/-- Reads the entries of a map up to its end; `done` holds those read, in order. -/
def readEntries :
    Nat → Nat → List (Key × Value) → List Char → Except Failure (Value × List Char)
  | 0, _, _, cs => .error ⟨.expectedValue, cs.length⟩
  | fuel + 1, level, done, cs =>
    match cs with
    | '"' :: r => do
      let (name, r) ← readText cs.length {} r
      match skipSpace r with
      | ':' :: r =>
        let (v, r) ← readValue fuel level (skipSpace r)
        let entries := putEntry name.key v done
        match skipSpace r with
        | '}' :: r => return (.map entries, r)
        | ',' :: r => readEntries fuel level entries (skipSpace r)
        | r => .error ⟨.expectedComma, r.length⟩
      | r => .error ⟨.expectedColon, r.length⟩
    | cs => .error ⟨.expectedName, cs.length⟩

end

/-- Reads a whole text as one value. -/
def readChars (cs : List Char) : Except Failure Value :=
  if cs.head? = some '\uFEFF' then .error ⟨.byteOrderMark, cs.length⟩
  else do
    let (v, r) ← readValue (2 * cs.length + 2) 0 (skipSpace cs)
    match skipSpace r with
    | [] => return v
    | r => .error ⟨.extraData, r.length⟩

/-- Reads a string as one value; a failure comes with its message. -/
def read (s : String) : Except String Value :=
  match readChars s.toList with
  | .ok v => .ok v
  | .error f => .error (f.message s.toList)

end SchemaTypes.Json
