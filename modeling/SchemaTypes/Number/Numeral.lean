/-
# Numerals

Numbers as texts: digits with an optional sign, point and exponent, or a word for infinity or for
no number.  A numeral with a point or an exponent stands for the nearest double; a whole one has at
most `lengthLimit` digits, whether it is read or written (`text?`).
-/
import SchemaTypes.Number.Double
import SchemaTypes.Text.Case

namespace SchemaTypes.Numeral

open SchemaTypes.Text (isDigit)

/-- The small form of ASCII letters, other characters as they are. -/
def asciiLower (s : String) : String :=
  String.ofList (s.toList.map fun c => if Text.isCapital c then Char.ofNat (c.toNat + 32) else c)

/-- Takes a sign off the front. -/
def takeSign : List Char → Bool × List Char
  | '-' :: r => (true, r)
  | '+' :: r => (false, r)
  | cs => (false, cs)

/-- The most digits of a whole number in decimal notation. -/
def lengthLimit : Nat := 4300

/-- What every message about too many digits says. -/
def limitText : String :=
  "Exceeds the limit (" ++ toString lengthLimit ++ " digits) for integer string conversion"

/-- How every message about too many digits ends. -/
def limitAdvice : String := "; use sys.set_int_max_str_digits() to increase the limit"

/-- The message about a numeral that is too long to be read. -/
def overlongText (digits : Nat) : String :=
  limitText ++ ": value has " ++ toString digits ++ " digits" ++ limitAdvice

/-- The message about a number that is too long to be written. -/
def unwritableText : String := limitText ++ limitAdvice

/-- A whole number with at most `lengthLimit` digits. -/
def IsShort (i : Int) : Prop := i.natAbs < Nat.pow 10 lengthLimit

instance : DecidablePred IsShort := fun _ => inferInstanceAs (Decidable (_ < _))

/-- The text of a whole number, unless it is too long to be written. -/
def text? (i : Int) : Option String := if IsShort i then some (toString i) else none

/-- The value of a list of decimal digits. -/
def digitsValue (ds : List Char) : Nat := ds.foldl (fun n c => n * 10 + (c.toNat - 48)) 0

/-- The exponent of a numeral: nothing, or the letter with a whole number after it. -/
def exponentOf? : List Char → Option Int
  | [] => some 0
  | c :: r =>
    if c = 'e' || c = 'E' then
      let (negative, ds) := takeSign r
      if !ds.isEmpty && ds.all isDigit then
        let n := Int.ofNat (digitsValue ds)
        some (if negative then -n else n)
      else none
    else none

/-- The digits after a point, if there is one, and what follows. -/
def splitPoint : List Char → List Char × List Char
  | '.' :: r => (r.takeWhile isDigit, r.dropWhile isDigit)
  | cs => ([], cs)

/-- The double that an unsigned plain numeral stands for. -/
def unsignedReal? (negative : Bool) (cs : List Char) : Option Double :=
  let whole := cs.takeWhile isDigit
  let (fraction, r) := splitPoint (cs.dropWhile isDigit)
  if whole.isEmpty && fraction.isEmpty then none
  else (exponentOf? r).map fun e =>
    Double.ofDecimal negative (digitsValue (whole ++ fraction)) (e - Int.ofNat fraction.length)

/-- The double that a text without blanks stands for. -/
def plainReal? (cs : List Char) : Option Double :=
  let (negative, r) := takeSign cs
  let word := asciiLower (String.ofList r)
  if word == "inf" || word == "infinity" then some (.infinite negative)
  else if word == "nan" then some .notANumber
  else unsignedReal? negative r

/-! ## Small laws -/

/-- Digits are read from the left. -/
theorem digitsValue_append (xs : List Char) (c : Char) :
    digitsValue (xs ++ [c]) = digitsValue xs * 10 + (c.toNat - 48) := by
  simp [digitsValue, List.foldl_append]

end SchemaTypes.Numeral
