/-
# The shortest decimal that reads back

`shortest` gives the fewest decimal digits from which a reader that rounds to nearest gets the
same double, and of several such numerals the nearest.  On the grid of the n-digit decimals only
the two neighbours of the value can read back, so the search asks for n = 1, 2, …, 17.

`Double.text` lays the digits out: positional notation while the leading digit stands for a power
from 10 ^ -4 to 10 ^ 15, with at least one digit after the point, else one digit before the point
and an exponent of at least two digits with its sign.
-/
import SchemaTypes.Number.Double

namespace SchemaTypes.Double

/-! ## 1. The digits -/

/-- A decimal numeral, `digits * 10 ^ exponent`. -/
structure Decimal where
  digits : Nat
  exponent : Int
deriving DecidableEq, Repr

/-- The power of ten of the leading digit of a positive quotient. -/
def leadingPower (num den : Nat) : Int :=
  if den ≤ num then Int.ofNat (digitCount (num / den)) - 1
  else Int.ofNat (digitCount (num * Nat.pow 10 400 / den)) - 401

/-- The numeral reads back as the double `m * 2 ^ q`. -/
def Decimal.readsBack (d : Decimal) (m : Nat) (q : Int) : Bool :=
  ofDecimal false d.digits d.exponent == .finite false m q

/-- The two neighbours of `num / den` among the multiples of `10 ^ unit`, the nearer first. -/
def neighbours (num den : Nat) (unit : Int) : List Decimal :=
  let n := if 0 ≤ unit then num else num * Nat.pow 10 (-unit).toNat
  let d := if 0 ≤ unit then den * Nat.pow 10 unit.toNat else den
  let low := n / d
  let rest := n % d
  let lowFirst := 2 * rest < d || (2 * rest == d && low % 2 == 0)
  if lowFirst then [⟨low, unit⟩, ⟨low + 1, unit⟩] else [⟨low + 1, unit⟩, ⟨low, unit⟩]

/-- The first numeral of at most `17` digits that reads back as `m * 2 ^ q`. -/
def shortest (m : Nat) (q : Int) : Decimal :=
  let (num, den) := ratio m q
  let top := leadingPower num den
  let candidates := (List.range 17).flatMap fun n => neighbours num den (top - Int.ofNat n)
  (candidates.find? (·.readsBack m q)).getD ⟨num / den, 0⟩

/-- Drops zeros from the end of a list of digits. -/
def dropZeros (ds : List Char) : List Char := (ds.reverse.dropWhile (· == '0')).reverse

/-! ## 2. The layout -/

/-- The exponent part: a sign and at least two digits. -/
def exponentText (e : Int) : String :=
  let ds := Nat.toDigits 10 e.natAbs
  (if e < 0 then "e-" else "e+") ++ (if ds.length < 2 then "0" else "") ++ String.ofList ds

/-- Lays out the digits of a positive number whose first digit stands for `10 ^ top`. -/
def layOut (ds : List Char) (top : Int) : String :=
  if top < -4 || 16 ≤ top then
    match ds with
    | [] => "0.0"
    | [d] => String.ofList [d] ++ exponentText top
    | d :: r => String.ofList (d :: '.' :: r) ++ exponentText top
  else if top < 0 then
    "0." ++ String.ofList (List.replicate (-top - 1).toNat '0' ++ ds)
  else
    let whole := (top + 1).toNat
    let before := ds.take whole ++ List.replicate (whole - ds.length) '0'
    let after := ds.drop whole
    String.ofList before ++ "." ++ (if after.isEmpty then "0" else String.ofList after)

/-- The shortest text of a double that reads back. -/
def text : Double → String
  | .notANumber => "nan"
  | .infinite negative => if negative then "-inf" else "inf"
  | .finite negative m q =>
    (if negative then "-" else "")
      ++ (if m = 0 then "0.0"
          else
            let d := shortest m q
            let ds := Nat.toDigits 10 d.digits
            layOut (dropZeros ds) (d.exponent + Int.ofNat ds.length - 1))

/-! ## 3. A fixed number of places -/

/-- A number with its last `places` digits behind a point. -/
def placesText (n places : Nat) : String :=
  let ds := Nat.toDigits 10 n
  let padded := List.replicate (places + 1 - ds.length) '0' ++ ds
  let cut := padded.length - places
  String.ofList (padded.take cut) ++ "." ++ String.ofList (padded.drop cut)

/-- The number rounded to a fixed count of places; the exact value decides, a half goes to the
even neighbour, and the sign is kept when nothing is left of a negative number. -/
def fixed (places : Nat) : Double → String
  | .notANumber => "nan"
  | .infinite negative => if negative then "-inf" else "inf"
  | .finite negative m q =>
    let (num, den) := ratio m q
    (if negative then "-" else "") ++ placesText (roundDiv (num * Nat.pow 10 places) den) places

end SchemaTypes.Double
