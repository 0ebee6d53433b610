/-
# Double-precision numbers, exactly

A double is a sign, a whole significand and a power of two (`Double.finite`), an infinity, or not
a number.  The significand of a finite double is below 2 ^ 53, its exponent lies between -1074
and 971, and it is at least 2 ^ 52 unless the exponent is the least one; `ofRatio` builds no
other.

* `roundDiv`: the nearest whole number to a quotient, a half goes to the even neighbour.
* `ofRatio`, `ofDecimal`: the nearest double to a quotient and to a decimal numeral.
* `scaled`: the value as a whole number of the smallest positive double, by which doubles are
  compared with each other and with whole numbers without rounding.
-/
namespace SchemaTypes

/-- A double-precision number. -/
inductive Double where
  | finite (negative : Bool) (significand : Nat) (exponent : Int)
  | infinite (negative : Bool)
  | notANumber
deriving DecidableEq, Repr, Inhabited

namespace Double

/-! ## 1. Rounding -/

/-- The nearest whole number to `num / den`; a half goes to the even neighbour. -/
def roundDiv (num den : Nat) : Nat :=
  let k := num / den
  let r := num % den
  if 2 * r < den then k
  else if den < 2 * r then k + 1
  else if k % 2 = 0 then k else k + 1

/-- The exponent `e` with `2 ^ e ≤ num / den < 2 ^ (e + 1)`. -/
def binaryExponent (num den : Nat) : Int :=
  let e : Int := Int.ofNat num.log2 - Int.ofNat den.log2
  let atLeast : Bool :=
    if 0 ≤ e then den * Nat.pow 2 e.toNat ≤ num else den ≤ num * Nat.pow 2 (-e).toNat
  if atLeast then e else e - 1

/-- The double of a rounded significand, or infinity above the range. -/
def ofRounded (negative : Bool) (m : Nat) (q : Int) : Double :=
  if m = Nat.pow 2 53 then
    if 971 < q + 1 then .infinite negative else .finite negative (Nat.pow 2 52) (q + 1)
  else if 971 < q then .infinite negative else .finite negative m q

/-- The nearest double to `num / den`, with a sign. -/
def ofRatio (negative : Bool) (num den : Nat) : Double :=
  if num = 0 then .finite negative 0 (-1074)
  else
    let q := max (binaryExponent num den - 52) (-1074)
    let m :=
      if 0 ≤ q then roundDiv num (den * Nat.pow 2 q.toNat)
      else roundDiv (num * Nat.pow 2 (-q).toNat) den
    ofRounded negative m q

/-- How many digits a number has in decimal notation. -/
def digitCount (n : Nat) : Nat := (Nat.toDigits 10 n).length

/-- The nearest double to `digits * 10 ^ exponent`, with a sign.  Numerals far outside the range
are decided by their number of digits. -/
def ofDecimal (negative : Bool) (digits : Nat) (exponent : Int) : Double :=
  if digits = 0 then .finite negative 0 (-1074)
  else
    let top := exponent + Int.ofNat (digitCount digits)
    if 310 < top then .infinite negative
    else if top < -330 then .finite negative 0 (-1074)
    else if 0 ≤ exponent then ofRatio negative (digits * Nat.pow 10 exponent.toNat) 1
    else ofRatio negative digits (Nat.pow 10 (-exponent).toNat)

/-- The nearest double to a whole number. -/
def ofInt (i : Int) : Double := ofRatio (decide (i < 0)) i.natAbs 1

/-! ## 2. The value -/

/-- How many of the smallest positive double make one. -/
def unitsPerOne : Nat := Nat.pow 2 1074

/-- The value in units of the smallest positive double, for a finite double. -/
def scaled? : Double → Option Int
  | .finite negative m q =>
    let n := Int.ofNat (m * Nat.pow 2 (q + 1074).toNat)
    some (if negative then -n else n)
  | _ => none

/-- The whole number that a finite double without a fractional part is. -/
def toInt? : Double → Option Int
  | .finite negative m q =>
    let signed (n : Nat) : Int := if negative then -Int.ofNat n else Int.ofNat n
    if 0 ≤ q then some (signed (m * Nat.pow 2 q.toNat))
    else if m % Nat.pow 2 (-q).toNat = 0 then some (signed (m / Nat.pow 2 (-q).toNat))
    else none
  | _ => none

/-- A finite double as a quotient of its absolute value, the denominator positive. -/
def ratio (m : Nat) (q : Int) : Nat × Nat :=
  if 0 ≤ q then (m * Nat.pow 2 q.toNat, 1) else (m, Nat.pow 2 (-q).toNat)

/-! ## 3. Small laws -/

/-- A rounded quotient is within half a unit of the quotient. -/
theorem roundDiv_bounds {num den : Nat} (h : 0 < den) :
    2 * num ≤ (2 * roundDiv num den + 1) * den ∧ 2 * (roundDiv num den * den) ≤ 2 * num + den := by
  have hdiv : den * (num / den) + num % den = num := Nat.div_add_mod num den
  have hmod : num % den < den := Nat.mod_lt _ h
  have hcomm : num / den * den = den * (num / den) := Nat.mul_comm _ _
  have hsucc : (num / den + 1) * den = den * (num / den) + den := by rw [Nat.add_mul]; omega
  have hodd : (2 * (num / den) + 1) * den = 2 * (den * (num / den)) + den := by
    rw [Nat.add_mul, Nat.mul_assoc]; omega
  have hodd' : (2 * (num / den + 1) + 1) * den = 2 * (den * (num / den)) + 3 * den := by
    rw [Nat.add_mul, Nat.mul_assoc, hsucc]; omega
  unfold roundDiv
  dsimp only
  split
  · constructor <;> omega
  · split
    · constructor <;> omega
    · split <;> constructor <;> omega

@[simp] theorem toInt?_notANumber : toInt? notANumber = none := rfl

@[simp] theorem toInt?_infinite (b : Bool) : toInt? (infinite b) = none := rfl

end Double

end SchemaTypes
