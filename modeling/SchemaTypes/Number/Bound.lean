/-
# Bounds

A bound of a schema is a whole number or a double, as it was written: `5` and `5.0` are two
different numbers with one literal.  `text` keeps the difference, `literal` prints the number as
a TypeScript program would.  Both spell out any number, but a whole number with more than
`Numeral.lengthLimit` digits cannot be written (`IsShort`, `literal?`): a program checks the numbers
before it relies on their texts.
-/
import SchemaTypes.Number.Numeral
import SchemaTypes.Number.Shortest

namespace SchemaTypes

/-- A number as it was written. -/
inductive Bound where
  | whole (i : Int)
  | real (d : Double)
deriving DecidableEq, Repr, Inhabited

namespace Bound

/-- The number with its kind visible: `5` or `5.0`. -/
def text : Bound → String
  | .whole i => toString i
  | .real d => d.text

/-- The literal of the number: a double without a fractional part prints as a whole number. -/
def literal : Bound → String
  | .whole i => toString i
  | .real d =>
    match d.toInt? with
    | some i => toString i
    | none => d.text

/-- The number is short enough to be written; a double always is. -/
def IsShort : Bound → Prop
  | .whole i => Numeral.IsShort i
  | .real _ => True

instance : DecidablePred IsShort
  | .whole i => inferInstanceAs (Decidable (Numeral.IsShort i))
  | .real _ => inferInstanceAs (Decidable True)

/-- The literal of the number, unless it is too long to be written. -/
def literal? (b : Bound) : Option String := if b.IsShort then some b.literal else none

/-- A whole number and the double of the same value have one literal. -/
theorem literal_real_of_toInt? {d : Double} {i : Int} (h : d.toInt? = some i) :
    (Bound.real d).literal = (Bound.whole i).literal := by
  simp [literal, h]

end Bound

end SchemaTypes
