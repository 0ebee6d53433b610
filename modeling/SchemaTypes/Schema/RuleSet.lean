/-
# Rule sets

The rules that a property or one field of a compound type lays on its values: a format, lengths,
character classes, affixes, numeric bounds and a pattern.
-/
import SchemaTypes.Number.Bound

namespace SchemaTypes

/-- What a text has to begin or end with: one text, or any of several. -/
inductive Affixes where
  | one (text : String)
  | many (texts : List String)
deriving DecidableEq, Repr

/-- The rules on one value. -/
structure RuleSet where
  url : Bool := false
  uuid : Bool := false
  ip : Bool := false
  ipv4 : Bool := false
  ipv6 : Bool := false
  minLength : Option Nat := none
  maxLength : Option Nat := none
  alpha : Bool := false
  alphaNum : Bool := false
  alphaDash : Bool := false
  numeric : Bool := false
  digits : Option Nat := none
  digitsBetween : Option (Int × Int) := none
  startsWith : Option Affixes := none
  endsWith : Option Affixes := none
  lowercase : Bool := false
  uppercase : Bool := false
  min : Option Bound := none
  max : Option Bound := none
  between : Option (Bound × Bound) := none
  gt : Option Bound := none
  lt : Option Bound := none
  multipleOf : Option Bound := none
  pattern : Option String := none
  format : Option String := none
deriving DecidableEq, Repr

end SchemaTypes
