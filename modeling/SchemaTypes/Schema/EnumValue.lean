/-
# Values of an enumeration

A raw value with an optional label and optional further data of any shape.
-/
import SchemaTypes.Data.Value
import SchemaTypes.Schema.Label

namespace SchemaTypes

/-- One value of an enumeration. -/
structure EnumValue where
  value : String
  label : Option Label := none
  extra : Option (List (String × Value)) := none
deriving Repr

end SchemaTypes
