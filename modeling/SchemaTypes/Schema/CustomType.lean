/-
# Types that plugins supply

A plugin adds property types and enumerations.  A compound type stands for several fields, one
for each entry, and for read-only accessors; a simple type is one field of a given TypeScript
type.  A schema may override the entries of a compound type one by one.
-/
import SchemaTypes.Schema.RuleSet
import SchemaTypes.Schema.EnumValue

namespace SchemaTypes

/-- One field that a compound type expands into. -/
structure CompoundEntry where
  suffix : String
  nullable : Option Bool := none
  typeHint : String := "string"
  length : Option Nat := none
  rules : Option RuleSet := none
  label : Option Label := none
  placeholder : Option Label := none
deriving DecidableEq, Repr

/-- A property type of a plugin. -/
structure CustomType where
  name : Option String := none
  compound : Bool := false
  expand : List CompoundEntry := []
  accessors : List String := []
  typeHint : String := "string"
  length : Option Nat := none
deriving DecidableEq, Repr

/-- What one schema changes of one entry of a compound type. -/
structure EntryOverride where
  nullable : Option Bool := none
  length : Option Nat := none
  displayName : Option Label := none
  placeholder : Option Label := none
  rules : Option RuleSet := none
deriving DecidableEq, Repr

/-- An enumeration of a plugin. -/
structure PluginEnum where
  name : String
  displayName : Option Label := none
  values : List EnumValue := []
deriving Repr

end SchemaTypes
