/-
# Properties

A property has a tag, which names its type, and the settings that every property may have.  The
tag decides the kind: a primitive, a relation to entities, a reference to an enumeration, an
enumeration of its own (`inlineEnum`, `select`), a file, or a type of a plugin (`custom`).
-/
import SchemaTypes.Schema.CustomType

namespace SchemaTypes

/-- The kind of a property, with what that kind alone has. -/
inductive PropertyKind where
  | primitive
  | association (relation : String) (target : Option String) (targets : List String)
  | enumRef (enum : String)
  | inlineEnum (values : List EnumValue)
  | select (options : List EnumValue)
  | file (multiple : Bool)
  | custom
deriving Repr

/-- The kinds of properties without their data. -/
inductive PropertyTag where
  | primitive
  | association
  | enumRef
  | inlineEnum
  | select
  | file
  | custom
deriving DecidableEq, Repr

/-- The name of a kind. -/
def PropertyTag.text : PropertyTag → String
  | .primitive => "primitive"
  | .association => "association"
  | .enumRef => "enum_ref"
  | .inlineEnum => "inline_enum"
  | .select => "select"
  | .file => "file"
  | .custom => "custom"

/-- A property of a schema. -/
structure Property where
  tag : String
  displayName : Option Label := none
  placeholder : Option Label := none
  nullable : Option Bool := none
  length : Option Nat := none
  minLength : Option Nat := none
  maxLength : Option Nat := none
  min : Option Bound := none
  max : Option Bound := none
  pattern : Option String := none
  rules : Option RuleSet := none
  overrides : List (String × EntryOverride) := []
  kind : PropertyKind
deriving Repr

namespace Property

/-- The property may be absent: only an explicit setting says so. -/
def isNullable (p : Property) : Bool := p.nullable.getD false

/-- The kind without its data. -/
def kindTag (p : Property) : PropertyTag :=
  match p.kind with
  | .primitive => .primitive
  | .association .. => .association
  | .enumRef _ => .enumRef
  | .inlineEnum _ => .inlineEnum
  | .select _ => .select
  | .file _ => .file
  | .custom => .custom

end Property

/-- The tags of primitive types. -/
def primitiveTags : List String :=
  ["String", "Text", "MediumText", "LongText", "Email", "Password", "TinyInt", "Int", "BigInt",
   "Float", "Boolean", "Date", "Time", "DateTime", "Timestamp", "Json", "Lookup"]

/-- The primitive types whose values are texts of limited length. -/
def stringTags : List String :=
  ["String", "Text", "MediumText", "LongText", "Password", "Email"]

/-- The primitive types whose values are numbers. -/
def numericTags : List String := ["TinyInt", "Int", "BigInt", "Float"]

end SchemaTypes
