/-
# Schemas and collections

A schema describes an entity (`SchemaKind.object`) or a named enumeration.  A collection is the
list of schemas of one run in the order in which they were given; it may hold two schemas of one
name, and then the first is the one that is found (`Collection.get?`).
-/
import SchemaTypes.Schema.Property

namespace SchemaTypes

/-- What a schema describes. -/
inductive SchemaKind where
  | object
  | enum
deriving DecidableEq, Repr, Inhabited

/-- The word for a kind of schema. -/
def SchemaKind.text : SchemaKind → String
  | .object => "object"
  | .enum => "enum"

/-- The switches of one schema. -/
structure SchemaOptions where
  id : Bool := true
  idType : String := "BigInt"
  timestamps : Bool := true
  softDelete : Bool := false
  hidden : Bool := false
deriving DecidableEq, Repr

/-- An entity or a named enumeration. -/
structure Schema where
  name : String
  kind : SchemaKind := .object
  displayName : Option Label := none
  properties : List (String × Property) := []
  values : List EnumValue := []
  options : SchemaOptions := {}
  sourcePath : Option String := none
deriving Repr

namespace Schema

/-- The schema is a named enumeration. -/
def isEnum (s : Schema) : Bool := s.kind == .enum

/-- The schema yields no files of its own. -/
def isHidden (s : Schema) : Bool := s.options.hidden

/-- Where the schema comes from: its file, or else its name between angle brackets. -/
def sourceLabel (s : Schema) : String :=
  match s.sourcePath with
  | some path => if path.isEmpty then "<" ++ s.name ++ ">" else path
  | none => "<" ++ s.name ++ ">"

/-- A schema in one word. -/
def describe (s : Schema) : String :=
  "<SchemaDefinition " ++ s.kind.text ++ ":" ++ s.name ++ ">"

end Schema

/-- The schemas of one run, in order. -/
structure Collection where
  schemas : List Schema := []
deriving Repr

namespace Collection

/-- The first schema of a name. -/
def get? (c : Collection) (name : String) : Option Schema :=
  c.schemas.find? (·.name == name)

/-- The entities, in order. -/
def objectSchemas (c : Collection) : List Schema := c.schemas.filter (!·.isEnum)

/-- The named enumerations, in order. -/
def enumSchemas (c : Collection) : List Schema := c.schemas.filter (·.isEnum)

/-- The names of the entities, in order. -/
def objectNames (c : Collection) : List String := c.objectSchemas.map (·.name)

/-- The names of the named enumerations, in order. -/
def enumNames (c : Collection) : List String := c.enumSchemas.map (·.name)

/-- A collection in one line. -/
def describe (c : Collection) : String :=
  "<SchemaCollection " ++ toString c.objectSchemas.length ++ " objects, "
    ++ toString c.enumSchemas.length ++ " enums>"

/-- The schema that a name finds has that name. -/
theorem name_of_get? {c : Collection} {name : String} {s : Schema} (h : c.get? name = some s) :
    s.name = name := by
  have := List.find?_some h
  simpa using this

/-- Every schema is an entity or an enumeration. -/
theorem length_object_add_enum (c : Collection) :
    c.objectSchemas.length + c.enumSchemas.length = c.schemas.length := by
  unfold objectSchemas enumSchemas
  induction c.schemas with
  | nil => rfl
  | cons s r ih => cases h : s.isEnum <;> simp [h] <;> omega

end Collection

end SchemaTypes
