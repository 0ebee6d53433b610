/-
# Validators of an entity

The validators of the fields of an entity in the order of its properties (`fieldsOf`), and the
fields that are left out when an entity is created (`excludedList`): keys, time stamps and the
read-only accessors of compound types.
-/
import SchemaTypes.Zod.Property

namespace SchemaTypes.Zod

/-- The validator of one field. -/
structure Field where
  name : String
  schema : Expr
  inCreate : Bool := true
  inUpdate : Bool := true
  comment : Option String := none
deriving DecidableEq, Repr

/-- The label of a compound property in comments: the English one, else its name. -/
def commentLabel (config : Config) (name : String) (p : Property) : String :=
  ((Locale.perLocale p.displayName config.localeConfig.locales config.localeConfig.fallbackLocale
    (some name)).lookup "en").getD name

/-- The name of a field of a compound property. -/
def partName (name part : String) : String := Naming.snake name ++ "_" ++ Naming.snake part

/-- The fields of a compound property, one for each entry. -/
def compoundFields (config : Config) (name : String) (p : Property) (t : CustomType) :
    List Field :=
  t.expand.map fun e =>
    { name := partName name e.suffix
      schema := ofEntry p e
      comment := some (commentLabel config name p ++ " (" ++ e.suffix ++ ")") }

/-- The compound type of a property that has one. -/
def compoundOf? (config : Config) (p : Property) : Option CustomType :=
  (Interface.customTypeOf? config p).filter (·.compound)

/-- The fields of a property. -/
def fieldsOfProperty (config : Config) (name : String) (p : Property) : List Field :=
  match compoundOf? config p with
  | some t => compoundFields config name p t
  | none =>
    ((ofProperty? config p).map fun e =>
      { name := Naming.snake name, schema := e : Field }).toList

/-- The fields of an entity, in order. -/
def fieldsOf (config : Config) (s : Schema) : List Field :=
  s.properties.flatMap fun e => fieldsOfProperty config e.1 e.2

/-- The validators that are printed for a property: those of its fields, and that of a primitive
before its rule set, even if a format then takes its place. -/
def printedOf (config : Config) (p : Property) : List Expr :=
  match compoundOf? config p with
  | some t => t.expand.map (ofEntry p)
  | none =>
    (match p.kind with
      | .primitive => (ofPrimitive? p).toList
      | _ => []) ++ (ofProperty? config p).toList

/-- The numbers that are printed for the validators of an entity. -/
def numbersOf (config : Config) (s : Schema) : List Bound :=
  s.properties.flatMap fun e => (printedOf config e.2).flatMap Expr.numbers

/-- The accessors of plugin types, in order. -/
def computedFields (config : Config) (s : Schema) : List String :=
  s.properties.flatMap fun e =>
    match Interface.customTypeOf? config e.2 with
    | some t => t.accessors.map (partName e.1)
    | none => []

/-- The schema has a property of the name. -/
def hasProperty (s : Schema) (name : String) : Bool := s.properties.any (·.1 == name)

/-- The fields that are left out when an entity is created, in order. -/
def excludedList (config : Config) (s : Schema) : List String :=
  (if s.options.id then ["id"] else [])
    ++ (if s.options.timestamps then ["created_at", "updated_at"] else [])
    ++ (if s.options.softDelete then ["deleted_at"] else [])
    ++ (if hasProperty s "emailVerifiedAt" || hasProperty s "email_verified_at" then
          ["email_verified_at"] else [])
    ++ computedFields config s

end SchemaTypes.Zod
