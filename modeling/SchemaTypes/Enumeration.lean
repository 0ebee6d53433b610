/-
# Enumerations

An enumeration is a list of named members with their raw values; an alias is a union of raw
values.  They come from schemas (`ofSchema?`), from plugins (`ofPlugin`) and from properties that
list their values in place (`InlineEnum`): with a label on some value such a list becomes an
enumeration, without labels an alias.
-/
import SchemaTypes.Interface

namespace SchemaTypes

/-- A member of an enumeration. -/
structure EnumMember where
  name : String
  value : String
  label : Option Label := none
  extra : Option (List (String × Value)) := none
deriving Repr

/-- An enumeration. -/
structure Enumeration where
  name : String
  members : List EnumMember
  comment : String
  plugin : Bool := false
deriving Repr

/-- A union of literals with a name. -/
structure TypeAlias where
  name : String
  values : List String
  comment : String
deriving DecidableEq, Repr

/-- What a property that lists its values stands for. -/
inductive InlineEnum where
  | enum (schema property : String) (e : Enumeration)
  | alias (schema property : String) (a : TypeAlias)
deriving Repr

namespace EnumMember

/-- The label is a map by locale. -/
def hasMultiLocaleLabel (m : EnumMember) : Bool :=
  match m.label with
  | some (.byLocale _) => true
  | _ => false

/-- The member of a value. -/
def ofValue (config : Config) (v : EnumValue) : EnumMember :=
  { name := Naming.member v.value
    value := v.value
    label :=
      Locale.resolveOrKeep v.label config.multiLocale config.locale (some config.localeConfig)
    extra := v.extra }

end EnumMember

namespace Enumeration

/-- Some member has a label. -/
def hasLabels (e : Enumeration) : Bool := e.members.any (·.label.isSome)

/-- Some member has a label by locale. -/
def hasMultiLocaleLabels (e : Enumeration) : Bool := e.members.any (·.hasMultiLocaleLabel)

/-- Some member has further data. -/
def hasExtra (e : Enumeration) : Bool := e.members.any (·.extra.isSome)

/-- The raw values. -/
def values (e : Enumeration) : List String := e.members.map (·.value)

/-- The enumeration of a schema of that kind. -/
def ofSchema? (config : Config) (s : Schema) : Option Enumeration :=
  if s.isEnum then
    some
      { name := s.name
        members := s.values.map (EnumMember.ofValue config)
        comment := Interface.orElse (Interface.labelText config s.displayName) s.name }
  else none

/-- The enumerations of a collection, in order. -/
def all (collection : Collection) (config : Config) : List Enumeration :=
  collection.enumSchemas.filterMap (ofSchema? config)

/-- The enumeration of a plugin. -/
def ofPlugin (config : Config) (p : PluginEnum) : Enumeration :=
  { name := p.name
    members := p.values.map (EnumMember.ofValue config)
    comment := Interface.orElse (Interface.labelText config p.displayName) p.name
    plugin := true }

/-- The enumerations of plugins, in order. -/
def allPlugin (config : Config) : List Enumeration :=
  config.pluginEnums.map fun e => ofPlugin config e.2

/-- The union of the raw values. -/
def toAlias (e : Enumeration) : TypeAlias := ⟨e.name, e.values, e.comment⟩

end Enumeration

namespace TypeAlias

/-- The type expression of an alias. -/
def typeExpr (a : TypeAlias) : String := TypeExpr.literalUnion a.values

end TypeAlias

namespace InlineEnum

/-- The name of the type. -/
def name : InlineEnum → String
  | .enum _ _ e => e.name
  | .alias _ _ a => a.name

/-- The schema that the type comes from. -/
def schemaName : InlineEnum → String
  | .enum s _ _ => s
  | .alias s _ _ => s

/-- The property that the type comes from. -/
def propertyName : InlineEnum → String
  | .enum _ p _ => p
  | .alias _ p _ => p

/-- The property in one word. -/
def sourceOf (schema property : String) : String := schema ++ "." ++ property

/-- Where the type comes from. -/
def source (x : InlineEnum) : String := sourceOf x.schemaName x.propertyName

/-- There is neither an enumeration nor an alias. -/
structure Empty where
  source : String
deriving DecidableEq, Repr

/-- The message for a type without content. -/
def Empty.message (e : Empty) : String :=
  "Inline enum " ++ e.source ++ " has neither an enum nor an alias."

/-- The type of given parts; an enumeration goes before an alias. -/
def ofParts (schema property : String) :
    Option Enumeration → Option TypeAlias → Except Empty InlineEnum
  | some e, _ => .ok (.enum schema property e)
  | none, some a => .ok (.alias schema property a)
  | none, none => .error ⟨sourceOf schema property⟩

/-- The values that a property lists. -/
def valuesOf (p : Property) : List EnumValue :=
  match p.kind with
  | .inlineEnum values => values
  | .select options => options
  | _ => []

/-- What the values of a property are called. -/
def noun (p : Property) : String :=
  match p.kind with
  | .inlineEnum _ => "enum"
  | _ => "options"

/-- The name of the type of a property. -/
def typeName (schema property : String) : String := schema ++ Naming.pascal property

/-- The type of a property that lists values. -/
def ofProperty? (config : Config) (s : Schema) (name : String) (p : Property) :
    Option InlineEnum :=
  let values := valuesOf p
  if values.isEmpty then none
  else
    let type := typeName s.name name
    let comment :=
      Interface.orElse (Interface.labelText config p.displayName)
        (s.name ++ " " ++ name ++ " " ++ noun p)
    if values.any (·.label.isSome) then
      some (.enum s.name name
        { name := type, members := values.map (EnumMember.ofValue config), comment := comment })
    else some (.alias s.name name ⟨type, values.map (·.value), comment⟩)

/-- The types of the properties of a schema. -/
def ofSchema (config : Config) (s : Schema) : List InlineEnum :=
  s.properties.filterMap fun e => ofProperty? config s e.1 e.2

/-- The types of the properties of all entities, hidden ones included, in order. -/
def all (collection : Collection) (config : Config) : List InlineEnum :=
  collection.objectSchemas.flatMap (ofSchema config)

end InlineEnum

/-! ## Small laws -/

/-- An enumeration has as many members as its source has values. -/
theorem Enumeration.length_ofPlugin (config : Config) (p : PluginEnum) :
    (Enumeration.ofPlugin config p).members.length = p.values.length := by
  simp [Enumeration.ofPlugin]

/-- The values of a member are raw. -/
theorem EnumMember.value_ofValue (config : Config) (v : EnumValue) :
    (EnumMember.ofValue config v).value = v.value := rfl

end SchemaTypes
