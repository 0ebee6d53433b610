/-
# Problems

Everything that the checks of a snapshot can find, by cause.  `Problem.finding` gives each cause
its level, its code and its message.
-/
import SchemaTypes.Check.Finding
import SchemaTypes.Text.Quoted

namespace SchemaTypes

/-- What declares a type at the top level. -/
inductive Declarer where
  | schema
  | plugin
  | inline
deriving DecidableEq, Repr

/-- The word for a declarer. -/
def Declarer.text : Declarer → String
  | .schema => "schema"
  | .plugin => "plugin"
  | .inline => "inline"

/-- A name with all that declare it. -/
structure Collision where
  name : String
  declarers : List (Declarer × String)
deriving DecidableEq, Repr

namespace Collision

/-- Where the declarations come from. -/
def sources (c : Collision) : List String := c.declarers.map (·.2)

/-- The code of a collision: it tells which kinds of declarers met. -/
def code (c : Collision) : String :=
  if c.declarers.any (·.1 == .inline) then "INLINE_ENUM_CONFLICT"
  else if c.declarers.any (·.1 == .plugin) then "PLUGIN_ENUM_CONFLICT"
  else "DUPLICATE_SCHEMA_NAME"

/-- A collision in one line. -/
def text (c : Collision) : String :=
  "\"" ++ c.name ++ "\" defined in: " ++ String.intercalate ", " c.sources

/-- The message about all collisions. -/
def message (cs : List Collision) : String :=
  String.intercalate "\n"
    ("Duplicate schema/enum names detected. Names must be globally unique:"
      :: cs.map fun c => "  - " ++ c.text)

end Collision

/-- A property of a schema. -/
structure Place where
  schema : String
  property : String
deriving DecidableEq, Repr

/-- The place in one word. -/
def Place.text (p : Place) : String := p.schema ++ "." ++ p.property

/-- The place as data of a finding. -/
def Place.context (p : Place) : List (String × Value) :=
  [("schema", .text p.schema), ("property", .text p.property)]

/-- A cause of a finding. -/
inductive Problem where
  | collision (c : Collision)
  | unknownRelation (place : Place) (relation : String)
  | unknownTarget (place : Place) (target : String)
  | unknownEnum (place : Place) (enum : String)
  | unknownType (place : Place) (tag : String)
  | sharedMember (owner member first second : String)
  | repeatedValue (owner member value : String)
  | unsupportedLocale (field locale : String) (locales : List String)
  | rulesIgnored
deriving DecidableEq, Repr

/-- The finding of a cause. -/
def Problem.finding : Problem → Finding
  | .collision c =>
    { level := .error, code := c.code, message := c.text
      context := [("name", .text c.name), ("sources", Value.ofTexts c.sources)] }
  | .unknownRelation place relation =>
    { level := .warning, code := "UNKNOWN_RELATION_KIND"
      message :=
        place.text ++ ": relation '" ++ relation ++ "' is not recognised; typed as unknown."
      context := place.context }
  | .unknownTarget place target =>
    { level := .warning, code := "UNKNOWN_ASSOCIATION_TARGET"
      message := place.text ++ ": association target '" ++ target ++ "' is not a known schema."
      context := place.context ++ [("target", .text target)] }
  | .unknownEnum place enum =>
    { level := .warning, code := "UNKNOWN_ENUM_REFERENCE"
      message := place.text ++ ": enum '" ++ enum ++ "' is not defined."
      context := place.context ++ [("enum", .text enum)] }
  | .unknownType place tag =>
    { level := .warning, code := "UNKNOWN_PROPERTY_TYPE"
      message := place.text ++ ": type '" ++ tag ++ "' is not registered; typed as unknown."
      context := place.context ++ [("type", .text tag)] }
  | .sharedMember owner member first second =>
    { level := .warning, code := "DUPLICATE_ENUM_MEMBER"
      message := owner ++ ": values '" ++ first ++ "' and '" ++ second ++ "' both map to member '"
        ++ member ++ "'."
      context := [("enum", .text owner), ("member", .text member)] }
  | .repeatedValue owner member value =>
    { level := .warning, code := "DUPLICATE_ENUM_MEMBER"
      message := owner ++ ": value '" ++ value ++ "' is listed more than once."
      context := [("enum", .text owner), ("member", .text member)] }
  | .unsupportedLocale field locale locales =>
    { level := .warning, code := "LOCALE_NOT_SUPPORTED"
      message :=
        field ++ " '" ++ locale ++ "' is not in locales " ++ Text.quotedTexts locales ++ "."
      context := [("field", .text field), ("locale", .text locale)] }
  | .rulesIgnored =>
    { level := .info, code := "RULES_IGNORED"
      message := "generate_rules has no effect while Zod schemas are enabled." }

/-- Only collisions are errors. -/
theorem Problem.finding_level_eq_error (p : Problem) :
    p.finding.level = .error ↔ ∃ c, p = .collision c := by
  cases p <;> simp [Problem.finding]

end SchemaTypes
