/-
# Files of rules

The rules of an entity as a file (`rulesModule`): its labels, the labels of its properties, the
rules, and three functions that read them for one locale.
-/
import SchemaTypes.EntityRules
import SchemaTypes.ImportPaths
import SchemaTypes.Output.BaseModule

namespace SchemaTypes.Output

open TypeScript (Block SourceFile Specifier quote)

/-- A rule as an object; parts that are missing or empty are left out. -/
def ruleText (r : PropertyRule) : String :=
  let parts :=
    (if r.required then ["required: true"] else [])
      ++ ((r.type.filter (!·.isEmpty)).map fun t => "type: '" ++ t ++ "'").toList
      ++ (r.min.map fun b => "min: " ++ b.literal).toList
      ++ (r.max.map fun b => "max: " ++ b.literal).toList
      ++ ((r.pattern.filter (!·.isEmpty)).map fun p => "pattern: /" ++ p ++ "/").toList
      ++ ["message: " ++ Json.textMap .compact r.message]
  "\x7b " ++ String.intercalate ", " parts ++ " \x7d"

/-- The lines of the rules of a property; a property without rules has none. -/
def ruleLines (e : String × PropertyRules) : List String :=
  if e.2.rules.isEmpty then []
  else
    ["  " ++ e.1 ++ ": ["] ++ e.2.rules.map (fun r => "    " ++ ruleText r ++ ",") ++ ["  ],"]

/-- The type of rules with messages in one locale. -/
def ruleShape : String :=
  "Array<\x7b required?: boolean; type?: string; min?: number; max?: number; "
    ++ "pattern?: RegExp; message: string \x7d>"

/-- The rules of an entity by property. -/
def rulesByProperty : String := "Record<string, " ++ ruleShape ++ ">"

/-- The file of the rules of an entity. -/
def rulesModule (name : String) (rules : EntityRules) (paths : ImportPaths) : SourceFile :=
  { header :=
      some (generatedHeader ("Auto-generated validation rules and metadata for " ++ name ++ "."))
    imports :=
      [{ names := [.plain "LocaleMap", .plain "ValidationRule"], module := paths.commonFromRules,
         typeOnly := true }]
    blocks :=
      [.described
         (.const true (name ++ "DisplayName") (some "LocaleMap")
           (Json.textMap (.indented 2) rules.displayName))
         ("Display name for " ++ name),
       .described
         (.const true (name ++ "PropertyDisplayNames") (some "Record<string, LocaleMap>")
           (lineTable (rules.properties.map fun e =>
             "  " ++ e.1 ++ ": " ++ Json.textMap .compact e.2.displayName ++ ",")))
         ("Property display names for " ++ name),
       .described
         (.const true (name ++ "Rules") (some "Record<string, ValidationRule[]>")
           (lineTable (rules.properties.flatMap ruleLines)))
         ("Validation rules for " ++ name ++ " (Ant Design compatible)"),
       .described
         (.function ("get" ++ name ++ "Rules") "locale: string" rulesByProperty
           ["const result: " ++ rulesByProperty ++ " = \x7b\x7d;",
            "for (const [prop, rules] of Object.entries(" ++ name ++ "Rules)) \x7b",
            "  result[prop] = rules.map(rule => (\x7b",
            "    ...rule,",
            "    message: rule.message[locale] ?? rule.message['en'] ?? '',",
            "  \x7d));",
            "\x7d",
            "return result;"])
         "Get validation rules with messages for a specific locale",
       .described
         (.function ("get" ++ name ++ "DisplayName") "locale: string" "string"
           ["return " ++ name ++ "DisplayName[locale] ?? " ++ name ++ "DisplayName['en'] ?? "
              ++ quote name ++ ";"])
         "Get display name for a specific locale",
       .described
         (.function ("get" ++ name ++ "PropertyDisplayName") "property: string, locale: string"
           "string"
           ["const names = " ++ name ++ "PropertyDisplayNames[property];",
            "return names?.[locale] ?? names?.['en'] ?? property;"])
         "Get property display name for a specific locale"] }

end SchemaTypes.Output
