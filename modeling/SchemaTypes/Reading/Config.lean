/-
# Reading the settings

The settings of a run.  Plugin types and plugin enumerations may be given as a list of records
with names or as a map; both become a map by name first (`keyedByName`).
-/
import SchemaTypes.Reading.Schema
import SchemaTypes.Schema.Config

namespace SchemaTypes.Reading

/-! ## 1. Records by name -/

/-- The records of a list by name; items that are no records are left out, and of two records of
one name the last is used. -/
def keyedList (done : Entries) : List Value → Outcome Entries
  | [] => .accepted done
  | .map es :: rest =>
    match Value.entry? "name" es with
    | none => .fail .invalidEntry
    | some name =>
      match name.key? with
      | none => .broken .unusableKey
      | some k => keyedList (putEntry k (.map es) done) rest
  | _ :: rest => keyedList done rest

/-- A record with the key of its entry as its name, unless it has one. -/
def named : Key × Value → Key × Value
  | (k, .map es) =>
    if (Value.entry? "name" es).isSome then (k, .map es)
    else (k, .map (es ++ [(.text "name", k.value)]))
  | e => e

/-- The map by name of a list or a map of records. -/
def keyedByName : Value → Outcome Value
  | .list items => (keyedList [] items).map .map
  | .map es => .accepted (.map (es.map named))
  | v => .accepted v

/-- A map by name of records. -/
def byName (r : Reader α) : Reader (List (String × α)) := fun v =>
  (keyedByName v).andThen (map r)

/-! ## 2. The settings -/

/-- Message templates by key and locale. -/
def messageTable : Reader MessageTable := map (map text)

/-- The locales. -/
def localeConfig : Reader LocaleConfig := record fun es =>
  LocaleConfig.mk
    <$> fieldOr (word "locales") ["en"] (nonEmptyList text) es
    <*> fieldOr ⟨"defaultLocale", "default_locale"⟩ "en" text es
    <*> fieldOr ⟨"fallbackLocale", "fallback_locale"⟩ "en" text es
    <*> fieldOr (word "messages") [] messageTable es

/-- The layout. -/
def outputLayout : Reader OutputLayout := choice [("flat", .flat), ("package", .package)]

/-- The settings of a run. -/
def config : Reader Config := record fun es =>
  Config.mk
    <$> fieldOr (word "readonly") false switch es
    <*> fieldOr ⟨"strictNullChecks", "strict_null_checks"⟩ true switch es
    <*> fieldOr ⟨"localeConfig", "locale_config"⟩ {} localeConfig es
    <*> fieldOpt (word "locale") text es
    <*> fieldOr ⟨"multiLocale", "multi_locale"⟩ false switch es
    <*> fieldOr ⟨"customTypes", "custom_types"⟩ [] (byName customType) es
    <*> fieldOr ⟨"pluginEnums", "plugin_enums"⟩ [] (byName pluginEnum) es
    <*> fieldOr ⟨"generateZodSchemas", "generate_zod_schemas"⟩ true switch es
    <*> fieldOr ⟨"generateRules", "generate_rules"⟩ false switch es
    <*> fieldOr ⟨"validationTemplates", "validation_templates"⟩ [] messageTable es
    <*> fieldOpt ⟨"enumImportPrefix", "enum_import_prefix"⟩ text es
    <*> fieldOpt ⟨"schemaEnumImportPrefix", "schema_enum_import_prefix"⟩ text es
    <*> fieldOpt ⟨"pluginEnumImportPrefix", "plugin_enum_import_prefix"⟩ text es
    <*> fieldOpt ⟨"baseImportPrefix", "base_import_prefix"⟩ text es
    <*> fieldOr ⟨"useJsExtension", "use_js_extension"⟩ false switch es
    <*> fieldOr (word "layout") .flat outputLayout es
    <*> fieldOr ⟨"packageName", "package_name"⟩ "@schema-base" nonEmptyText es
    <*> fieldOr ⟨"modelsPath", "models_path"⟩ "models" nonEmptyText es

end SchemaTypes.Reading
