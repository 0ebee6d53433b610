/-
# Settings of a run

`Config` holds every choice of one run: the shape of interfaces, the locales, what plugins
supply, which files are written, how modules are imported and where files go.
-/
import SchemaTypes.Schema.CustomType

namespace SchemaTypes

/-- How generated files are laid out: one tree, or entities in a tree and the shared part in a
package of its own. -/
inductive OutputLayout where
  | flat
  | package
deriving DecidableEq, Repr, Inhabited

/-- The word for a layout. -/
def OutputLayout.text : OutputLayout → String
  | .flat => "flat"
  | .package => "package"

/-- Message templates by message key, then by locale. -/
abbrev MessageTable := List (String × List (String × String))

/-- The locales of the generated code. -/
structure LocaleConfig where
  locales : List String := ["en"]
  defaultLocale : String := "en"
  fallbackLocale : String := "en"
  messages : MessageTable := []
deriving DecidableEq, Repr

/-- The settings of one run. -/
structure Config where
  isReadonly : Bool := false
  strictNullChecks : Bool := true
  localeConfig : LocaleConfig := {}
  locale : Option String := none
  multiLocale : Bool := false
  customTypes : List (String × CustomType) := []
  pluginEnums : List (String × PluginEnum) := []
  generateZodSchemas : Bool := true
  generateRules : Bool := false
  validationTemplates : MessageTable := []
  enumImportPrefix : Option String := none
  schemaEnumImportPrefix : Option String := none
  pluginEnumImportPrefix : Option String := none
  baseImportPrefix : Option String := none
  useJsExtension : Bool := false
  layout : OutputLayout := .flat
  packageName : String := "@schema-base"
  modelsPath : String := "models"
deriving Repr

namespace Config

/-- The locale of single texts: the chosen one unless it is empty, else the default. -/
def targetLocale (c : Config) : String :=
  match c.locale with
  | some l => if l.isEmpty then c.localeConfig.defaultLocale else l
  | none => c.localeConfig.defaultLocale

/-- What module names end with. -/
def importExtension (c : Config) : String := if c.useJsExtension then ".js" else ""

/-- The plugin type of a tag. -/
def customType? (c : Config) (tag : String) : Option CustomType := c.customTypes.lookup tag

end Config

end SchemaTypes
