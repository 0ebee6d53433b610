/-
# Where generated modules import from

One table for all module names in generated code (`ImportPaths.ofConfig`).  A location that
begins with an at sign is a package; any other is relative.  Entity files live one directory
below the index, so a relative location of enumerations is moved up by one for them.
-/
import SchemaTypes.Schema.Config
import SchemaTypes.Text.Path

namespace SchemaTypes

/-- The locations that generated modules import from. -/
structure ImportPaths where
  ext : String
  schemaEnums : String
  pluginEnums : String
  indexEnums : String
  indexPluginEnums : String
  base : String
  baseIsPackage : Bool
deriving DecidableEq, Repr

namespace ImportPaths

/-- The location is a package. -/
def isScoped (location : Option String) : Bool :=
  match location with
  | some p => Text.startsWith p "@"
  | none => false

/-- The location, unless it is empty. -/
def given (location : Option String) : Option String := location.filter (!·.isEmpty)

/-- The location, or in the package layout a directory of the package. -/
def orPackage (config : Config) (location : Option String) (directory : String) : Option String :=
  match given location, config.layout with
  | some p, _ => some p
  | none, .package => some (config.packageName ++ "/" ++ directory)
  | none, .flat => none

/-- The location of enumerations seen from entity files. -/
def enumsFromBase (config : Config) (enums : Option String) : String :=
  match given config.schemaEnumImportPrefix, enums with
  | some p, _ => p
  | none, some p => if isScoped (some p) then p else Path.normalise ("../" ++ p)
  | none, none => "../enum"

/-- The table of a run. -/
def ofConfig (config : Config) : ImportPaths :=
  let enums := orPackage config config.enumImportPrefix "enum"
  let plugins := orPackage config config.pluginEnumImportPrefix "enum"
  let base := orPackage config config.baseImportPrefix "schemas"
  let schemaEnums := enumsFromBase config enums
  let indexEnums := enums.getD "./enum"
  { ext := config.importExtension
    schemaEnums := schemaEnums
    pluginEnums := plugins.getD (schemaEnums ++ "/plugin")
    indexEnums := indexEnums
    indexPluginEnums := plugins.getD (indexEnums ++ "/plugin")
    base := base.getD "./base"
    baseIsPackage := isScoped base }

/-- A module at a location. -/
def module (p : ImportPaths) (location name : String) : String := location ++ "/" ++ name ++ p.ext

/-- The common types seen from entity files. -/
def commonFromBase (p : ImportPaths) : String :=
  (if p.baseIsPackage then "./common" else "../common") ++ p.ext

/-- The common types seen from the index. -/
def commonFromRoot (p : ImportPaths) : String :=
  (if p.baseIsPackage then p.base ++ "/common" else "./common") ++ p.ext

/-- The internationalisation module seen from the index. -/
def i18nFromRoot (p : ImportPaths) : String :=
  (if p.baseIsPackage then p.base ++ "/i18n" else "./i18n") ++ p.ext

/-- The common types seen from rule files. -/
def commonFromRules (p : ImportPaths) : String :=
  (if p.baseIsPackage then p.base ++ "/common" else "../common") ++ p.ext

/-- An enumeration seen from entity files. -/
def enumFromBase (p : ImportPaths) (name : String) (plugin : Bool) : String :=
  p.module (if plugin then p.pluginEnums else p.schemaEnums) name

/-- Another entity seen from entity files. -/
def entityFromBase (p : ImportPaths) (name : String) : String := p.module "." name

/-- The entity file seen from its model file. -/
def baseFromModel (p : ImportPaths) (name : String) : String := p.module p.base name

/-- A model file seen from the index. -/
def modelFromIndex (p : ImportPaths) (name : String) : String := p.module "." name

/-- A rule file seen from the index. -/
def rulesFromIndex (p : ImportPaths) (name : String) : String :=
  p.module "./rules" (name ++ ".rules")

end ImportPaths

end SchemaTypes
