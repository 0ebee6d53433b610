/-
# The index

The index passes on every public name of the generated files, group by group (`indexModule`):
common types, internationalisation, enumerations, models, and rules.
-/
import SchemaTypes.Enumeration
import SchemaTypes.ImportPaths
import SchemaTypes.Output.ModelModule
import SchemaTypes.Output.SharedModules

namespace SchemaTypes.Output

open TypeScript (Block SourceFile Specifier ExportDecl)

/-- The names of the file of an enumeration or an alias. -/
def enumExport (name module : String) (typeOnly : Bool) : Block :=
  .exports
    { names :=
        { name := name, typeOnly := typeOnly : Specifier }
          :: [name ++ "Values", "is" ++ name, "get" ++ name ++ "Label",
              "get" ++ name ++ "Extra"].map Specifier.plain
      module := some module
      multiline := true }

/-- A group under a comment, unless it has no items. -/
def groupUnder (title : String) (items : List Block) : List Block :=
  if items.isEmpty then [] else [.group (.comment title :: items)]

/-- The names of a model with validators. -/
def zodEntityExports (paths : ImportPaths) (name : String) : List Block :=
  let lower := Naming.lowerFirst name
  let module := paths.modelFromIndex name
  [.exports
     { names := [name, name ++ "Create", name ++ "Update"].map .plain, module := some module,
       typeOnly := true },
   .exports
     { names :=
         ([lower ++ "Schemas", lower ++ "CreateSchema", lower ++ "UpdateSchema"]
           ++ labelHelpers name).map .plain
       module := some module
       multiline := true }]

/-- The names of a model without validators. -/
def plainEntityExports (paths : ImportPaths) (name : String) : List Block :=
  [.exports
     { names := [.plain name], module := some (paths.modelFromIndex name), typeOnly := true },
   .exports
     { names := [.plain (name ++ "Create"), .plain (name ++ "Update")]
       module := some (paths.baseFromModel name)
       typeOnly := true }]

/-- The names of a file of rules. -/
def ruleExport (paths : ImportPaths) (name : String) : Block :=
  .exports
    { names :=
        ["get" ++ name ++ "Rules", "get" ++ name ++ "DisplayName",
         "get" ++ name ++ "PropertyDisplayName"].map .plain
      module := some (paths.rulesFromIndex name)
      multiline := true }

/-- The groups of the models and their rules. -/
def entityBlocks (entities : List String) (config : Config) (paths : ImportPaths) : List Block :=
  if config.generateZodSchemas then
    groupUnder "Models (with Zod schemas, i18n, and Create/Update types)"
      (entities.flatMap (zodEntityExports paths))
  else
    groupUnder "Models (with Create/Update utility types)"
        (entities.flatMap (plainEntityExports paths))
      ++ (if config.generateRules then
            groupUnder "Validation Rules" (entities.map (ruleExport paths))
          else [])

/-- The index. -/
def indexModule (entities : List String) (enums pluginEnums : List Enumeration)
    (aliases : List TypeAlias) (config : Config) (paths : ImportPaths) : SourceFile :=
  { header := some (generatedHeader defaultSubject)
    blocks :=
      [.group
         [.comment "Common Types",
          .exports
            { names := commonNames.map .plain, module := some paths.commonFromRoot,
              typeOnly := true }],
       .group
         [.comment "i18n (Internationalization)",
          .exports
            { names := i18nNames.map .plain, module := some paths.i18nFromRoot,
              multiline := true }]]
        ++ groupUnder "Schema Enums"
            (enums.map fun e => enumExport e.name (paths.module paths.indexEnums e.name) false)
        ++ groupUnder "Plugin Enums"
            (pluginEnums.map fun e =>
              enumExport e.name (paths.module paths.indexPluginEnums e.name) false)
        ++ groupUnder "Inline Enums (Type Aliases)"
            (aliases.map fun a => enumExport a.name (paths.module paths.indexEnums a.name) true)
        ++ entityBlocks entities config paths }

end SchemaTypes.Output
