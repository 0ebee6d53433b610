/-
# Model files

A model file belongs to the user and is written only once (`modelModule`).  It extends the
interface of the entity and passes on what the generated file offers, under shorter names.
-/
import SchemaTypes.Naming
import SchemaTypes.ImportPaths
import SchemaTypes.Output.Header

namespace SchemaTypes.Output

open TypeScript (Block SourceFile Specifier Statement)

/-- The extended interface. -/
def modelInterface (name : String) : Statement :=
  .interface name [name ++ "Base"] ["  // Add custom properties here"]

/-- The entity's own interface under another name. -/
def baseSpecifier (name : String) : Specifier := { name := name, asName := some (name ++ "Base") }

/-- Passes the entity's own interface on. -/
def baseReexport (name : String) : Block :=
  .group
    [.comment "Re-export base type for internal use",
     .exports { names := [.plain (name ++ "Base")], typeOnly := true }]

/-- The label table and the label functions of an entity. -/
def labelHelpers (name : String) : List String :=
  [Naming.lowerFirst name ++ "I18n", "get" ++ name ++ "Label", "get" ++ name ++ "FieldLabel",
   "get" ++ name ++ "FieldPlaceholder"]

/-- The model file without validators. -/
def plainModel (name : String) (paths : ImportPaths) : SourceFile :=
  { header := some (modelHeader name false)
    imports :=
      [{ names := [baseSpecifier name], module := paths.baseFromModel name, typeOnly := true }]
    blocks :=
      [.declare (modelInterface name)
         (some [name ++ " model interface.", "Add custom properties or methods here."]) false,
       baseReexport name] }

/-- The model file with validators. -/
def zodModel (name : String) (paths : ImportPaths) : SourceFile :=
  let lower := Naming.lowerFirst name
  let base := paths.baseFromModel name
  let helpers := (labelHelpers name).map Specifier.plain
  let schemas := "base" ++ name ++ "Schemas"
  let create := "base" ++ name ++ "CreateSchema"
  let update := "base" ++ name ++ "UpdateSchema"
  { header := some (modelHeader name true)
    imports :=
      [{ names := [.plain "z"], module := "zod" },
       { names := [baseSpecifier name], module := base, typeOnly := true },
       { names := [.plain schemas, .plain create, .plain update] ++ helpers, module := base,
         multiline := true }]
    blocks :=
      [.banner "Types (extend or re-export)",
       .declare (modelInterface name) none false,
       .banner "Schemas (extend or re-export)",
       .declaration
         { statements :=
             [.const true (lower ++ "Schemas") none ("\x7b ..." ++ schemas ++ " \x7d"),
              .const true (lower ++ "CreateSchema") none create,
              .const true (lower ++ "UpdateSchema") none update] },
       .banner "Types",
       .declaration
         { statements :=
             [.typeAlias (name ++ "Create") ("z.infer<typeof " ++ lower ++ "CreateSchema>"),
              .typeAlias (name ++ "Update") ("z.infer<typeof " ++ lower ++ "UpdateSchema>")] },
       .group
         [.comment "Re-export i18n and helpers", .exports { names := helpers, multiline := true }],
       baseReexport name] }

/-- The model file of an entity. -/
def modelModule (name : String) (paths : ImportPaths) (zod : Bool) : SourceFile :=
  if zod then zodModel name paths else plainModel name paths

end SchemaTypes.Output
