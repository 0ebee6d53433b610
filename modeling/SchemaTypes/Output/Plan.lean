/-
# The plan of a run

`planModules` lays out every generated module of a snapshot in order: enumerations of schemas, of
plugins and of properties, the files of entities, their model files, their files of rules, the
shared files and the index.  It refuses a snapshot with colliding names before anything else, then
further data without a written form, and numbers that are too long to be written.  `plan` gives the
files as text.
-/
import SchemaTypes.Check.Names
import SchemaTypes.Output.BaseModule
import SchemaTypes.Output.EnumModule
import SchemaTypes.Output.File
import SchemaTypes.Output.IndexModule
import SchemaTypes.Output.RulesModule

namespace SchemaTypes.Output

open TypeScript (SourceFile)

/-- A generated module before it is printed. -/
structure PlannedModule where
  path : String
  source : SourceFile
  category : Category := .schema
  overwrite : Bool := true
  types : List String := []
deriving Repr

/-- The file of a module. -/
def PlannedModule.toFile (m : PlannedModule) : GeneratedFile :=
  { path := m.path, content := m.source.text, category := m.category, overwrite := m.overwrite
    types := m.types }

/-- Why nothing is planned. -/
inductive PlanError where
  | collisions (cs : List Collision)
  | unwritable (u : Unwritable)
deriving DecidableEq, Repr

/-! ## 1. Single modules -/

/-- The module of an enumeration. -/
def planEnum (room : Nat) (config : Config) (e : Enumeration) : Except PlanError PlannedModule :=
  match enumModule room e config.localeConfig.fallbackLocale with
  | .ok source =>
    .ok
      { path := e.name ++ ".ts"
        source := source
        category := if e.plugin then .pluginEnum else .enum
        types := [e.name] }
  | .error u => .error (.unwritable u)

/-- The module of an alias. -/
def planAlias (a : TypeAlias) : PlannedModule :=
  { path := a.name ++ ".ts", source := aliasModule a, category := .enum, types := [a.name] }

/-- The module of a property that lists values. -/
def planInline (room : Nat) (config : Config) : InlineEnum → Except PlanError PlannedModule
  | .enum _ _ e => planEnum room config e
  | .alias _ _ a => .ok (planAlias a)

/-- The module of an entity. -/
def planBase (collection : Collection) (config : Config) (paths : ImportPaths) (s : Schema) :
    PlannedModule :=
  let i := Interface.ofSchema collection config s
  let excluded := Zod.excludedList config s
  let pluginEnums := config.pluginEnums.map (·.1)
  { path := "base/" ++ s.name ++ ".ts"
    source :=
      if config.generateZodSchemas then
        baseModule i paths (some ⟨Zod.fieldsOf config s, DisplayNames.ofSchema config s⟩) excluded
          pluginEnums
      else
        baseModule i paths none (excluded.filter (i.fieldNames.contains ·)) pluginEnums
    category := .base
    types := [s.name, s.name ++ "Create", s.name ++ "Update"] }

/-- The model module of an entity, which is never overwritten. -/
def planModel (config : Config) (paths : ImportPaths) (s : Schema) : PlannedModule :=
  { path := s.name ++ ".ts"
    source := modelModule s.name paths config.generateZodSchemas
    overwrite := false
    types := [s.name] }

/-- The module of the rules of an entity. -/
def planRules (config : Config) (paths : ImportPaths) (s : Schema) : PlannedModule :=
  { path := "rules/" ++ s.name ++ ".rules.ts"
    source := rulesModule s.name (EntityRules.ofSchema config s) paths
    types := [s.name ++ "Rules", s.name ++ "DisplayName"] }

/-- The category of the shared files. -/
def sharedCategory (paths : ImportPaths) : Category :=
  if paths.baseIsPackage then .base else .schema

/-- The module of the common types. -/
def planCommon (config : Config) (paths : ImportPaths) : PlannedModule :=
  { path := "common.ts", source := commonModule config, category := sharedCategory paths
    types := commonNames }

/-- The internationalisation module. -/
def planI18n (config : Config) (paths : ImportPaths) : PlannedModule :=
  { path := "i18n.ts", source := i18nModule config paths, category := sharedCategory paths
    types := ["validationMessages", "getMessage", "getMessages"] }

/-- The enumeration of a property with labels. -/
def inlineEnumeration? : InlineEnum → Option Enumeration
  | .enum _ _ e => some e
  | .alias .. => none

/-- The alias of a property without labels. -/
def inlineAlias? : InlineEnum → Option TypeAlias
  | .alias _ _ a => some a
  | .enum .. => none

/-- The entities that have files. -/
def visibleSchemas (collection : Collection) : List Schema :=
  collection.objectSchemas.filter (!·.isHidden)

/-- The index. -/
def planIndex (collection : Collection) (config : Config) (paths : ImportPaths) : PlannedModule :=
  let inline := InlineEnum.all collection config
  { path := "index.ts"
    source :=
      indexModule ((visibleSchemas collection).map (·.name))
        (Enumeration.all collection config ++ inline.filterMap inlineEnumeration?)
        (Enumeration.allPlugin config) (inline.filterMap inlineAlias?) config paths }

/-! ## 2. The plan -/

variable [Nesting]

/-- The modules of all enumerations. -/
def planEnums (collection : Collection) (config : Config) : Except PlanError (List PlannedModule) :=
  return (← (Enumeration.all collection config).mapM (planEnum Nesting.named config))
    ++ (← (Enumeration.allPlugin config).mapM (planEnum Nesting.named config))
    ++ (← (InlineEnum.all collection config).mapM (planInline Nesting.inline config))

/-- The numbers in the files of an entity. -/
def numbersOf (config : Config) (s : Schema) : List Bound :=
  if config.generateZodSchemas then Zod.numbersOf config s
  else if config.generateRules then EntityRules.numbersOf s
  else []

/-- Refuses the first entity with a number that is too long to be written. -/
def checkNumbers (collection : Collection) (config : Config) : Except PlanError Unit :=
  match (visibleSchemas collection).find? fun s =>
      !decide (∀ b ∈ numbersOf config s, b.IsShort) with
  | some s => .error (.unwritable (.number s.name))
  | none => .ok ()

/-- The modules of all entities. -/
def planEntities (collection : Collection) (config : Config) (paths : ImportPaths) :
    List PlannedModule :=
  let visible := visibleSchemas collection
  visible.map (planBase collection config paths)
    ++ visible.map (planModel config paths)
    ++ (if config.generateRules && !config.generateZodSchemas then
          visible.map (planRules config paths) else [])

/-- Every generated module of a snapshot, in order. -/
def planModules (collection : Collection) (config : Config) :
    Except PlanError (List PlannedModule) :=
  let cs := Check.collisions collection config
  if cs.isEmpty then do
    let paths := ImportPaths.ofConfig config
    let enums ← planEnums collection config
    checkNumbers collection config
    return enums ++ planEntities collection config paths
      ++ [planCommon config paths, planI18n config paths, planIndex collection config paths]
  else .error (.collisions cs)

/-- Every generated file of a snapshot, in order. -/
def plan (collection : Collection) (config : Config) : Except PlanError (List GeneratedFile) :=
  return (← planModules collection config).map PlannedModule.toFile

/-- Colliding names are the first reason to plan nothing. -/
theorem plan_eq_error_collisions {collection : Collection} {config : Config}
    (h : Check.collisions collection config ≠ []) :
    plan collection config = .error (.collisions (Check.collisions collection config)) := by
  simp [plan, planModules, h, bind, Except.bind]

end SchemaTypes.Output
