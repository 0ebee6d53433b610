/-
# All checks of a snapshot

Collisions of names, references that lead nowhere, members of enumerations that share a name, and
locales that are not supported (`problems`, `validate`).
-/
import SchemaTypes.Check.Names

namespace SchemaTypes.Check

/-! ## 1. References -/

/-- The entities that a relation names: its list of targets, or else its single target. -/
def targetsOf (target : Option String) (targets : List String) : List String :=
  if targets.isEmpty then TypeExpr.givenTarget target else targets

/-- What is wrong with the references of a property. -/
def referenceProblems (collection : Collection) (config : Config) (place : Place) (p : Property) :
    List Problem :=
  match p.kind with
  | .association relation target targets =>
    (if (TypeExpr.cardinality? relation).isNone then [.unknownRelation place relation] else [])
      ++ ((targetsOf target targets).filter (!collection.objectNames.contains ·)).map
          (.unknownTarget place)
  | .enumRef enum =>
    if collection.enumNames.contains enum || config.pluginEnums.any (·.1 == enum) then []
    else [.unknownEnum place enum]
  | .custom =>
    if (TypeExpr.primitiveTypes.lookup p.tag).isNone && (config.customType? p.tag).isNone then
      [.unknownType place p.tag]
    else []
  | _ => []

/-- What is wrong with the references of all entities, hidden ones included. -/
def allReferenceProblems (collection : Collection) (config : Config) : List Problem :=
  collection.objectSchemas.flatMap fun s =>
    s.properties.flatMap fun e => referenceProblems collection config ⟨s.name, e.1⟩ e.2

/-! ## 2. Members of enumerations -/

/-- The values whose member names are taken; `seen` holds the first value of each member name. -/
def duplicateMembers (owner : String) (seen : List (String × String)) :
    List EnumValue → List Problem
  | [] => []
  | v :: rest =>
    let member := Naming.member v.value
    match seen.lookup member with
    | some first =>
      (if first = v.value then .repeatedValue owner member v.value
       else .sharedMember owner member first v.value)
        :: duplicateMembers owner seen rest
    | none => duplicateMembers owner ((member, v.value) :: seen) rest

/-- The values whose member names are taken, in all enumerations. -/
def memberProblems (collection : Collection) (config : Config) : List Problem :=
  collection.enumSchemas.flatMap (fun s => duplicateMembers s.name [] s.values)
    ++ config.pluginEnums.flatMap (fun e => duplicateMembers e.1 [] e.2.values)
    ++ collection.objectSchemas.flatMap fun s =>
        s.properties.flatMap fun e =>
          duplicateMembers (Place.text ⟨s.name, e.1⟩) [] (InlineEnum.valuesOf e.2)

/-! ## 3. Settings -/

/-- A locale that has to be one of the supported ones. -/
def localeProblem (c : LocaleConfig) (field locale : String) : List Problem :=
  if c.locales.contains locale then [] else [.unsupportedLocale field locale c.locales]

/-- What is wrong with the settings. -/
def configProblems (config : Config) : List Problem :=
  let c := config.localeConfig
  localeProblem c "default_locale" c.defaultLocale
    ++ localeProblem c "fallback_locale" c.fallbackLocale
    ++ (if config.generateRules && config.generateZodSchemas then [.rulesIgnored] else [])

/-! ## 4. All checks -/

/-- Everything that is wrong with a snapshot. -/
def problems (collection : Collection) (config : Config) : List Problem :=
  nameProblems collection config ++ allReferenceProblems collection config
    ++ memberProblems collection config ++ configProblems config

/-- The findings about a snapshot. -/
def validate (collection : Collection) (config : Config) : Findings :=
  ⟨(problems collection config).map Problem.finding⟩

/-- Each value of an enumeration has a member name of its own or is a problem. -/
theorem length_duplicateMembers_le (owner : String) (seen : List (String × String))
    (vs : List EnumValue) : (duplicateMembers owner seen vs).length ≤ vs.length := by
  induction vs generalizing seen with
  | nil => simp [duplicateMembers]
  | cons v rest ih =>
    simp only [duplicateMembers]
    split
    · simpa using ih seen
    · exact Nat.le_succ_of_le (ih _)

end SchemaTypes.Check
