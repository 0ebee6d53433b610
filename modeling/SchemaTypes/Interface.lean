/-
# Interfaces of entities

`expand` turns a property into the fields of an interface: several for a compound type (one for
each entry, then one for each accessor), three for a relation to one of several entities, one
otherwise.  `ofSchema` adds the primary key in front and the time stamps behind, and lists the
entities and enumerations that the fields need.
-/
import SchemaTypes.TypeScript.TypeExpr
import SchemaTypes.Schema.Config
import SchemaTypes.Locale
import SchemaTypes.Naming
import SchemaTypes.Text.Order

namespace SchemaTypes

/-- One line of an interface. -/
structure InterfaceField where
  name : String
  type : String
  optional : Bool := false
  readonly : Bool := false
  comment : Option String := none
deriving DecidableEq, Repr

/-- The interface of an entity. -/
structure Interface where
  name : String
  fields : List InterfaceField
  comment : String
  dependencies : List String := []
  enumDependencies : List String := []
deriving DecidableEq, Repr

namespace Interface

/-- The names of the fields. -/
def fieldNames (i : Interface) : List String := i.fields.map (·.name)

/-- The text occurs in the type of some field. -/
def usesType (i : Interface) (name : String) : Bool :=
  i.fields.any fun f => Text.contains f.type name

/-! ## 1. Fields of one property -/

/-- The text of a label in the target locale. -/
def labelText (config : Config) (label : Option Label) : Option String :=
  Locale.resolve label config.locale (some config.localeConfig)

/-- The text, unless it is missing or empty. -/
def orElse (text : Option String) (other : String) : String :=
  (text.filter (!·.isEmpty)).getD other

/-- The plugin type of a property that has one. -/
def customTypeOf? (config : Config) (p : Property) : Option CustomType :=
  match p.kind with
  | .custom => config.customType? p.tag
  | _ => none

/-- Whether one entry of a compound type may be absent: the schema decides, else the plugin, else
the property. -/
def entryNullable (p : Property) (e : CompoundEntry) : Bool :=
  (((p.overrides.lookup e.suffix).bind (·.nullable)) <|> e.nullable <|> p.nullable).getD false

/-- The name of a field of a compound property. -/
def partName (name part : String) : String := name ++ "_" ++ Naming.snake part

/-- The field of one entry of a compound type. -/
def entryField (config : Config) (name : String) (p : Property) (title : String)
    (e : CompoundEntry) : InterfaceField :=
  ⟨partName name e.suffix, e.typeHint, entryNullable p e, config.isReadonly,
    some (title ++ " (" ++ e.suffix ++ ")")⟩

/-- The field of one accessor of a compound type. -/
def accessorField (name title accessor : String) : InterfaceField :=
  ⟨partName name accessor, "string | null", true, true, some (title ++ " (computed)")⟩

/-- The fields of a compound property. -/
def compoundFields (config : Config) (name : String) (p : Property) (t : CustomType)
    (title : String) : List InterfaceField :=
  t.expand.map (entryField config name p title) ++ t.accessors.map (accessorField name title)

/-- The fields of a relation to one of several entities: which entity, its key, the entity. -/
def oneOfFields (config : Config) (name : String) (targets : List String)
    (shown : Option String) : List InterfaceField :=
  let ro := config.isReadonly
  let which := if targets.isEmpty then "string" else TypeExpr.literalUnion targets
  let union := if targets.isEmpty then TypeExpr.unknown else String.intercalate " | " targets
  let doc :=
    if targets.isEmpty then "Polymorphic relation"
    else "Polymorphic relation to " ++ String.intercalate ", " targets
  [⟨name ++ "Type", which, true, ro, some ("Polymorphic type for " ++ name)⟩,
   ⟨name ++ "Id", "number", true, ro, some ("Polymorphic ID for " ++ name)⟩,
   ⟨name, union ++ " | null", true, ro, some (orElse shown doc)⟩]

/-- The field of a property that needs only one. -/
def singleField (config : Config) (name : String) (p : Property) (type : String)
    (shown : Option String) : InterfaceField :=
  ⟨name, type, p.isNullable, config.isReadonly, shown⟩

/-- The fields of a property before null members are dropped. -/
def expandStrict (collection : Collection) (config : Config) (name : String) (p : Property) :
    List InterfaceField :=
  let shown := labelText config p.displayName
  match customTypeOf? config p with
  | some t =>
    if t.compound then compoundFields config name p t (orElse shown name)
    else [singleField config name p t.typeHint shown]
  | none =>
    match p.kind with
    | .association "MorphTo" _ targets => oneOfFields config name targets shown
    | _ =>
      [singleField config name p (TypeExpr.resolve p (some collection) config.customTypes).expr
        shown]

/-- A type without its null members. -/
def dropNull (type : String) : String := Text.replace type " | null" ""

/-- The field without null members, unless null checks are strict. -/
def applyNullPolicy (strict : Bool) (f : InterfaceField) : InterfaceField :=
  if strict then f else { f with type := dropNull f.type }

/-- The fields of a property. -/
def expand (collection : Collection) (config : Config) (name : String) (p : Property) :
    List InterfaceField :=
  (expandStrict collection config name p).map (applyNullPolicy config.strictNullChecks)

/-! ## 2. Entities -/

/-- A time stamp. -/
def stampField (config : Config) (name comment : String) : InterfaceField :=
  ⟨name, "DateTimeString", true, config.isReadonly, some comment⟩

/-- The fields of an entity. -/
def fieldsOf (collection : Collection) (config : Config) (s : Schema) : List InterfaceField :=
  let key : List InterfaceField :=
    if s.options.id then
      [⟨"id", TypeExpr.primaryKey s.options.idType, false, config.isReadonly, some "Primary key"⟩]
    else []
  let stamps :=
    if s.options.timestamps then
      [stampField config "created_at" "Creation timestamp",
       stampField config "updated_at" "Last update timestamp"]
    else []
  let deleted :=
    if s.options.softDelete then [stampField config "deleted_at" "Soft delete timestamp"] else []
  key ++ s.properties.flatMap (fun e => expand collection config e.1 e.2) ++ stamps ++ deleted

/-- The other entities that the fields mention. -/
def dependenciesOf (collection : Collection) (name : String) (fields : List InterfaceField) :
    List String :=
  Text.sortedSet
    ((fields.flatMap fun f => TypeExpr.references f.type collection.objectNames).filter (· != name))

/-- The enumeration that a property refers to. -/
def enumOf? (p : Property) : Option String :=
  match p.kind with
  | .enumRef enum => some enum
  | _ => none

/-- The enumerations that a schema refers to. -/
def enumDependenciesOf (s : Schema) : List String :=
  Text.sortedSet (s.properties.filterMap fun e => enumOf? e.2)

/-- The interface of an entity. -/
def ofSchema (collection : Collection) (config : Config) (s : Schema) : Interface :=
  let fields := fieldsOf collection config s
  { name := s.name
    fields := fields
    comment := orElse (labelText config s.displayName) s.name
    dependencies := dependenciesOf collection s.name fields
    enumDependencies := enumDependenciesOf s }

/-- The interfaces of the entities that are not hidden, in order. -/
def all (collection : Collection) (config : Config) : List Interface :=
  (collection.objectSchemas.filter (!·.isHidden)).map (ofSchema collection config)

/-! ## 3. Small laws -/

/-- The null policy changes only types. -/
theorem applyNullPolicy_name (strict : Bool) (f : InterfaceField) :
    (applyNullPolicy strict f).name = f.name := by
  cases strict <;> rfl

/-- A compound property has a field for each entry and each accessor. -/
theorem length_compoundFields (config : Config) (name : String) (p : Property) (t : CustomType)
    (title : String) :
    (compoundFields config name p t title).length = t.expand.length + t.accessors.length := by
  simp [compoundFields]

/-- No entity depends on itself. -/
theorem self_not_mem_dependenciesOf (collection : Collection) (name : String)
    (fields : List InterfaceField) : name ∉ dependenciesOf collection name fields := by
  simp [dependenciesOf, Text.mem_sortedSet]

end Interface

end SchemaTypes
