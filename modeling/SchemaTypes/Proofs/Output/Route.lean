/-
# Where the files of a plan go

The names of the physical path of every planned file, in both layouts: its directories
(`enumRoute`, `baseRoute`, `sharedRoute`, or the directory of the models alone) and the name of the
file.  All names of types are taken to be names that files can have.
-/
import SchemaTypes.Proofs.Naming
import SchemaTypes.Proofs.Output.Plan
import SchemaTypes.Proofs.Text.Path

namespace SchemaTypes.Output

open Naming (IsStem)

/-! ## 1. Names of files -/

/-- The name of the file of a type. -/
def fileName (name : String) : String := name ++ ".ts"

theorem toList_fileName (name : String) : (fileName name).toList = name.toList ++ ".ts".toList :=
  String.toList_append

theorem fileName_inj {a b : String} (h : fileName a = fileName b) : a = b := by
  have := congrArg String.toList h
  rw [toList_fileName, toList_fileName] at this
  exact String.toList_inj.1 (List.append_cancel_right this)

/-- A text of at most two characters, or with another last character, is not the name of a file. -/
theorem fileName_ne {name other : String}
    (h : other.toList.getLast? ≠ some 's') : fileName name ≠ other := by
  rintro rfl
  exact h (by rw [toList_fileName]; simp)

theorem isPlain_fileName (name : String) : Path.IsPlain (fileName name) :=
  ⟨fileName_ne (by decide), fileName_ne (by decide), fileName_ne (by decide)⟩

theorem slash_not_mem_fileName {name : String} (h : '/' ∉ name.toList) :
    '/' ∉ (fileName name).toList := by
  rw [toList_fileName, List.mem_append]
  exact fun hm => hm.elim h (by decide)

theorem names_fileName {name : String} (h : '/' ∉ name.toList) :
    (Pathname.ofText (fileName name)).names = [fileName name] :=
  Pathname.names_single (slash_not_mem_fileName h) (fileName_ne (by decide))
    (fileName_ne (by decide))

theorem baseName_fileName {name : String} (h : '/' ∉ name.toList) :
    Path.baseName (fileName name) = fileName name := by
  rw [Path.baseName, Path.names_of_not_mem (slash_not_mem_fileName h)]
  rfl

/-- The name of a file behind a directory. -/
theorem baseName_slash_fileName (directory : String) {name : String} (h : '/' ∉ name.toList) :
    Path.baseName (directory ++ "/" ++ fileName name) = fileName name := by
  rw [Path.baseName, Path.names_slash, Path.names_of_not_mem (slash_not_mem_fileName h)]
  simp

/-- Joining one name. -/
theorem names_join_fileName (a : String) {name : String} (h : '/' ∉ name.toList) :
    (Pathname.ofText (Path.join a (fileName name))).names
      = (Pathname.ofText a).names ++ [fileName name] := by
  rw [Pathname.names_join a (Path.isAbsolute_of_not_mem (slash_not_mem_fileName h)),
    names_fileName h]

/-- Joining a directory that is one name. -/
theorem names_join_directory (a : String) {directory : String} (hs : '/' ∉ directory.toList)
    (hne : directory ≠ "") (hdot : directory ≠ ".") :
    (Pathname.ofText (Path.join a directory)).names = (Pathname.ofText a).names ++ [directory] := by
  rw [Pathname.names_join a (Path.isAbsolute_of_not_mem hs), Pathname.names_single hs hne hdot]

/-! ## 2. Directories -/

/-- The directory of the models. -/
def modelRoute (config : Config) : List String := (Pathname.ofText config.modelsPath).names

/-- The directory of the package. -/
def packageRoute (config : Config) : List String := (Pathname.ofText (packageRoot config)).names

/-- The directory of enumerations. -/
def enumRoute (config : Config) (plugin : Bool) : List String :=
  match config.layout, plugin with
  | .package, _ => packageRoute config ++ ["enum"]
  | .flat, false => modelRoute config ++ ["enum"]
  | .flat, true => modelRoute config ++ ["enum", "plugin"]

/-- The directory of entities. -/
def baseRoute (config : Config) : List String :=
  match config.layout with
  | .package => packageRoute config ++ ["schemas"]
  | .flat => modelRoute config ++ ["base"]

/-- The directory of the shared files. -/
def sharedRoute (config : Config) : List String :=
  match config.layout with
  | .package => packageRoute config ++ ["schemas"]
  | .flat => modelRoute config

/-- The place of a file does not depend on its content. -/
def placeOf (config : Config) (path : String) (category : Category) (overwrite : Bool) : String :=
  outputPath { path := path, content := "", category := category, overwrite := overwrite } config

/-- The names of the place of a file. -/
def placeNames (config : Config) (m : PlannedModule) : List String :=
  (Pathname.ofText (placeOf config m.path m.category m.overwrite)).names

theorem outputPath_toFile (config : Config) (m : PlannedModule) :
    outputPath m.toFile config = placeOf config m.path m.category m.overwrite := rfl

/-- Whatever belongs to no other directory goes to the models. -/
theorem placeOf_schema {path : String} {overwrite : Bool}
    (h : (overwrite && sharedFiles.contains path) = false) :
    placeOf config path .schema overwrite = Path.join config.modelsPath path := by
  unfold placeOf outputPath
  cases config.layout
  · rfl
  · exact if_neg (by simpa using h)

/-! ## 3. Routes -/

variable {collection : Collection} {config : Config} {paths : ImportPaths}

theorem names_enum_directory (a : String) :
    (Pathname.ofText (Path.join a "enum")).names = (Pathname.ofText a).names ++ ["enum"] :=
  names_join_directory a (by decide) (by decide) (by decide)

theorem names_schemas_directory (a : String) :
    (Pathname.ofText (Path.join a "schemas")).names = (Pathname.ofText a).names ++ ["schemas"] :=
  names_join_directory a (by decide) (by decide) (by decide)

theorem names_plugin_directory (a : String) :
    (Pathname.ofText (Path.join a "plugin")).names = (Pathname.ofText a).names ++ ["plugin"] :=
  names_join_directory a (by decide) (by decide) (by decide)

/-- A file in a directory under the models. -/
theorem names_join_slash (a directory : String) {name : String} (hs : '/' ∉ directory.toList)
    (hne : directory ≠ "") (hdot : directory ≠ ".") (h : '/' ∉ name.toList) :
    (Pathname.ofText (Path.join a (directory ++ "/" ++ fileName name))).names
      = (Pathname.ofText a).names ++ [directory, fileName name] := by
  have hrelative : Path.isAbsolute (directory ++ ("/" ++ fileName name)) = false :=
    Path.isAbsolute_append hne (Path.isAbsolute_of_not_mem hs) _
  rw [String.append_assoc, Pathname.names_join a hrelative, ← String.append_assoc,
    Pathname.names_slash, Pathname.names_single hs hne hdot, names_fileName h]
  rfl

theorem slash_not_mem_shared : ∀ path ∈ sharedFiles, '/' ∉ path.toList := by decide

/-- No path with a directory is one of the shared files. -/
theorem sharedFiles_not_contains {path : String} (h : '/' ∈ path.toList) {b : Bool} :
    (b && sharedFiles.contains path) = false := by
  cases hc : sharedFiles.contains path with
  | false => exact Bool.and_false b
  | true => exact absurd h (slash_not_mem_shared path (List.contains_iff_mem.1 hc))

/-- The place of the module of an enumeration. -/
theorem placeNames_enum {room : Nat} {e : Enumeration} {m : PlannedModule}
    (h : '/' ∉ e.name.toList) (hm : planEnum room config e = .ok m) :
    placeNames config m = enumRoute config e.plugin ++ [fileName e.name] := by
  obtain ⟨source, -, rfl⟩ := planEnum_eq_ok_iff.1 hm
  have hbase : Path.baseName (e.name ++ ".ts") = fileName e.name := baseName_fileName h
  unfold placeNames placeOf outputPath enumRoute
  simp only [hbase]
  cases config.layout <;> cases e.plugin <;>
    simp [names_join_fileName _ h, names_enum_directory, names_plugin_directory, modelRoute,
      packageRoute]

/-- The place of the module of an alias. -/
theorem placeNames_alias {a : TypeAlias} (h : '/' ∉ a.name.toList) :
    placeNames config (planAlias a) = enumRoute config false ++ [fileName a.name] := by
  have hbase : Path.baseName (a.name ++ ".ts") = fileName a.name := baseName_fileName h
  unfold placeNames placeOf outputPath planAlias enumRoute
  simp only [hbase]
  cases config.layout <;>
    simp [names_join_fileName _ h, names_enum_directory, modelRoute, packageRoute]

/-- The place of the file of an entity. -/
theorem placeNames_base {s : Schema} (h : '/' ∉ s.name.toList) :
    placeNames config (planBase collection config paths s)
      = baseRoute config ++ [fileName s.name] := by
  have hpath : "base/" ++ s.name ++ ".ts" = "base" ++ "/" ++ fileName s.name :=
    String.append_assoc
  show (Pathname.ofText (placeOf config ("base/" ++ s.name ++ ".ts") .base true)).names = _
  rw [hpath]
  unfold placeOf outputPath baseRoute
  simp only [baseName_slash_fileName "base" h]
  cases config.layout
  · show (Pathname.ofText (Path.join config.modelsPath ("base" ++ "/" ++ fileName s.name))).names
      = modelRoute config ++ ["base"] ++ [fileName s.name]
    rw [names_join_slash config.modelsPath "base" (by decide) (by decide) (by decide) h,
      List.append_assoc]
    rfl
  · simp [names_join_fileName _ h, names_schemas_directory, packageRoute]

/-- The place of a model file. -/
theorem placeNames_model {s : Schema} (h : '/' ∉ s.name.toList) :
    placeNames config (planModel config paths s) = modelRoute config ++ [fileName s.name] := by
  show (Pathname.ofText (placeOf config (fileName s.name) .schema false)).names = _
  rw [placeOf_schema rfl]
  exact names_join_fileName _ h

/-- The place of a file of rules. -/
theorem placeNames_rules {s : Schema} (h : '/' ∉ s.name.toList) :
    placeNames config (planRules config paths s)
      = modelRoute config ++ ["rules", fileName (s.name ++ ".rules")] := by
  have hrules : '/' ∉ (s.name ++ ".rules").toList := by
    rw [String.toList_append, List.mem_append]
    exact fun hm => hm.elim h (by decide)
  have hpath : "rules/" ++ s.name ++ ".rules.ts"
      = "rules" ++ "/" ++ fileName (s.name ++ ".rules") := by
    refine String.toList_inj.1 ?_
    simp [fileName]
  show (Pathname.ofText (placeOf config ("rules/" ++ s.name ++ ".rules.ts") .schema true)).names = _
  rw [hpath, placeOf_schema]
  · exact names_join_slash config.modelsPath "rules" (by decide) (by decide) (by decide) hrules
  · exact sharedFiles_not_contains (by simp)

/-- The place of the common file or of the internationalisation module. -/
theorem names_placeOf_shared {name : String} (h : fileName name ∈ sharedFiles) {c : Category}
    (hc : c = .base ∨ c = .schema) :
    (Pathname.ofText (placeOf config (fileName name) c true)).names
      = sharedRoute config ++ [fileName name] := by
  have hs : '/' ∉ name.toList := fun hm => slash_not_mem_shared _ h (by simp [fileName, hm])
  have hbase := baseName_fileName hs
  have hcontains : sharedFiles.contains (fileName name) = true := List.contains_iff_mem.2 h
  unfold placeOf outputPath sharedRoute
  simp only [hbase, hcontains]
  rcases hc with rfl | rfl <;> cases config.layout <;>
    simp [names_join_fileName _ hs, names_schemas_directory, modelRoute, packageRoute]

theorem sharedCategory_cases (paths : ImportPaths) :
    sharedCategory paths = .base ∨ sharedCategory paths = .schema := by
  unfold sharedCategory
  cases paths.baseIsPackage
  · exact .inr rfl
  · exact .inl rfl

theorem placeNames_common :
    placeNames config (planCommon config paths) = sharedRoute config ++ [fileName "common"] := by
  have hname : "common.ts" = fileName "common" := by decide
  simp only [placeNames, planCommon, hname]
  exact names_placeOf_shared (by decide) (sharedCategory_cases paths)

theorem placeNames_i18n :
    placeNames config (planI18n config paths) = sharedRoute config ++ [fileName "i18n"] := by
  have hname : "i18n.ts" = fileName "i18n" := by decide
  simp only [placeNames, planI18n, hname]
  exact names_placeOf_shared (by decide) (sharedCategory_cases paths)

/-- The place of the index. -/
theorem placeNames_index :
    placeNames config (planIndex collection config paths)
      = modelRoute config ++ [fileName "index"] := by
  have hname : "index.ts" = fileName "index" := by decide
  simp only [placeNames, planIndex, hname]
  rw [placeOf_schema (by decide)]
  exact names_join_fileName _ (by decide)

/-! ## 4. Names of types -/

/-- All names that become names of types can name files. -/
structure PlainNames (collection : Collection) (config : Config) : Prop where
  schemas : ∀ s ∈ collection.schemas, IsStem s.name
  properties : ∀ s ∈ collection.schemas, ∀ e ∈ s.properties, IsStem e.1
  plugins : ∀ e ∈ config.pluginEnums, IsStem e.2.name

theorem PlainNames.entity (h : PlainNames collection config) {s : Schema}
    (hs : s ∈ visibleSchemas collection) : IsStem s.name :=
  h.schemas s (List.mem_of_mem_filter (List.mem_of_mem_filter hs))

/-- The enumerations of schemas are named like them and are no plugin enumerations. -/
theorem exists_schema_of_enumeration {e : Enumeration}
    (h : e ∈ Enumeration.all collection config) :
    ∃ s ∈ collection.schemas, s.name = e.name ∧ e.plugin = false := by
  obtain ⟨s, hs, he⟩ := List.mem_filterMap.1 h
  refine ⟨s, List.mem_of_mem_filter hs, ?_⟩
  unfold Enumeration.ofSchema? at he
  split at he
  · rw [← Option.some.inj he]
    exact ⟨rfl, rfl⟩
  · exact nomatch he

theorem PlainNames.schemaEnum (h : PlainNames collection config) {e : Enumeration}
    (he : e ∈ Enumeration.all collection config) : IsStem e.name ∧ e.plugin = false := by
  obtain ⟨s, hs, hname, hplugin⟩ := exists_schema_of_enumeration he
  exact ⟨hname ▸ h.schemas s hs, hplugin⟩

theorem PlainNames.pluginEnum (h : PlainNames collection config) {e : Enumeration}
    (he : e ∈ Enumeration.allPlugin config) : IsStem e.name ∧ e.plugin = true := by
  obtain ⟨p, hp, rfl⟩ := List.mem_map.1 he
  exact ⟨h.plugins p hp, rfl⟩

/-- The types of properties are named after their properties. -/
theorem exists_property_of_mem_inline {x : InlineEnum} (hx : x ∈ InlineEnum.all collection config) :
    ∃ s ∈ collection.objectSchemas, ∃ e ∈ s.properties,
      x.name = InlineEnum.typeName s.name e.1 ∧ ∀ a b e', x = .enum a b e' → e'.plugin = false := by
  obtain ⟨s, hs, hx⟩ := List.mem_flatMap.1 hx
  obtain ⟨e, he, hx⟩ := List.mem_filterMap.1 hx
  refine ⟨s, hs, e, he, ?_⟩
  unfold InlineEnum.ofProperty? at hx
  dsimp only at hx
  split at hx
  · exact nomatch hx
  · split at hx
    · rw [← Option.some.inj hx]
      refine ⟨rfl, fun a b e' heq => ?_⟩
      cases heq
      rfl
    · rw [← Option.some.inj hx]
      exact ⟨rfl, fun a b e' heq => nomatch heq⟩

theorem PlainNames.inline (h : PlainNames collection config) {x : InlineEnum}
    (hx : x ∈ InlineEnum.all collection config) : IsStem x.name := by
  obtain ⟨s, hs, e, he, hname, -⟩ := exists_property_of_mem_inline hx
  have hs' := List.mem_of_mem_filter hs
  rw [hname]
  exact InlineEnum.isStem_typeName (h.schemas s hs') (h.properties s hs' e he)

/-- The place of the module of a property that lists values. -/
theorem PlainNames.placeNames_inline (h : PlainNames collection config) {room : Nat}
    {x : InlineEnum} {m : PlannedModule} (hx : x ∈ InlineEnum.all collection config)
    (hm : planInline room config x = .ok m) :
    placeNames config m = enumRoute config false ++ [fileName x.name] := by
  have hname := (h.inline hx).slash
  obtain ⟨-, -, -, -, -, hplugin⟩ := exists_property_of_mem_inline hx
  rcases x with ⟨a, b, e⟩ | ⟨a, b, t⟩
  · rw [placeNames_enum hname hm, hplugin a b e rfl]
    rfl
  · cases hm
    exact placeNames_alias hname

end SchemaTypes.Output
