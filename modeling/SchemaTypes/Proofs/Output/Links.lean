/-
# The links of a flat tree

In the flat layout every link of a generated module leads to a generated module that exports its
name (`links_lead_to_exports`).  The modules stand in five directories; a link names one of them by
the way from its own (`Reaches`), and each kind of module offers its names in one of them
(`Offers`).  What holds of all planned modules is proved by cases on their origin.
-/
import SchemaTypes.Check.Full
import SchemaTypes.Proofs.Output.Exports
import SchemaTypes.Proofs.Output.Route

namespace SchemaTypes.Output

open Naming (IsStem)
open TypeScript (EndsModule ImportDecl Leads Link modulePath)

/-! ## 1. Flat trees -/

/-- No import has a prefix. -/
structure Unprefixed (config : Config) : Prop where
  enums : ImportPaths.given config.enumImportPrefix = none
  schemaEnums : ImportPaths.given config.schemaEnumImportPrefix = none
  pluginEnums : ImportPaths.given config.pluginEnumImportPrefix = none
  base : ImportPaths.given config.baseImportPrefix = none

/-- A snapshot whose files refer to each other by relative paths, and to nothing that has no
file. -/
structure FlatTree (collection : Collection) (config : Config) : Prop where
  names : PlainNames collection config
  layout : config.layout = .flat
  unprefixed : Unprefixed config
  keys : ∀ e ∈ config.pluginEnums, e.2.name = e.1
  visible : ∀ s ∈ collection.objectSchemas, s.isHidden = false
  enums : "UNKNOWN_ENUM_REFERENCE" ∉ (Check.validate collection config).codes

/-- The locations of a flat tree. -/
def flatPaths (config : Config) : ImportPaths :=
  { ext := config.importExtension
    schemaEnums := "../enum"
    pluginEnums := "../enum/plugin"
    indexEnums := "./enum"
    indexPluginEnums := "./enum/plugin"
    base := "./base"
    baseIsPackage := false }

variable {collection : Collection} {config : Config}

theorem FlatTree.ofConfig (h : FlatTree collection config) :
    ImportPaths.ofConfig config = flatPaths config := by
  have horPackage {location : Option String} (directory : String)
      (hg : ImportPaths.given location = none) :
      ImportPaths.orPackage config location directory = none := by
    rw [ImportPaths.orPackage, hg, h.layout]
  have hbase : ImportPaths.enumsFromBase config none = "../enum" := by
    unfold ImportPaths.enumsFromBase
    rw [h.unprefixed.schemaEnums]
  unfold ImportPaths.ofConfig
  rw [horPackage "enum" h.unprefixed.enums, horPackage "enum" h.unprefixed.pluginEnums,
    horPackage "schemas" h.unprefixed.base]
  simp only [hbase]
  rfl

theorem importExtension_cases (config : Config) :
    config.importExtension = "" ∨ config.importExtension = ".js" := by
  unfold Config.importExtension
  cases config.useJsExtension
  · exact .inl rfl
  · exact .inr rfl

/-- The entities that the checks know are those with files. -/
theorem FlatTree.mem_visible (h : FlatTree collection config) {s : Schema}
    (hs : s ∈ collection.objectSchemas) : s ∈ visibleSchemas collection := by
  refine List.mem_filter.2 ⟨hs, ?_⟩
  rw [h.visible s hs]
  rfl

/-! ## 2. Places -/

/-- A module stands in a directory of the tree under a name. -/
def Lies (config : Config) (m : PlannedModule) (directory : List String) (name : String) : Prop :=
  Pathname.ofText (outputPath m.toFile config)
    = ⟨(Pathname.ofText config.modelsPath).root,
        modelRoute config ++ directory ++ [fileName name]⟩

/-- Every file of a flat tree begins like the directory of the models. -/
theorem root_outputPath (hl : config.layout = .flat) {m : PlannedModule}
    (hpath : Path.isAbsolute m.path = false) :
    (Pathname.ofText (outputPath m.toFile config)).root
      = (Pathname.ofText config.modelsPath).root := by
  have hbase := Path.isAbsolute_baseName m.path
  rw [outputPath_toFile]
  unfold placeOf outputPath
  rw [hl]
  cases m.category
  · exact Pathname.root_join _ hpath
  · exact Pathname.root_join _ hpath
  · exact (Pathname.root_join _ hbase).trans (Pathname.root_join _ (by decide))
  · exact (Pathname.root_join _ hbase).trans ((Pathname.root_join _ (by decide)).trans
      (Pathname.root_join _ (by decide)))

theorem Lies.of_placeNames (hl : config.layout = .flat) {m : PlannedModule}
    {directory : List String} {name : String} (hpath : Path.isAbsolute m.path = false)
    (hnames : placeNames config m = modelRoute config ++ directory ++ [fileName name]) :
    Lies config m directory name := by
  rw [Lies, ← root_outputPath hl hpath, ← hnames]
  rfl

/-! ## 3. What modules offer -/

/-- In a directory, under a name, stands a planned module that exports `x`. -/
def Offers (collection : Collection) (config : Config) (directory : List String)
    (name x : String) : Prop :=
  ∃ m, Origin collection config m ∧ Lies config m directory name ∧ x ∈ m.source.exportedNames

section Offers

variable {ms : List PlannedModule}

theorem enumRoute_flat (hl : config.layout = .flat) (plugin : Bool) :
    enumRoute config plugin
      = modelRoute config ++ if plugin then ["enum", "plugin"] else ["enum"] := by
  unfold enumRoute
  rw [hl]
  cases plugin <;> rfl

/-- The module of an enumeration: its path, its names, and that it has no links. -/
theorem planEnum_spec {room : Nat} {e : Enumeration} {m : PlannedModule}
    (h : planEnum room config e = .ok m) :
    m.path = fileName e.name ∧ Exports m.source (valueNames e.name) ∧ m.source.links = [] := by
  obtain ⟨source, hsource, rfl⟩ := planEnum_eq_ok_iff.1 h
  exact ⟨rfl, enumModule_spec hsource⟩

theorem planInline_spec {room : Nat} {t : InlineEnum} {m : PlannedModule}
    (h : planInline room config t = .ok m) :
    m.path = fileName t.name ∧ Exports m.source (valueNames t.name) ∧ m.source.links = [] := by
  rcases t with ⟨_, _, e⟩ | ⟨_, _, a⟩
  · exact planEnum_spec h
  · cases h
    exact ⟨rfl, aliasModule_spec a⟩

theorem FlatTree.lies_enum (h : FlatTree collection config) {room : Nat} {e : Enumeration}
    {m : PlannedModule} (hm : planEnum room config e = .ok m) (hname : IsStem e.name) :
    Lies config m (if e.plugin then ["enum", "plugin"] else ["enum"]) e.name := by
  refine .of_placeNames h.layout ?_ ?_
  · rw [(planEnum_spec hm).1]
    exact Path.isAbsolute_of_not_mem (slash_not_mem_fileName hname.slash)
  · rw [placeNames_enum hname.slash hm, enumRoute_flat h.layout]

theorem FlatTree.lies_inline (h : FlatTree collection config) {room : Nat} {t : InlineEnum}
    {m : PlannedModule} (ht : t ∈ InlineEnum.all collection config)
    (hm : planInline room config t = .ok m) : Lies config m ["enum"] t.name := by
  refine .of_placeNames h.layout ?_ ?_
  · rw [(planInline_spec hm).1]
    exact Path.isAbsolute_of_not_mem (slash_not_mem_fileName (h.names.inline ht).slash)
  · rw [h.names.placeNames_inline ht hm, enumRoute_flat h.layout, if_neg Bool.false_ne_true]

/-- Enumerations of schemas. -/
theorem FlatTree.offers_enum (h : FlatTree collection config)
    (hms : planModules collection config = .ok ms) {e : Enumeration}
    (he : e ∈ Enumeration.all collection config) {x : String} (hx : x ∈ valueNames e.name) :
    Offers collection config ["enum"] e.name x := by
  obtain ⟨m, hm⟩ := (exists_module_of_mem hms).1 e he
  obtain ⟨hname, hplugin⟩ := h.names.schemaEnum he
  have hlies := h.lies_enum hm hname
  rw [hplugin] at hlies
  exact ⟨m, .schemaEnum he hm, hlies, (planEnum_spec hm).2.1 x hx⟩

/-- Enumerations of plugins. -/
theorem FlatTree.offers_pluginEnum (h : FlatTree collection config)
    (hms : planModules collection config = .ok ms) {e : Enumeration}
    (he : e ∈ Enumeration.allPlugin config) {x : String} (hx : x ∈ valueNames e.name) :
    Offers collection config ["enum", "plugin"] e.name x := by
  obtain ⟨m, hm⟩ := (exists_module_of_mem hms).2.1 e he
  obtain ⟨hname, hplugin⟩ := h.names.pluginEnum he
  have hlies := h.lies_enum hm hname
  rw [hplugin] at hlies
  exact ⟨m, .pluginEnum he hm, hlies, (planEnum_spec hm).2.1 x hx⟩

/-- Types of properties. -/
theorem FlatTree.offers_inline (h : FlatTree collection config)
    (hms : planModules collection config = .ok ms) {t : InlineEnum}
    (ht : t ∈ InlineEnum.all collection config) {x : String} (hx : x ∈ valueNames t.name) :
    Offers collection config ["enum"] t.name x := by
  obtain ⟨m, hm⟩ := (exists_module_of_mem hms).2.2 t ht
  exact ⟨m, .inline ht hm, h.lies_inline ht hm, (planInline_spec hm).2.1 x hx⟩

/-- Files of entities. -/
theorem FlatTree.lies_base (h : FlatTree collection config) {s : Schema} (paths : ImportPaths)
    (hs : s ∈ visibleSchemas collection) :
    Lies config (planBase collection config paths s) ["base"] s.name := by
  refine .of_placeNames h.layout ?_ ?_
  · show Path.isAbsolute ("base/" ++ s.name ++ ".ts") = false
    rw [String.append_assoc]
    exact Path.isAbsolute_append (by decide) (by decide) _
  · rw [placeNames_base (h.names.entity hs).slash, baseRoute, h.layout]

/-- What the file of an entity exports. -/
theorem planBase_exports (paths : ImportPaths) (s : Schema) :
    Exports (planBase collection config paths s).source
      (s.name :: if config.generateZodSchemas then baseSchemaNames s.name ++ labelHelpers s.name
        else utilityNames s.name) := by
  simp only [planBase]
  cases config.generateZodSchemas with
  | true => exact baseModule_exports (Interface.ofSchema collection config s) paths (some _) _ _
  | false => exact baseModule_exports (Interface.ofSchema collection config s) paths none _ _

theorem FlatTree.offers_base (h : FlatTree collection config) {s : Schema}
    (hs : s ∈ visibleSchemas collection) {x : String}
    (hx : x ∈ s.name :: if config.generateZodSchemas then
      baseSchemaNames s.name ++ labelHelpers s.name else utilityNames s.name) :
    Offers collection config ["base"] s.name x :=
  ⟨_, .base hs, h.lies_base _ hs, planBase_exports _ s x hx⟩

/-- Model files. -/
theorem FlatTree.lies_model (h : FlatTree collection config) {s : Schema} (paths : ImportPaths)
    (hs : s ∈ visibleSchemas collection) : Lies config (planModel config paths s) [] s.name := by
  have hslash := (h.names.entity hs).slash
  refine .of_placeNames h.layout (Path.isAbsolute_of_not_mem (slash_not_mem_fileName hslash)) ?_
  rw [placeNames_model hslash, List.append_nil]

theorem FlatTree.offers_model (h : FlatTree collection config) {s : Schema}
    (hs : s ∈ visibleSchemas collection) {x : String}
    (hx : x ∈ s.name :: if config.generateZodSchemas then
      modelSchemaNames s.name ++ utilityNames s.name ++ labelHelpers s.name else []) :
    Offers collection config [] s.name x :=
  ⟨_, .model hs, h.lies_model _ hs, modelModule_exports s.name _ config.generateZodSchemas x hx⟩

/-- Files of rules. -/
theorem FlatTree.lies_rules (h : FlatTree collection config) {s : Schema} (paths : ImportPaths)
    (hs : s ∈ visibleSchemas collection) :
    Lies config (planRules config paths s) ["rules"] (s.name ++ ".rules") := by
  refine .of_placeNames h.layout ?_ ?_
  · show Path.isAbsolute ("rules/" ++ s.name ++ ".rules.ts") = false
    rw [String.append_assoc]
    exact Path.isAbsolute_append (by decide) (by decide) _
  · rw [placeNames_rules (h.names.entity hs).slash, List.append_assoc]
    rfl

theorem FlatTree.offers_rules (h : FlatTree collection config) {s : Schema}
    (hs : s ∈ visibleSchemas collection)
    (hwanted : (config.generateRules && !config.generateZodSchemas) = true) {x : String}
    (hx : x ∈ ruleNames s.name) :
    Offers collection config ["rules"] (s.name ++ ".rules") x :=
  ⟨_, .rules hwanted hs, h.lies_rules _ hs, (rulesModule_spec s.name _ _).1 x hx⟩

/-- Shared files. -/
theorem FlatTree.lies_common (h : FlatTree collection config) (paths : ImportPaths) :
    Lies config (planCommon config paths) [] "common" := by
  refine .of_placeNames h.layout (show Path.isAbsolute "common.ts" = false by decide) ?_
  rw [placeNames_common, sharedRoute, h.layout, List.append_nil]

theorem FlatTree.lies_i18n (h : FlatTree collection config) (paths : ImportPaths) :
    Lies config (planI18n config paths) [] "i18n" := by
  refine .of_placeNames h.layout (show Path.isAbsolute "i18n.ts" = false by decide) ?_
  rw [placeNames_i18n, sharedRoute, h.layout, List.append_nil]

theorem FlatTree.lies_index (h : FlatTree collection config) (paths : ImportPaths) :
    Lies config (planIndex collection config paths) [] "index" := by
  refine .of_placeNames h.layout (show Path.isAbsolute "index.ts" = false by decide) ?_
  rw [placeNames_index, List.append_nil]

theorem FlatTree.offers_common (h : FlatTree collection config) {x : String}
    (hx : x ∈ commonNames) : Offers collection config [] "common" x :=
  ⟨_, .common, h.lies_common _, (commonModule_spec config).1 x hx⟩

theorem FlatTree.offers_i18n (h : FlatTree collection config) {x : String}
    (hx : x ∈ i18nNames) : Offers collection config [] "i18n" x :=
  ⟨_, .i18n, h.lies_i18n _, (i18nModule_spec config _).1 x hx⟩

end Offers

/-! ## 4. Where links lead -/

/-- From a directory a link leads to one in which its name is offered. -/
def Reaches (collection : Collection) (config : Config) (directory : List String) (l : Link) :
    Prop :=
  ∃ location name directory', l.module = (flatPaths config).module location name ∧
    EndsModule name ∧ Leads directory location directory' ∧
    Offers collection config directory' name l.name

/-- **A link that reaches a directory** leads to a module that exports its name. -/
theorem Reaches.exists_module {m : PlannedModule} {directory : List String} {name : String}
    {l : Link} (h : Reaches collection config directory l) (hm : Lies config m directory name) :
    ∃ m', Origin collection config m' ∧ l.name ∈ m'.source.exportedNames ∧
      (modulePath (outputPath m.toFile config) l.module).text
        = Path.normalise (outputPath m'.toFile config) := by
  obtain ⟨location, name', directory', hsource, hends, hleads, m', horigin, hm', hexports⟩ := h
  refine ⟨m', horigin, hexports, ?_⟩
  rw [hsource]
  exact hleads.text_modulePath hm hm' hends (importExtension_cases config)

theorem endsModule_of_isStem {name : String} (h : IsStem name) : EndsModule name :=
  .of_not_mem h.slash h.dot

section Reaches

variable {ms : List PlannedModule}

/-- The location of a file beside. -/
theorem leads_here (directory : List String) : Leads directory "." directory where
  nonempty := by decide
  relative := by decide
  way absolute done := by
    have hnames : (Pathname.ofText ".").names = [] := by rfl
    rw [hnames, List.append_nil]

/-- A reference to an enumeration that is not defined is found by the checks. -/
theorem code_of_unknownEnum {s : Schema} (hs : s ∈ collection.objectSchemas)
    {e : String × Property} (he : e ∈ s.properties) {x : String} (hkind : e.2.kind = .enumRef x)
    (hschemas : x ∉ collection.enumNames) (hplugins : x ∉ config.pluginEnums.map (·.1)) :
    "UNKNOWN_ENUM_REFERENCE" ∈ (Check.validate collection config).codes := by
  have hknown : (collection.enumNames.contains x || config.pluginEnums.any (·.1 == x)) = false := by
    rw [Bool.or_eq_false_iff]
    constructor
    · simpa using hschemas
    · rw [List.any_eq_false]
      intro p hp heq
      exact hplugins (List.mem_map.2 ⟨p, hp, by simpa using heq⟩)
  have hproblem : Problem.unknownEnum ⟨s.name, e.1⟩ x
      ∈ Check.referenceProblems collection config ⟨s.name, e.1⟩ e.2 := by
    unfold Check.referenceProblems
    rw [hkind]
    simp only [hknown]
    exact List.mem_singleton_self _
  have hall : Problem.unknownEnum ⟨s.name, e.1⟩ x ∈ Check.problems collection config := by
    refine List.mem_append_left _ (List.mem_append_left _ (List.mem_append_right _ ?_))
    exact List.mem_flatMap.2 ⟨s, hs, List.mem_flatMap.2 ⟨e, he, hproblem⟩⟩
  exact List.mem_map.2 ⟨_, List.mem_map.2 ⟨_, hall, rfl⟩, rfl⟩

/-- Every enumeration that an entity refers to is defined. -/
theorem enum_known (henums : "UNKNOWN_ENUM_REFERENCE" ∉ (Check.validate collection config).codes)
    {s : Schema} (hs : s ∈ collection.objectSchemas) {x : String}
    (hx : x ∈ Interface.enumDependenciesOf s) :
    x ∈ collection.enumNames ∨ x ∈ config.pluginEnums.map (·.1) := by
  obtain ⟨e, he, henum⟩ := List.mem_filterMap.1 (Text.mem_sortedSet.1 hx)
  have hkind : e.2.kind = .enumRef x := by
    unfold Interface.enumOf? at henum
    split at henum
    · rename_i hk
      rw [hk, Option.some.inj henum]
    · exact nomatch henum
  by_contra hunknown
  rw [not_or] at hunknown
  exact henums (code_of_unknownEnum hs he hkind hunknown.1 hunknown.2)

/-- Its definition is that of a plugin if one has the key, else that of a schema. -/
theorem exists_enumeration
    (henums : "UNKNOWN_ENUM_REFERENCE" ∉ (Check.validate collection config).codes)
    (hkeys : ∀ e ∈ config.pluginEnums, e.2.name = e.1) {s : Schema}
    (hs : s ∈ collection.objectSchemas) {x : String} (hx : x ∈ Interface.enumDependenciesOf s) :
    ∃ e : Enumeration, e.name = x ∧
      if (config.pluginEnums.map (·.1)).contains x then e ∈ Enumeration.allPlugin config
      else e ∈ Enumeration.all collection config := by
  split
  · rename_i hplugin
    obtain ⟨p, hp, hkey⟩ := List.mem_map.1 (List.contains_iff_mem.1 hplugin)
    exact ⟨.ofPlugin config p.2, (hkeys p hp).trans hkey, List.mem_map.2 ⟨p, hp, rfl⟩⟩
  · rename_i hplugin
    have hnot : x ∉ config.pluginEnums.map (·.1) := fun hm =>
      hplugin (List.contains_iff_mem.2 hm)
    obtain ⟨t, ht, htname⟩ := List.mem_map.1 ((enum_known henums hs hx).resolve_right hnot)
    have hkind : t.isEnum = true := (List.mem_filter.1 ht).2
    exact ⟨_, htname, List.mem_filterMap.2 ⟨t, ht, if_pos hkind⟩⟩

/-- The module of an enumeration that an entity refers to. -/
theorem FlatTree.reaches_enum (h : FlatTree collection config)
    (hms : planModules collection config = .ok ms) {s : Schema}
    (hs : s ∈ collection.objectSchemas) {l : Link} (hmem : l.name ∈ Interface.enumDependenciesOf s)
    (hsource : l.module = (flatPaths config).enumFromBase l.name
      ((config.pluginEnums.map (·.1)).contains l.name)) :
    Reaches collection config ["base"] l := by
  have hself : ∀ name : String, name ∈ valueNames name := fun _ => List.mem_cons_self
  obtain ⟨e, hname, he⟩ := exists_enumeration h.enums h.keys hs hmem
  cases hplugin : (config.pluginEnums.map (·.1)).contains l.name with
  | true =>
    rw [hplugin] at hsource he
    have hstem := (h.names.pluginEnum he).1
    have hoffers := h.offers_pluginEnum hms he (hself _)
    rw [hname] at hstem hoffers
    exact ⟨"../enum/plugin", l.name, ["enum", "plugin"], hsource, endsModule_of_isStem hstem,
      ⟨by decide, by decide, fun _ _ => rfl⟩, hoffers⟩
  | false =>
    rw [hplugin] at hsource he
    have hstem := (h.names.schemaEnum he).1
    have hoffers := h.offers_enum hms he (hself _)
    rw [hname] at hstem hoffers
    exact ⟨"../enum", l.name, ["enum"], hsource, endsModule_of_isStem hstem,
      ⟨by decide, by decide, fun _ _ => rfl⟩, hoffers⟩

/-- **The links of the file of an entity.** -/
theorem FlatTree.reaches_base (h : FlatTree collection config)
    (hms : planModules collection config = .ok ms) {s : Schema}
    (hs : s ∈ visibleSchemas collection) {l : Link}
    (hl : l ∈ (planBase collection config (flatPaths config) s).source.links)
    (hzod : l.module ≠ "zod") : Reaches collection config ["base"] l := by
  have hlink : BaseLink (Interface.ofSchema collection config s) (flatPaths config)
      (config.pluginEnums.map (·.1)) l := by
    simp only [planBase] at hl
    split at hl
    · exact baseLink_of_mem hl
    · exact baseLink_of_mem hl
  cases hlink with
  | zod hsource => exact absurd hsource hzod
  | common hsource hmem =>
    refine ⟨"..", "common", [], hsource, endsModule_of_isStem (by decide),
      ⟨by decide, by decide, fun _ _ => rfl⟩, h.offers_common ?_⟩
    rcases List.mem_pair.1 (List.mem_of_mem_filter hmem) with hname | hname
    · rw [hname]
      decide
    · rw [hname]
      decide
  | enum hsource hmem => exact h.reaches_enum hms (List.mem_of_mem_filter hs) hmem hsource
  | entity hsource hmem =>
    obtain ⟨hdep, -⟩ := List.mem_filter.1 (Text.mem_sortedSet.1 hmem)
    obtain ⟨f, -, href⟩ := List.mem_flatMap.1 hdep
    have hknown : l.name ∈ collection.objectNames := by
      have := (List.mem_filter.1 href).2
      simp only [Bool.and_eq_true, List.contains_iff_mem] at this
      exact this.2
    obtain ⟨t, ht, htname⟩ := List.mem_map.1 hknown
    have hvisible := h.mem_visible ht
    refine ⟨".", t.name, ["base"], ?_, endsModule_of_isStem (h.names.entity hvisible),
      leads_here _, h.offers_base hvisible ?_⟩
    · rw [hsource, htname]
      rfl
    · rw [htname]
      exact List.mem_cons_self

/-- The links of a model file. -/
theorem FlatTree.reaches_model (h : FlatTree collection config) {s : Schema}
    (hs : s ∈ visibleSchemas collection) {l : Link}
    (hl : l ∈ (planModel config (flatPaths config) s).source.links) (hzod : l.module ≠ "zod") :
    Reaches collection config [] l := by
  obtain ⟨hsource, hmem⟩ := mem_links_modelModule hl hzod
  refine ⟨"./base", s.name, ["base"], hsource, endsModule_of_isStem (h.names.entity hs),
    ⟨by decide, by decide, fun _ _ => rfl⟩, h.offers_base hs ?_⟩
  rcases hmem with hname | ⟨hz, hmem⟩
  · rw [hname]
    exact List.mem_cons_self
  · rw [hz, if_pos rfl]
    exact List.mem_cons_of_mem _ hmem

/-- The links of a file of rules. -/
theorem FlatTree.reaches_rules (h : FlatTree collection config) {s : Schema} {l : Link}
    (hl : l ∈ (planRules config (flatPaths config) s).source.links) :
    Reaches collection config ["rules"] l := by
  replace hl := (rulesModule_spec s.name _ _).2 ▸ hl
  have hlink : l.module = (flatPaths config).commonFromRules ∧ l.name ∈ commonNames := by
    rcases List.mem_pair.1 hl with rfl | rfl
    · exact ⟨rfl, (by decide : "LocaleMap" ∈ commonNames)⟩
    · exact ⟨rfl, (by decide : "ValidationRule" ∈ commonNames)⟩
  exact ⟨"..", "common", [], hlink.1, endsModule_of_isStem (by decide),
    ⟨by decide, by decide, fun _ _ => rfl⟩, h.offers_common hlink.2⟩

/-- The link of the internationalisation module. -/
theorem FlatTree.reaches_i18n (h : FlatTree collection config) {l : Link}
    (hl : l ∈ (planI18n config (flatPaths config)).source.links) :
    Reaches collection config [] l := by
  replace hl := (i18nModule_spec config _).2 ▸ hl
  rw [List.mem_singleton.1 hl]
  exact ⟨".", "common", [], rfl, endsModule_of_isStem (by decide), leads_here _,
    h.offers_common (by decide : "LocaleMap" ∈ commonNames)⟩

/-- What the index passes on of an entity. -/
theorem FlatTree.reaches_entity (h : FlatTree collection config) {s : Schema}
    (hs : s ∈ visibleSchemas collection) {l : Link}
    (hl : EntityLink config (flatPaths config) s.name l) : Reaches collection config [] l := by
  have hstem := h.names.entity hs
  cases hl with
  | model hsource hmem =>
    exact ⟨".", s.name, [], hsource, endsModule_of_isStem hstem, leads_here _,
      h.offers_model hs hmem⟩
  | base hplain hsource hmem =>
    refine ⟨"./base", s.name, ["base"], hsource, endsModule_of_isStem hstem,
      ⟨by decide, by decide, fun _ _ => rfl⟩, h.offers_base hs (List.mem_cons_of_mem _ ?_)⟩
    rw [hplain]
    exact hmem
  | rules hwanted hsource hmem =>
    exact ⟨"./rules", s.name ++ ".rules", ["rules"], hsource, .append_rules hstem.slash,
      ⟨by decide, by decide, fun _ _ => rfl⟩, h.offers_rules hs hwanted hmem⟩

/-- An enumeration of the index that comes from a property. -/
theorem exists_inline_of_enumeration {e : Enumeration}
    (h : e ∈ (InlineEnum.all collection config).filterMap inlineEnumeration?) :
    ∃ t ∈ InlineEnum.all collection config, t.name = e.name := by
  obtain ⟨t, ht, hte⟩ := List.mem_filterMap.1 h
  refine ⟨t, ht, ?_⟩
  rcases t with ⟨_, _, e'⟩ | ⟨_, _, a⟩
  · rw [← Option.some.inj hte]
    rfl
  · exact nomatch hte

/-- An alias of the index. -/
theorem exists_inline_of_alias {a : TypeAlias}
    (h : a ∈ (InlineEnum.all collection config).filterMap inlineAlias?) :
    ∃ t ∈ InlineEnum.all collection config, t.name = a.name := by
  obtain ⟨t, ht, hta⟩ := List.mem_filterMap.1 h
  refine ⟨t, ht, ?_⟩
  rcases t with ⟨_, _, e⟩ | ⟨_, _, a'⟩
  · exact nomatch hta
  · rw [← Option.some.inj hta]
    rfl

/-- **The links of the index.** -/
theorem FlatTree.reaches_index (h : FlatTree collection config)
    (hms : planModules collection config = .ok ms) {l : Link}
    (hl : l ∈ (planIndex collection config (flatPaths config)).source.links) :
    Reaches collection config [] l := by
  have hinline : ∀ t ∈ InlineEnum.all collection config, ∀ name, t.name = name →
      l.module = (flatPaths config).module "./enum" name → l.name ∈ valueNames name →
      Reaches collection config [] l := by
    rintro t ht name rfl hsource hmem
    exact ⟨"./enum", t.name, ["enum"], hsource, endsModule_of_isStem (h.names.inline ht),
      ⟨by decide, by decide, fun _ _ => rfl⟩, h.offers_inline hms ht hmem⟩
  cases indexLink_of_mem hl with
  | common hsource hmem =>
    exact ⟨".", "common", [], hsource, endsModule_of_isStem (by decide), leads_here _,
      h.offers_common hmem⟩
  | i18n hsource hmem =>
    exact ⟨".", "i18n", [], hsource, endsModule_of_isStem (by decide), leads_here _,
      h.offers_i18n hmem⟩
  | @enum e he hsource hmem =>
    rcases List.mem_append.1 he with he | he
    · exact ⟨"./enum", e.name, ["enum"], hsource,
        endsModule_of_isStem (h.names.schemaEnum he).1, ⟨by decide, by decide, fun _ _ => rfl⟩,
        h.offers_enum hms he hmem⟩
    · obtain ⟨t, ht, hname⟩ := exists_inline_of_enumeration he
      exact hinline t ht e.name hname hsource hmem
  | @plugin e he hsource hmem =>
    exact ⟨"./enum/plugin", e.name, ["enum", "plugin"], hsource,
      endsModule_of_isStem (h.names.pluginEnum he).1, ⟨by decide, by decide, fun _ _ => rfl⟩,
      h.offers_pluginEnum hms he hmem⟩
  | @typeAlias a ha hsource hmem =>
    obtain ⟨t, ht, hname⟩ := exists_inline_of_alias ha
    exact hinline t ht a.name hname hsource hmem
  | @entity name hname hlink =>
    obtain ⟨s, hs, rfl⟩ := List.mem_map.1 hname
    exact h.reaches_entity hs hlink

/-- **Every module** has a place, from which each of its links reaches another one. -/
theorem FlatTree.reaches (h : FlatTree collection config)
    (hms : planModules collection config = .ok ms) {m : PlannedModule}
    (hm : Origin collection config m) : ∃ directory name, Lies config m directory name ∧
      ∀ l ∈ m.source.links, l.module ≠ "zod" → Reaches collection config directory l := by
  have hpaths := h.ofConfig
  have hnone {l : Link} (hlinks : m.source.links = []) (hl : l ∈ m.source.links) : False := by
    rw [hlinks] at hl
    exact nomatch hl
  cases hm with
  | schemaEnum hmem heq =>
    exact ⟨_, _, h.lies_enum heq (h.names.schemaEnum hmem).1, fun l hl =>
      (hnone (planEnum_spec heq).2.2 hl).elim⟩
  | pluginEnum hmem heq =>
    exact ⟨_, _, h.lies_enum heq (h.names.pluginEnum hmem).1, fun l hl =>
      (hnone (planEnum_spec heq).2.2 hl).elim⟩
  | inline hmem heq =>
    exact ⟨_, _, h.lies_inline hmem heq, fun l hl => (hnone (planInline_spec heq).2.2 hl).elim⟩
  | base hmem =>
    rw [hpaths]
    exact ⟨_, _, h.lies_base _ hmem, fun l hl hz => h.reaches_base hms hmem hl hz⟩
  | model hmem =>
    rw [hpaths]
    exact ⟨_, _, h.lies_model _ hmem, fun l hl hz => h.reaches_model hmem hl hz⟩
  | rules _ hmem =>
    rw [hpaths]
    exact ⟨_, _, h.lies_rules _ hmem, fun l hl _ => h.reaches_rules hl⟩
  | common =>
    exact ⟨_, _, h.lies_common _, fun l hl => (hnone (commonModule_spec config).2 hl).elim⟩
  | i18n =>
    rw [hpaths]
    exact ⟨_, _, h.lies_i18n _, fun l hl _ => h.reaches_i18n hl⟩
  | index =>
    rw [hpaths]
    exact ⟨_, _, h.lies_index _, fun l hl _ => h.reaches_index hms hl⟩

end Reaches

/-- **Links lead to exports.**  In a flat tree every name that a module takes from another one,
except from the library of validators, is exported by the planned module to whose place the name of
that module leads. -/
theorem links_lead_to_exports {collection : Collection} {config : Config}
    {ms : List PlannedModule} (h : FlatTree collection config)
    (hms : planModules collection config = .ok ms) :
    ∀ m ∈ ms, ∀ l ∈ m.source.links, l.module ≠ "zod" →
      ∃ m' ∈ ms, l.name ∈ m'.source.exportedNames ∧
        (modulePath (outputPath m.toFile config) l.module).text
          = Path.normalise (outputPath m'.toFile config) := by
  intro m hm l hl hzod
  obtain ⟨directory, name, hlies, hreaches⟩ := h.reaches hms ((mem_planModules_iff hms m).1 hm)
  obtain ⟨m', horigin, hexports, hplace⟩ := (hreaches l hl hzod).exists_module hlies
  exact ⟨m', (mem_planModules_iff hms m').2 horigin, hexports, hplace⟩

/-- An entity with a relation, enumerations of all kinds, and what it refers to. -/
def blog : Collection :=
  ⟨[{ name := "User"
      properties :=
        [("role", { tag := "EnumRef", kind := .enumRef "Role" }),
         ("tier", { tag := "EnumRef", kind := .enumRef "Tier" }),
         ("posts", { tag := "Association",
                     kind := .association "OneToMany" (some "Post") [] }),
         ("state", { tag := "Select", kind := .select [{ value := "new" }] })] },
    { name := "Post" },
    { name := "Role", kind := .enum, values := [{ value := "admin" }] }]⟩

/-- The settings with the enumeration of a plugin. -/
def blogConfig : Config :=
  { pluginEnums := [("Tier", { name := "Tier", values := [{ value := "free" }] })] }

theorem flatTree_blog : FlatTree blog blogConfig where
  names := ⟨by decide, by decide, by decide⟩
  layout := rfl
  unprefixed := ⟨rfl, rfl, rfl, rfl⟩
  keys := by decide
  visible := by decide
  enums := by decide

theorem links_lead_to_exports_blog :
    FlatTree blog blogConfig ∧ ∃ ms, planModules blog blogConfig = .ok ms ∧
      ∃ m' ∈ ms, "User" ∈ m'.source.exportedNames ∧
        (modulePath "models/User.ts" "./base/User").text
          = Path.normalise (outputPath m'.toFile blogConfig) := by
  have hplan : ∃ ms, planModules blog blogConfig = .ok ms :=
    ⟨_, planModules_eq_ok_iff.2 ⟨by decide, _, rfl, rfl, rfl⟩⟩
  obtain ⟨ms, hms⟩ := hplan
  have huser : planModel blogConfig (.ofConfig blogConfig) { name := "User" } ∈ ms :=
    (mem_planModules_iff hms _).2 (.model (s := blog.schemas[0]) List.mem_cons_self)
  exact ⟨flatTree_blog, ms, hms, links_lead_to_exports flatTree_blog hms _ huser
    ⟨"User", "./base/User"⟩ (by decide) (by decide)⟩

end SchemaTypes.Output
