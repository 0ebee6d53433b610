/-
# Given locations of enumerations

The index and the files of entities, which stand one directory lower, name the modules of the same
enumerations (`RefersTo.takenFrom`).  A relative location that is given for enumerations is moved
up by one for the files of entities, so that both files name one module, whatever double dots and
empty names the location has (`relative_enums_agree`).  A relative location that is given for the
enumerations of plugins is taken as it is on both sides, so that the two never agree
(`plugin_enums_agree_only_without_location`).
-/
import SchemaTypes.Proofs.Output.Exports
import SchemaTypes.Proofs.Text.Normal

namespace SchemaTypes

/-! ## 1. Two views of an enumeration -/

namespace ImportPaths

/-- An enumeration seen from the index. -/
def enumFromIndex (p : ImportPaths) (name : String) (plugin : Bool) : String :=
  p.module (if plugin then p.indexPluginEnums else p.indexEnums) name

/-- The module of an enumeration that the file of an entity names, seen from its directory, is the
one that the index names. -/
def Agree (p : ImportPaths) (name : String) (plugin : Bool) : Prop :=
  Path.normalise (Path.join "base" (p.enumFromBase name plugin))
    = Path.normalise (p.enumFromIndex name plugin)

/-- A location that is neither empty nor a package nor a path from the root. -/
structure IsRelative (location : String) : Prop where
  nonempty : location ≠ ""
  unscoped : Text.startsWith location "@" = false
  relative : Path.isAbsolute location = false

theorem given_eq_some {location : String} (h : location ≠ "") :
    given (some location) = some location := by
  simp [given, Option.filter, h]

/-- In a flat tree nothing takes the place of a location that is not given. -/
theorem orPackage_flat {config : Config} (hl : config.layout = .flat) (location : Option String)
    (directory : String) : orPackage config location directory = given location := by
  rw [orPackage, hl]
  cases given location <;> rfl

end ImportPaths

/-! ## 2. The way from the files of entities -/

namespace TypeScript

open SchemaTypes.Path (foldl_push_filter foldl_push_reduce isAbsolute isAbsolute_append
  isAbsolute_normalise join normalise)

/-- **A location that is moved up by one** leads from a directory to where it led from outside. -/
theorem leads_up (location : String) {directory : String} (hdirectory : Path.IsPlain directory) :
    Leads [directory] (normalise ("../" ++ location)) (Pathname.ofText location).names := by
  have hup : isAbsolute ("../" ++ location) = false := isAbsolute_append (by decide) (by decide) _
  have hnames : Path.names ("../" ++ location) = ".." :: Path.names location :=
    Path.names_slash ".." location
  refine ⟨?_, isAbsolute_normalise hup, fun absolute done => ?_⟩
  · unfold normalise
    dsimp only
    split
    · decide
    · rename_i hne
      exact fun he => hne (by rw [he]; rfl)
  · calc ([directory] ++ (Pathname.ofText (normalise ("../" ++ location))).names).foldl
          (Path.push absolute) done
      _ = (Path.reduce false (Path.names ("../" ++ location))).reverse.foldl (Path.push absolute)
            (directory :: done) := by
        rw [Pathname.ofText_normalise hup, List.singleton_append, List.foldl_cons,
          Path.push_of_isPlain absolute done hdirectory]
      _ = (Path.names location).foldl (Path.push absolute) done := by
        rw [foldl_push_reduce, hnames, List.foldl_cons, Path.push_up absolute hdirectory.2.2]
      _ = (Pathname.ofText location).names.foldl (Path.push absolute) done :=
        (foldl_push_filter absolute _ done).symm

/-- A path behind a location leads on. -/
theorem Leads.append {directory directory' : List String} {location : String}
    (h : Leads directory location directory') (rest : String) :
    Leads directory (location ++ "/" ++ rest) (directory' ++ (Pathname.ofText rest).names) := by
  refine ⟨?_, ?_, fun absolute done => ?_⟩
  · intro he
    exact h.nonempty (String.append_eq_empty_iff.1 (String.append_eq_empty_iff.1 he).1).1
  · rw [String.append_assoc]
    exact isAbsolute_append h.nonempty h.relative _
  · rw [Pathname.names_slash, ← List.append_assoc, List.foldl_append, h.way, List.foldl_append]

/-- **Two locations that lead to one directory** lead to the same modules in it. -/
theorem Leads.normalise_join {directory location location' : String}
    (h : Leads (Pathname.ofText directory).names location (Pathname.ofText location').names)
    (hdirectory : isAbsolute directory = false) (hne : location' ≠ "")
    (hrelative : isAbsolute location' = false) (rest : String) :
    normalise (join directory (location ++ "/" ++ rest))
      = normalise (location' ++ "/" ++ rest) := by
  have hlead := h.append rest
  have hroot' : isAbsolute (location' ++ "/" ++ rest) = false := by
    rw [String.append_assoc]
    exact isAbsolute_append hne hrelative _
  have hjoin : Pathname.ofText (join directory (location ++ "/" ++ rest))
      = ⟨"", (Pathname.ofText directory).names
          ++ (Pathname.ofText (location ++ "/" ++ rest)).names⟩ := by
    rw [Pathname.ofText_join _ hlead.relative, Pathname.root_of_relative hdirectory]
  have hpath : Pathname.ofText (location' ++ "/" ++ rest)
      = ⟨"", (Pathname.ofText location').names ++ (Pathname.ofText rest).names⟩ := by
    rw [← Pathname.names_slash, ← Pathname.root_of_relative hroot']
  rw [← Pathname.text_normal, ← Pathname.text_normal, hjoin, hpath]
  exact congrArg (fun ns : List String => (⟨"", ns.reverse⟩ : Pathname).text)
    (hlead.way false [])

/-- **One text names two modules** where it is seen from a directory and from outside. -/
theorem normalise_join_ne {directory module : String} (hdirectory : Path.IsPlain directory)
    (hslash : '/' ∉ directory.toList) (hrelative : isAbsolute module = false) :
    normalise (join directory module) ≠ normalise module := by
  have houtside : isAbsolute directory = false := Path.isAbsolute_of_not_mem hslash
  have hjoin : Pathname.ofText (join directory module)
      = ⟨"", directory :: (Pathname.ofText module).names⟩ := by
    rw [Pathname.ofText_join _ hrelative, Pathname.root_of_relative houtside,
      Pathname.names_single hslash hdirectory.1 hdirectory.2.1]
    rfl
  have hroot : isAbsolute (join directory module) = false := by
    rw [← Pathname.isAbsolute_ofText, hjoin]
    rfl
  intro heq
  have hreduce := Pathname.reduce_eq_of_normalise_eq hroot hrelative heq
  rw [hjoin] at hreduce
  exact Path.reduce_cons_ne hdirectory _ hreduce

end TypeScript

/-! ## 3. Locations of a run -/

namespace ImportPaths

open TypeScript (Leads leads_up normalise_join_ne)

variable {config : Config} {location : String}

theorem isPlain_base : Path.IsPlain "base" := by
  refine ⟨?_, ?_, ?_⟩ <;> decide

/-- The module at a location has the path of the location in front. -/
theorem module_eq (p : ImportPaths) (location name : String) :
    p.module location name = location ++ "/" ++ (name ++ p.ext) := String.append_assoc

/-- Where both views of the enumerations of schemas lead. -/
structure Meet (p : ImportPaths) : Prop where
  nonempty : p.indexEnums ≠ ""
  relative : Path.isAbsolute p.indexEnums = false
  leads : Leads (Pathname.ofText "base").names p.schemaEnums (Pathname.ofText p.indexEnums).names

/-- **If the two views of the directory meet,** so do those of the enumerations in it, and of those
of plugins below it. -/
theorem Meet.agree {p : ImportPaths} (h : p.Meet)
    (hplugins : p.pluginEnums = p.schemaEnums ++ "/plugin" ∧
      p.indexPluginEnums = p.indexEnums ++ "/plugin") (name : String) (plugin : Bool) :
    p.Agree name plugin := by
  rw [Agree, enumFromBase, enumFromIndex, module_eq, module_eq]
  cases plugin with
  | false => exact h.leads.normalise_join (by decide) h.nonempty h.relative _
  | true =>
    have hbelow (location : String) : location ++ "/plugin" = location ++ "/" ++ "plugin" := by
      rw [String.append_assoc]
      rfl
    have hleads : Leads (Pathname.ofText "base").names (p.schemaEnums ++ "/plugin")
        (Pathname.ofText (p.indexEnums ++ "/plugin")).names := by
      rw [hbelow, hbelow, Pathname.names_slash]
      exact h.leads.append "plugin"
    rw [if_pos rfl, if_pos rfl, hplugins.1, hplugins.2]
    refine hleads.normalise_join (by decide) ?_ (Path.isAbsolute_append h.nonempty h.relative _) _
    exact fun he => h.nonempty (String.append_eq_empty_iff.1 he).1

/-- Files of entities see the directory that stands for a missing location, unless schemas have a
location of their own. -/
theorem enumsFromBase_none (hschema : given config.schemaEnumImportPrefix = none) :
    enumsFromBase config none = "../enum" := by
  unfold enumsFromBase
  rw [hschema]

/-- They see a relative location moved up by one. -/
theorem enumsFromBase_of_relative (hschema : given config.schemaEnumImportPrefix = none)
    (h : IsRelative location) :
    enumsFromBase config (some location) = Path.normalise ("../" ++ location) := by
  have hscoped : isScoped (some location) = false := h.unscoped
  unfold enumsFromBase
  rw [hschema]
  simp only [hscoped, Bool.false_eq_true, if_false]

/-- The two views of a relative location meet, and those of the directory that stands for it. -/
theorem meet_ofConfig (hl : config.layout = .flat)
    (hschema : given config.schemaEnumImportPrefix = none)
    (henums : ∀ location, given config.enumImportPrefix = some location → IsRelative location) :
    (ofConfig config).Meet := by
  have hbase : (Pathname.ofText "base").names = ["base"] := by rfl
  have hindex : (ofConfig config).indexEnums = (given config.enumImportPrefix).getD "./enum" := by
    rw [← orPackage_flat hl _ "enum"]
    rfl
  have hschemas : (ofConfig config).schemaEnums
      = enumsFromBase config (given config.enumImportPrefix) := by
    rw [← orPackage_flat hl _ "enum"]
    rfl
  cases hg : given config.enumImportPrefix with
  | none =>
    rw [hg, enumsFromBase_none hschema] at hschemas
    rw [hg] at hindex
    refine ⟨?_, ?_, ?_⟩ <;> rw [hindex]
    · decide
    · decide
    · rw [hschemas, hbase]
      exact ⟨by decide, by decide, fun _ _ => rfl⟩
  | some location =>
    have hrelative := henums location hg
    rw [hg, enumsFromBase_of_relative hschema hrelative] at hschemas
    rw [hg] at hindex
    refine ⟨?_, ?_, ?_⟩ <;> rw [hindex]
    · exact hrelative.nonempty
    · exact hrelative.relative
    · rw [hschemas, hbase]
      exact leads_up location isPlain_base

/-- Without a location of their own the enumerations of plugins are below those of schemas. -/
theorem plugins_ofConfig (hl : config.layout = .flat)
    (hplugin : given config.pluginEnumImportPrefix = none) :
    (ofConfig config).pluginEnums = (ofConfig config).schemaEnums ++ "/plugin" ∧
      (ofConfig config).indexPluginEnums = (ofConfig config).indexEnums ++ "/plugin" := by
  have hplugins : orPackage config config.pluginEnumImportPrefix "enum" = none :=
    (orPackage_flat hl _ _).trans hplugin
  simp only [ofConfig, hplugins, Option.getD_none, and_self]

/-- A location of their own is the same text in both views. -/
theorem plugins_ofConfig_of_given (hl : config.layout = .flat)
    (hplugin : given config.pluginEnumImportPrefix = some location) :
    (ofConfig config).pluginEnums = location ∧ (ofConfig config).indexPluginEnums = location := by
  have hplugins : orPackage config config.pluginEnumImportPrefix "enum" = some location :=
    (orPackage_flat hl _ _).trans hplugin
  simp only [ofConfig, hplugins, Option.getD_some, and_self]

end ImportPaths

/-! ## 4. Files of a run -/

namespace Output

open ImportPaths (IsRelative given given_eq_some isPlain_base meet_ofConfig module_eq
  plugins_ofConfig plugins_ofConfig_of_given)
open TypeScript (ImportDecl Link)

variable {collection : Collection} {config : Config} {location : String}

/-- An entity refers to an enumeration: that of a plugin, if one is registered under the name. -/
structure RefersTo (collection : Collection) (config : Config) (s : Schema) (e : Enumeration)
    (plugin : Bool) : Prop where
  mem : e.name ∈ Interface.enumDependenciesOf s
  key : (config.pluginEnums.map (·.1)).contains e.name = plugin
  given : if plugin then e ∈ Enumeration.allPlugin config else e ∈ Enumeration.all collection config

/-- The file of an entity and the index take the enumeration of the name from these modules. -/
structure TakenFrom (collection : Collection) (config : Config) (s : Schema)
    (name module module' : String) : Prop where
  base : (⟨name, module⟩ : Link) ∈ (planBase collection config (.ofConfig config) s).source.links
  index : (⟨name, module'⟩ : Link) ∈ (planIndex collection config (.ofConfig config)).source.links

/-- **Both files name the enumerations** by the table of a run. -/
theorem RefersTo.takenFrom {s : Schema} {e : Enumeration} {plugin : Bool}
    (h : RefersTo collection config s e plugin) :
    TakenFrom collection config s e.name ((ImportPaths.ofConfig config).enumFromBase e.name plugin)
      ((ImportPaths.ofConfig config).enumFromIndex e.name plugin) := by
  obtain ⟨hmem, rfl, hgiven⟩ := h
  constructor
  · have hlink (zod : Option ZodPart) (excluded : List String) :
        (⟨e.name, (ImportPaths.ofConfig config).enumFromBase e.name
            ((config.pluginEnums.map (·.1)).contains e.name)⟩ : Link)
          ∈ (baseModule (Interface.ofSchema collection config s) (.ofConfig config) zod excluded
              (config.pluginEnums.map (·.1))).links := by
      rw [links_baseModule]
      refine List.mem_flatMap.2 ⟨_, List.mem_append_left _ (List.mem_append_right _
        (List.mem_map_of_mem hmem)), List.mem_singleton_self _⟩
    simp only [planBase]
    split
    · exact hlink _ _
    · exact hlink _ _
  · show _ ∈ TypeScript.Block.linksOf (indexModule _ _ _ _ config (.ofConfig config)).blocks
    have hname : e.name ∈ valueNames e.name := List.mem_cons_self
    simp only [indexModule, TypeScript.Block.linksOf_append, List.mem_append,
      mem_linksOf_groupUnder, List.mem_map]
    cases hplugin : (config.pluginEnums.map (·.1)).contains e.name with
    | true =>
      rw [hplugin, if_pos rfl] at hgiven
      exact .inl (.inl (.inr ⟨_, ⟨e, hgiven, rfl⟩, mem_links_enumExport.2 ⟨rfl, hname⟩⟩))
    | false =>
      rw [hplugin, if_neg Bool.false_ne_true] at hgiven
      exact .inl (.inl (.inl (.inr ⟨_, ⟨e, .inl hgiven, rfl⟩,
        mem_links_enumExport.2 ⟨rfl, hname⟩⟩)))

/-- **A relative location of enumerations is moved up** for the files of entities.  In a flat tree
whose enumerations have a relative location and no other one, the modules that the files of entities
and the index name for an enumeration, of a schema or of a plugin, are the same. -/
theorem relative_enums_agree (hl : config.layout = .flat)
    (hgiven : config.enumImportPrefix = some location) (hrelative : IsRelative location)
    (hschema : given config.schemaEnumImportPrefix = none)
    (hplugin : given config.pluginEnumImportPrefix = none) :
    let paths := ImportPaths.ofConfig config
    (∀ name plugin, paths.Agree name plugin) ∧
      ∀ collection s e plugin, RefersTo collection config s e plugin →
        TakenFrom collection config s e.name (paths.enumFromBase e.name plugin)
          (paths.enumFromIndex e.name plugin) := by
  intro paths
  refine ⟨fun name plugin => ?_, fun _ _ _ _ h => h.takenFrom⟩
  refine (meet_ofConfig hl hschema fun other hother => ?_).agree (plugins_ofConfig hl hplugin) name
    plugin
  rw [hgiven, given_eq_some hrelative.nonempty] at hother
  exact Option.some.inj hother ▸ hrelative

/-- An entity with an enumeration of a schema and one of a plugin. -/
def ranked : Collection :=
  ⟨[{ name := "User"
      properties :=
        [("role", { tag := "EnumRef", kind := .enumRef "Role" }),
         ("tier", { tag := "EnumRef", kind := .enumRef "Tier" })] },
    { name := "Role", kind := .enum, values := [{ value := "admin" }] }]⟩

/-- The enumeration of a plugin. -/
def tier : PluginEnum := { name := "Tier", values := [{ value := "free" }] }

/-- A location with a detour above the directory of the models. -/
theorem relative_enums_agree_detour :
    let config : Config :=
      { enumImportPrefix := some ".//x/../../shared/./enums", pluginEnums := [("Tier", tier)] }
    ∃ s ∈ ranked.objectSchemas,
      TakenFrom ranked config s "Role" "../../shared/enums/Role" ".//x/../../shared/./enums/Role" ∧
        TakenFrom ranked config s "Tier" "../../shared/enums/plugin/Tier"
          ".//x/../../shared/./enums/plugin/Tier" ∧
        Path.normalise (Path.join "base" "../../shared/enums/Role")
          = Path.normalise ".//x/../../shared/./enums/Role" ∧
        Path.normalise (Path.join "base" "../../shared/enums/plugin/Tier")
          = Path.normalise ".//x/../../shared/./enums/plugin/Tier" := by
  intro config
  have hflat : config.layout = .flat := rfl
  have hrelative : IsRelative ".//x/../../shared/./enums" := ⟨by decide, by decide, by decide⟩
  obtain ⟨hagree, htaken⟩ := relative_enums_agree hflat rfl hrelative rfl rfl
  have hrole : RefersTo ranked config ranked.schemas[0]
      { name := "Role", members := [.ofValue config { value := "admin" }], comment := "Role" }
      false := ⟨by decide, by decide, List.mem_cons_self⟩
  have htier : RefersTo ranked config ranked.schemas[0] (.ofPlugin config tier) true :=
    ⟨by decide, by decide, List.mem_cons_self⟩
  exact ⟨_, List.mem_cons_self, htaken _ _ _ _ hrole, htaken _ _ _ _ htier, hagree "Role" false,
    hagree "Tier" true⟩

/-- **A relative location of plugin enumerations is not moved.**  In a flat tree whose plugin
enumerations have a relative location of their own, the files of entities and the index name the
module of each one by the same text, and so never the same module.  Without such a location they
agree wherever the enumerations of schemas have no location or a relative one. -/
theorem plugin_enums_agree_only_without_location (hl : config.layout = .flat) :
    let paths := ImportPaths.ofConfig config
    (∀ location, config.pluginEnumImportPrefix = some location → IsRelative location → ∀ name,
        paths.enumFromBase name true = paths.enumFromIndex name true ∧ ¬paths.Agree name true) ∧
      (given config.pluginEnumImportPrefix = none → given config.schemaEnumImportPrefix = none →
        (∀ location, given config.enumImportPrefix = some location → IsRelative location) →
          ∀ name, paths.Agree name true) ∧
      ∀ collection s e, RefersTo collection config s e true →
        TakenFrom collection config s e.name (paths.enumFromBase e.name true)
          (paths.enumFromIndex e.name true) := by
  intro paths
  refine ⟨?_, ?_, fun _ _ _ h => h.takenFrom⟩
  · intro location hgiven hrelative name
    have hnonempty : given config.pluginEnumImportPrefix = some location := by
      rw [hgiven, given_eq_some hrelative.nonempty]
    obtain ⟨hplugins, hindexPlugins⟩ := plugins_ofConfig_of_given hl hnonempty
    have hbase : paths.enumFromBase name true = location ++ "/" ++ (name ++ paths.ext) := by
      rw [ImportPaths.enumFromBase, module_eq, if_pos rfl, hplugins]
    have hindex : paths.enumFromIndex name true = location ++ "/" ++ (name ++ paths.ext) := by
      rw [ImportPaths.enumFromIndex, module_eq, if_pos rfl, hindexPlugins]
    refine ⟨hbase.trans hindex.symm, ?_⟩
    rw [ImportPaths.Agree, hbase, hindex, String.append_assoc]
    exact TypeScript.normalise_join_ne isPlain_base (by decide)
      (Path.isAbsolute_append hrelative.nonempty hrelative.relative _)
  · intro hplugin hschema henums name
    exact (meet_ofConfig hl hschema henums).agree (plugins_ofConfig hl hplugin) name true

/-- Below a relative location of the enumerations of schemas. -/
theorem plugin_enums_agree_below :
    let config : Config := { enumImportPrefix := some "../enums", pluginEnums := [("Tier", tier)] }
    config.layout = .flat ∧
      Path.normalise (Path.join "base" "../../enums/plugin/Tier")
        = Path.normalise "../enums/plugin/Tier" := by
  intro config
  have henums : ∀ location,
      given config.enumImportPrefix = some location → IsRelative location := by
    intro location hgiven
    obtain rfl : "../enums" = location := Option.some.inj hgiven
    exact ⟨by decide, by decide, by decide⟩
  have hflat : config.layout = .flat := rfl
  have hagree := (plugin_enums_agree_only_without_location hflat).2.1
  exact ⟨hflat, hagree rfl rfl henums "Tier"⟩

/-- The file of a user and the index name the enumeration of a plugin by one text, which leads to
two places. -/
theorem plugin_location_names_two_modules :
    let config : Config :=
      { pluginEnumImportPrefix := some "./plugins", pluginEnums := [("Tier", tier)] }
    TakenFrom ranked config ranked.schemas[0] "Tier" "./plugins/Tier" "./plugins/Tier" ∧
      Path.normalise (Path.join "base" "./plugins/Tier") = "base/plugins/Tier" ∧
      Path.normalise "./plugins/Tier" = "plugins/Tier" := by
  intro config
  have htier : RefersTo ranked config ranked.schemas[0] (.ofPlugin config tier) true :=
    ⟨by decide, by decide, List.mem_cons_self⟩
  exact ⟨htier.takenFrom, by decide, by decide⟩

end Output

end SchemaTypes
