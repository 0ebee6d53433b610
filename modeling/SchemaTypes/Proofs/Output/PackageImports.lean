/-
# The imports of a package tree

Two tables know where generated files are: one gives the names of modules, the other the places of
files.  The first one tells a package by its at sign, the second one by the layout.  In the package
layout both agree about the files that modules refer to exactly if the name of the package begins
with that sign (`package_imports_agree_iff`).
-/
import SchemaTypes.Proofs.Output.PackageLinks

namespace SchemaTypes.Output

open TypeScript (ImportDecl Link isRelative isRelative_eq_false moduleAt)

/-! ## 1. What modules name -/

/-- A planned module refers to another one by the name of a module. -/
inductive Names (collection : Collection) (config : Config) :
    PlannedModule → String → PlannedModule → Prop
  | commonOfBase {s : Schema} (mem : s ∈ visibleSchemas collection) :
      Names collection config (planBase collection config (.ofConfig config) s)
        (ImportPaths.ofConfig config).commonFromBase (planCommon config (.ofConfig config))
  | enumOfBase {s : Schema} {e : Enumeration} {m : PlannedModule}
      (mem : s ∈ visibleSchemas collection) (given : e ∈ Enumeration.all collection config)
      (eq : planEnum Nesting.named config e = .ok m) :
      Names collection config (planBase collection config (.ofConfig config) s)
        ((ImportPaths.ofConfig config).enumFromBase e.name false) m
  | pluginOfBase {s : Schema} {p : String × PluginEnum} {m : PlannedModule}
      (mem : s ∈ visibleSchemas collection) (given : p ∈ config.pluginEnums)
      (eq : planEnum Nesting.named config (.ofPlugin config p.2) = .ok m) :
      Names collection config (planBase collection config (.ofConfig config) s)
        ((ImportPaths.ofConfig config).enumFromBase p.1 true) m
  | baseOfModel {s : Schema} (mem : s ∈ visibleSchemas collection) :
      Names collection config (planModel config (.ofConfig config) s)
        ((ImportPaths.ofConfig config).baseFromModel s.name)
        (planBase collection config (.ofConfig config) s)
  | commonOfRules {s : Schema} (mem : s ∈ visibleSchemas collection) :
      Names collection config (planRules config (.ofConfig config) s)
        (ImportPaths.ofConfig config).commonFromRules (planCommon config (.ofConfig config))
  | commonOfI18n :
      Names collection config (planI18n config (.ofConfig config))
        (ImportPaths.ofConfig config).commonFromRoot (planCommon config (.ofConfig config))
  | baseOfIndex {s : Schema} (mem : s ∈ visibleSchemas collection) :
      Names collection config (planIndex collection config (.ofConfig config))
        ((ImportPaths.ofConfig config).baseFromModel s.name)
        (planBase collection config (.ofConfig config) s)
  | commonOfIndex :
      Names collection config (planIndex collection config (.ofConfig config))
        (ImportPaths.ofConfig config).commonFromRoot (planCommon config (.ofConfig config))
  | i18nOfIndex :
      Names collection config (planIndex collection config (.ofConfig config))
        (ImportPaths.ofConfig config).i18nFromRoot (planI18n config (.ofConfig config))

/-- The name of a module leads from the place of one file to the place of another. -/
def Agrees (config : Config) (m : PlannedModule) (module : String) (m' : PlannedModule) : Prop :=
  moduleAt (outputPath m.toFile config) module
    = (Pathname.ofText (outputPath m'.toFile config)).normal

variable {collection : Collection} {config : Config}

/-! ## 2. Scoped packages -/

/-- A package whose name begins with an at sign. -/
theorem head?_of_scope (hs : Text.startsWith config.packageName "@" = true) (rest : String) :
    (config.packageName ++ rest).toList.head? = some '@' := by
  rw [← Text.startsWith_singleton]
  exact Text.startsWith_trans (Text.startsWith_append _ _) hs

/-- The directory of a package whose name is no path from the root. -/
theorem ofText_packageRoot (hs : Text.startsWith config.packageName "@" = true) :
    Pathname.ofText (packageRoot config)
      = ⟨"", "node_modules" :: (Pathname.ofText config.packageName).names⟩ := by
  have hrelative : Path.isAbsolute config.packageName = false := by
    by_contra hslash
    rw [Bool.not_eq_false] at hslash
    have hfirst := Text.startsWith_singleton.1 (show Text.startsWith config.packageName
      (String.singleton '/') = true from hslash)
    have hsign := Text.startsWith_singleton.1 (show Text.startsWith config.packageName
      (String.singleton '@') = true from hs)
    exact absurd (hfirst.symm.trans hsign) (by decide)
  rw [packageRoot, Pathname.ofText_join _ hrelative]
  rfl

/-- **A module of the package** stands where its file is put, whoever names it. -/
theorem moduleAt_inPackage (hs : Text.startsWith config.packageName "@" = true) (file : String)
    {directory : String} (hd : directory ∈ packageDirectories) {name : String}
    (hname : '/' ∉ name.toList) :
    moduleAt file (inPackage config directory ++ "/" ++ name)
      = (Pathname.ofText (packagePlace config directory name)).normal := by
  have hbare : isRelative (inPackage config directory ++ "/" ++ name) = false := by
    refine isRelative_eq_false ?_
    rw [inPackage, String.append_assoc, String.append_assoc, String.append_assoc,
      head?_of_scope hs]
    decide
  have hpath : "node_modules/" ++ (inPackage config directory ++ "/" ++ name) ++ ".ts"
      = "node_modules" ++ "/"
        ++ (config.packageName ++ "/" ++ directory ++ "/" ++ fileName name) := by
    simp only [inPackage, fileName, ← String.append_assoc]
    rfl
  obtain ⟨hdirectory, -⟩ := names_packageDirectory directory hd
  have hnames : (Pathname.ofText ("node_modules" ++ "/"
        ++ (config.packageName ++ "/" ++ directory ++ "/" ++ fileName name))).names
      = packageRoute config ++ [directory, fileName name] := by
    rw [Pathname.names_slash, Pathname.names_slash, Pathname.names_slash, hdirectory,
      names_fileName hname, packageRoute, ofText_packageRoot hs, List.append_assoc]
    rfl
  have hroot : (Pathname.ofText ("node_modules" ++ "/"
        ++ (config.packageName ++ "/" ++ directory ++ "/" ++ fileName name))).root = "" := by
    refine Pathname.root_of_relative ?_
    rw [String.append_assoc]
    exact Path.isAbsolute_append (by decide) (by decide) _
  rw [moduleAt, hbare, if_neg Bool.false_ne_true, hpath, ofText_packagePlace hd hname,
    ofText_packageRoot hs, ← hnames, ← hroot]

/-- A file of the package agrees with the name of its module, whoever uses the name. -/
theorem Agrees.of_place (hext : config.useJsExtension = false)
    (hs : Text.startsWith config.packageName "@" = true) {m m' : PlannedModule}
    {module directory name : String} (hd : directory ∈ packageDirectories)
    (hname : '/' ∉ name.toList)
    (hsource : module = (packagePaths config).module (inPackage config directory) name)
    (hplace : outputPath m'.toFile config = packagePlace config directory name) :
    Agrees config m module m' := by
  have hmodule : module = inPackage config directory ++ "/" ++ name := by
    have hsuffix : (packagePaths config).ext = "" := by
      show config.importExtension = ""
      rw [Config.importExtension, hext]
      rfl
    rw [hsource, ImportPaths.module, hsuffix, String.append_empty]
  rw [Agrees, hmodule, hplace]
  exact moduleAt_inPackage hs _ hd hname

/-! ## 3. The common types of entities -/

/-- A relative module is followed from the directory of the file. -/
theorem moduleAt_relative {file module root last : String} {route : List String}
    (hfile : Pathname.ofText file = ⟨root, route ++ [last]⟩) (hmodule : isRelative module = true)
    (hpath : Path.isAbsolute (module ++ ".ts") = false) :
    moduleAt file module
      = Pathname.normal ⟨root, route ++ (Pathname.ofText (module ++ ".ts")).names⟩ := by
  have htarget : Pathname.ofText (module ++ ".ts")
      = ⟨"", (Pathname.ofText (module ++ ".ts")).names⟩ := by
    rw [← Pathname.root_of_relative hpath]
  rw [moduleAt, hmodule, if_pos rfl, hfile, Pathname.parent, List.dropLast_concat, htarget,
    Pathname.child_relative]

/-- The files of entities stand in one directory. -/
theorem moduleAt_ofBase (hl : config.layout = .package) {s : Schema} (hslash : '/' ∉ s.name.toList)
    (paths : ImportPaths) {module : String} (hmodule : isRelative module = true)
    (hpath : Path.isAbsolute (module ++ ".ts") = false) :
    moduleAt (outputPath (planBase collection config paths s).toFile config) module
      = Pathname.normal ⟨(Pathname.ofText (packageRoot config)).root,
          packageRoute config ++ "schemas" :: (Pathname.ofText (module ++ ".ts")).names⟩ := by
  have hfile : Pathname.ofText (outputPath (planBase collection config paths s).toFile config)
      = ⟨(Pathname.ofText (packageRoot config)).root,
          packageRoute config ++ ["schemas"] ++ [fileName s.name]⟩ := by
    rw [outputPath_base hl hslash, ofText_packagePlace (by decide) hslash, List.append_assoc]
    rfl
  rw [moduleAt_relative hfile hmodule hpath, List.append_assoc]
  rfl

/-- The place of the common types. -/
theorem ofText_common (hl : config.layout = .package) (paths : ImportPaths) :
    Pathname.ofText (outputPath (planCommon config paths).toFile config)
      = ⟨(Pathname.ofText (packageRoot config)).root,
          packageRoute config ++ ["schemas", "common.ts"]⟩ := by
  rw [placeOf_common hl, ofText_packagePlace (by decide) (by decide)]
  rfl

/-- They are beside the files of entities. -/
theorem agrees_common_beside (hl : config.layout = .package) {s : Schema}
    (hslash : '/' ∉ s.name.toList) (paths : ImportPaths) :
    Agrees config (planBase collection config paths s) "./common" (planCommon config paths) := by
  rw [Agrees, moduleAt_ofBase hl hslash paths (by decide) (by decide), ofText_common hl]
  rfl

/-- They are not in the directory above. -/
theorem not_agrees_common_above (hl : config.layout = .package) {s : Schema}
    (hslash : '/' ∉ s.name.toList) (paths : ImportPaths) :
    ¬ Agrees config (planBase collection config paths s) "../common" (planCommon config paths) := by
  rw [Agrees, moduleAt_ofBase hl hslash paths (by decide) (by decide), ofText_common hl]
  intro h
  have habove (absolute : Bool) :
      (Path.reduce absolute (packageRoute config ++ ["schemas", "..", "common.ts"])).length
        = (Path.reduce absolute (packageRoute config)).length + 1 := by
    rw [Path.reduce_append]
    rfl
  have hbeside (absolute : Bool) :
      (Path.reduce absolute (packageRoute config ++ ["schemas", "common.ts"])).length
        = (Path.reduce absolute (packageRoute config)).length + 2 := by
    rw [Path.reduce_append]
    rfl
  -- one path has a name more than the other
  have hlength := congrArg (fun p => p.names.length) h
  simp only [Pathname.normal, List.length_reverse] at hlength
  have hnames : (Pathname.ofText ("../common" ++ ".ts")).names = ["..", "common.ts"] := by rfl
  rw [hnames, habove, hbeside] at hlength
  exact absurd hlength (by simp [Pathname.isAbsolute])

/-- **In a scoped package** every name leads to the place of what it stands for. -/
theorem Names.agrees (hl : config.layout = .package) (hext : config.useJsExtension = false)
    (hu : Unprefixed config) (hs : Text.startsWith config.packageName "@" = true)
    (hplugins : ∀ p ∈ config.pluginEnums, p.2.name = p.1 ∧ '/' ∉ p.1.toList)
    (hnames : ∀ s ∈ collection.schemas, '/' ∉ s.name.toList) {m m' : PlannedModule}
    {module : String} (h : Names collection config m module m') : Agrees config m module m' := by
  have hpaths := ofConfig_package hl hu hs
  have hentity {s : Schema} (hmem : s ∈ visibleSchemas collection) : '/' ∉ s.name.toList :=
    hnames s (List.mem_of_mem_filter (List.mem_of_mem_filter hmem))
  cases h with
  | commonOfBase hmem =>
    have hmodule : (packagePaths config).commonFromBase = "./common" := by
      show "./common" ++ config.importExtension = _
      rw [Config.importExtension, hext]
      rfl
    rw [hpaths, hmodule]
    exact agrees_common_beside hl (hentity hmem) _
  | enumOfBase _ hgiven heq =>
    obtain ⟨t, ht, hname, -⟩ := exists_schema_of_enumeration hgiven
    have hslash := hname ▸ hnames t ht
    rw [hpaths]
    exact .of_place hext hs List.mem_cons_self hslash rfl (outputPath_enum hl hslash heq)
  | @pluginOfBase _ p _ _ hgiven heq =>
    obtain ⟨hkey, hslash⟩ := hplugins p hgiven
    have hname : (Enumeration.ofPlugin config p.2).name = p.1 := hkey
    rw [← hname] at hslash ⊢
    rw [hpaths]
    exact .of_place hext hs List.mem_cons_self hslash rfl (outputPath_enum hl hslash heq)
  | baseOfModel hmem =>
    rw [hpaths]
    exact .of_place hext hs (by decide) (hentity hmem) rfl (outputPath_base hl (hentity hmem) _)
  | commonOfRules _ =>
    rw [hpaths]
    exact .of_place hext hs (by decide) (by decide) commonFromRoot_packagePaths
      (placeOf_common hl _)
  | commonOfI18n =>
    rw [hpaths]
    exact .of_place hext hs (by decide) (by decide) commonFromRoot_packagePaths
      (placeOf_common hl _)
  | baseOfIndex hmem =>
    rw [hpaths]
    exact .of_place hext hs (by decide) (hentity hmem) rfl (outputPath_base hl (hentity hmem) _)
  | commonOfIndex =>
    rw [hpaths]
    exact .of_place hext hs (by decide) (by decide) commonFromRoot_packagePaths
      (placeOf_common hl _)
  | i18nOfIndex =>
    rw [hpaths]
    exact .of_place hext hs (by decide) (by decide) i18nFromRoot_packagePaths (placeOf_i18n hl _)

/-! ## 4. Other packages -/

/-- For the table of imports a package is one if its name begins with an at sign. -/
theorem baseIsPackage_ofConfig (hl : config.layout = .package) (hu : Unprefixed config) :
    (ImportPaths.ofConfig config).baseIsPackage = Text.startsWith config.packageName "@" := by
  show ImportPaths.isScoped (ImportPaths.orPackage config config.baseImportPrefix "schemas") = _
  rw [orPackage_package hl hu.base, isScoped_inPackage]

/-- The file of an entity with time stamps takes their type from the common types. -/
theorem link_of_timestamps (collection : Collection) (config : Config) (paths : ImportPaths)
    {s : Schema} (h : s.options.timestamps = true) :
    (⟨"DateTimeString", paths.commonFromBase⟩ : Link)
      ∈ (planBase collection config paths s).source.links := by
  have hfield : Interface.stampField config "created_at" "Creation timestamp"
      ∈ (Interface.ofSchema collection config s).fields := by
    refine List.mem_append_left _ (List.mem_append_right _ ?_)
    rw [h]
    exact List.mem_cons_self
  have huses : (Interface.ofSchema collection config s).usesType "DateTimeString" = true :=
    List.any_eq_true.2 ⟨_, hfield, show Text.contains "DateTimeString" "DateTimeString" = true by
      decide⟩
  have hcommon : "DateTimeString" ∈ commonTypesOf (Interface.ofSchema collection config s) :=
    List.mem_filter.2 ⟨List.mem_cons_self, huses⟩
  have himport (withZod : Bool) (pluginEnums : List String) :
      (⟨"DateTimeString", paths.commonFromBase⟩ : Link) ∈
        (baseImports (Interface.ofSchema collection config s) paths withZod pluginEnums).flatMap
          ImportDecl.links := by
    have hnonempty : ¬ (commonTypesOf (Interface.ofSchema collection config s)).isEmpty = true :=
      fun hempty => List.ne_nil_of_mem hcommon (List.isEmpty_iff.1 hempty)
    refine List.mem_flatMap.2 ⟨
      { names := (commonTypesOf (Interface.ofSchema collection config s)).map .plain
        module := paths.commonFromBase, typeOnly := true }, ?_, ?_⟩
    · refine List.mem_append_left _ (List.mem_append_left _ (List.mem_append_right _ ?_))
      rw [if_neg hnonempty]
      exact List.mem_singleton_self _
    · exact List.mem_map.2 ⟨_, List.mem_map_of_mem hcommon, rfl⟩
  simp only [planBase]
  split
  · rw [links_baseModule]
    exact himport _ _
  · rw [links_baseModule]
    exact himport _ _

/-- In any other package the file of an entity looks for the common types in the directory above. -/
theorem commonFromBase_of_unscoped (hl : config.layout = .package)
    (hext : config.useJsExtension = false) (hu : Unprefixed config)
    (hs : Text.startsWith config.packageName "@" = false) :
    (ImportPaths.ofConfig config).commonFromBase = "../common" := by
  rw [ImportPaths.commonFromBase, baseIsPackage_ofConfig hl hu, hs]
  show "../common" ++ config.importExtension = _
  rw [Config.importExtension, hext]
  rfl

/-- A collection of one entity. -/
def oneUser : Collection := ⟨[{ name := "User" }]⟩

/-- **In any other package** the name of the module with the common types leads elsewhere. -/
theorem exists_disagreement (hl : config.layout = .package)
    (hext : config.useJsExtension = false) (hu : Unprefixed config)
    (hs : Text.startsWith config.packageName "@" = false) :
    ∃ m m' : PlannedModule, (⟨"DateTimeString", "../common"⟩ : Link) ∈ m.source.links ∧
      Names oneUser config m "../common" m' ∧ ¬ Agrees config m "../common" m' := by
  have huser : ({ name := "User" } : Schema) ∈ visibleSchemas oneUser := List.mem_cons_self
  have hlink := link_of_timestamps oneUser config (.ofConfig config)
    (s := { name := "User" }) rfl
  have hnames : Names oneUser config _ _ _ := .commonOfBase huser
  rw [commonFromBase_of_unscoped hl hext hu hs] at hlink hnames
  exact ⟨_, _, hlink, hnames, not_agrees_common_above hl (by decide) _⟩

/-- **When the two tables agree.**  In the package layout, without a suffix and without prefixes,
the names by which the files of entities refer to common types and enumerations, and by which the
other modules refer to entities and shared files, all lead to the places of these files exactly if
the name of the package begins with an at sign. -/
theorem package_imports_agree_iff (config : Config) (hl : config.layout = .package)
    (hext : config.useJsExtension = false) (hu : Unprefixed config)
    (hplugins : ∀ p ∈ config.pluginEnums, p.2.name = p.1 ∧ '/' ∉ p.1.toList) :
    (∀ collection : Collection, (∀ s ∈ collection.schemas, '/' ∉ s.name.toList) →
        ∀ m m' : PlannedModule, ∀ l ∈ m.source.links, Names collection config m l.module m' →
          Agrees config m l.module m') ↔
      Text.startsWith config.packageName "@" = true := by
  constructor
  · intro hagree
    by_contra hs
    rw [Bool.not_eq_true] at hs
    obtain ⟨m, m', hlink, hnames, hnot⟩ := exists_disagreement hl hext hu hs
    exact hnot (hagree oneUser (by decide) m m' _ hlink hnames)
  · intro hs collection hnames m m' l _ hmodule
    exact hmodule.agrees hl hext hu hs hplugins hnames

/-- The entity of the blog with references of all kinds. -/
def blogUser : PlannedModule :=
  planBase blog blogPackage (.ofConfig blogPackage) blog.schemas[0]

/-- The enumeration of a schema that it refers to. -/
def blogRole : Enumeration :=
  { name := "Role", members := [{ name := "Admin", value := "admin" }], comment := "Role" }

/-- The plugin enumeration that it refers to, under its own name. -/
def blogTier : PluginEnum := { name := "Tier", values := [{ value := "free" }] }

theorem package_imports_agree_blog :
    (∀ p ∈ blogPackage.pluginEnums, p.2.name = p.1 ∧ '/' ∉ p.1.toList) ∧
      ∃ role tier : PlannedModule,
        outputPath role.toFile blogPackage = "node_modules/@schema-base/enum/Role.ts" ∧
        outputPath tier.toFile blogPackage = "node_modules/@schema-base/enum/Tier.ts" ∧
        ∀ x ∈ ([(blogUser, ⟨"DateTimeString", "./common"⟩,
                planCommon blogPackage (.ofConfig blogPackage)),
              (blogUser, ⟨"Role", "@schema-base/enum/Role"⟩, role),
              (blogUser, ⟨"Tier", "@schema-base/enum/Tier"⟩, tier),
              (planModel blogPackage (.ofConfig blogPackage) blog.schemas[0],
                ⟨"User", "@schema-base/schemas/User"⟩, blogUser),
              (planI18n blogPackage (.ofConfig blogPackage),
                ⟨"LocaleMap", "@schema-base/schemas/common"⟩,
                planCommon blogPackage (.ofConfig blogPackage)),
              (planIndex blog blogPackage (.ofConfig blogPackage),
                ⟨"getMessage", "@schema-base/schemas/i18n"⟩,
                planI18n blogPackage (.ofConfig blogPackage))] :
              List (PlannedModule × Link × PlannedModule)),
          x.2.1 ∈ x.1.source.links ∧ Agrees blogPackage x.1 x.2.1.module x.2.2 := by
  have hagree {m m' : PlannedModule} {l : Link} (hlink : l ∈ m.source.links)
      (hnames : Names blog blogPackage m l.module m') :
      l ∈ m.source.links ∧ Agrees blogPackage m l.module m' :=
    ⟨hlink, (package_imports_agree_iff blogPackage rfl rfl ⟨rfl, rfl, rfl, rfl⟩ (by decide)).2
      (by decide) blog (by decide) m m' l hlink hnames⟩
  have huser : blog.schemas[0] ∈ visibleSchemas blog := List.mem_cons_self
  have hrole : blogRole ∈ Enumeration.all blog blogPackage := List.mem_cons_self
  have htier : ("Tier", blogTier) ∈ blogPackage.pluginEnums := List.mem_cons_self
  obtain ⟨role, hplanRole⟩ : ∃ m, planEnum Nesting.named blogPackage blogRole = .ok m := ⟨_, rfl⟩
  obtain ⟨tier, hplanTier⟩ : ∃ m, planEnum Nesting.named blogPackage
      (.ofPlugin blogPackage blogTier) = .ok m := ⟨_, rfl⟩
  refine ⟨by decide, role, tier, ?_, ?_, ?_⟩
  · exact (outputPath_enum rfl (by decide) hplanRole).trans (by decide)
  · exact (outputPath_enum rfl (by decide) hplanTier).trans (by decide)
  simp only [List.forall_mem_cons, List.not_mem_nil, false_implies, implies_true, and_true]
  refine ⟨?_, ?_, ?_, ?_, ?_, ?_⟩
  · exact hagree (by decide +kernel) (.commonOfBase huser)
  · exact hagree (by decide +kernel) (.enumOfBase huser hrole hplanRole)
  · exact hagree (by decide +kernel) (.pluginOfBase huser htier hplanTier)
  · exact hagree (by decide +kernel) (.baseOfModel huser)
  · exact hagree (by decide +kernel) .commonOfI18n
  · exact hagree (by decide +kernel) .i18nOfIndex

/-- A package without the sign: the file of a user takes the type of its time stamps from a module
that stands nowhere in the tree. -/
theorem unscoped_import_leads_elsewhere :
    ∃ m m' : PlannedModule, (⟨"DateTimeString", "../common"⟩ : Link) ∈ m.source.links ∧
      Names oneUser { layout := .package, packageName := "my-pkg" } m "../common" m' ∧
        ¬ Agrees { layout := .package, packageName := "my-pkg" } m "../common" m' :=
  exists_disagreement rfl rfl ⟨rfl, rfl, rfl, rfl⟩ (by decide)

end SchemaTypes.Output
