/-
# The links into a package

In the package layout enumerations, entities and shared files stand in a package, and other modules
name them by the package.  The package describes which files stand behind its subpaths, and the
description leads every such name to a planned file that exports what is taken from it, unless
names of modules end with the suffix of scripts: the description puts the suffix of sources behind
it, and no planned file has both (`package_links_lead_to_files`).
-/
import SchemaTypes.Check.Full
import SchemaTypes.Proofs.Output.Links
import SchemaTypes.Proofs.TypeScript.Packages

namespace SchemaTypes.Output

open Naming (IsStem)
open TypeScript (EndsModule Link)
open TypeScript.Package (fillStars patterns starIn? starIn?_star subpath?_append target?)

/-! ## 1. Package trees -/

/-- A snapshot in the package layout, whose files refer to nothing that has no file. -/
structure PackageTree (collection : Collection) (config : Config) : Prop where
  names : PlainNames collection config
  layout : config.layout = .package
  scope : Text.startsWith config.packageName "@" = true
  unprefixed : Unprefixed config
  keys : ∀ e ∈ config.pluginEnums, e.2.name = e.1
  enums : "UNKNOWN_ENUM_REFERENCE" ∉ (Check.validate collection config).codes

/-- A directory of the package, as modules name it. -/
def inPackage (config : Config) (directory : String) : String :=
  config.packageName ++ "/" ++ directory

/-- The locations of a package tree. -/
def packagePaths (config : Config) : ImportPaths :=
  { ext := config.importExtension
    schemaEnums := inPackage config "enum"
    pluginEnums := inPackage config "enum"
    indexEnums := inPackage config "enum"
    indexPluginEnums := inPackage config "enum"
    base := inPackage config "schemas"
    baseIsPackage := true }

variable {collection : Collection} {config : Config}

theorem orPackage_package (hl : config.layout = .package) {location : Option String}
    (hg : ImportPaths.given location = none) (directory : String) :
    ImportPaths.orPackage config location directory = some (inPackage config directory) := by
  rw [ImportPaths.orPackage, hg, hl]
  rfl

/-- Whether a directory is one of a package is a matter of the name of the package. -/
theorem isScoped_inPackage (config : Config) (directory : String) :
    ImportPaths.isScoped (some (inPackage config directory))
      = Text.startsWith config.packageName "@" := by
  show Text.startsWith (config.packageName ++ "/" ++ directory) (String.singleton '@') = _
  rw [String.append_assoc]
  by_cases hempty : config.packageName = ""
  · rw [hempty, String.empty_append, Text.startsWith, String.toList_append]
    rfl
  · exact Text.startsWith_append_congr fun h => hempty (String.toList_eq_nil_iff.1 h)

theorem ofConfig_package (hl : config.layout = .package) (hu : Unprefixed config)
    (hs : Text.startsWith config.packageName "@" = true) :
    ImportPaths.ofConfig config = packagePaths config := by
  have hscoped (directory : String) := (isScoped_inPackage config directory).trans hs
  have hbase : ImportPaths.enumsFromBase config (some (inPackage config "enum"))
      = inPackage config "enum" := by
    unfold ImportPaths.enumsFromBase
    rw [hu.schemaEnums]
    exact if_pos (hscoped "enum")
  unfold ImportPaths.ofConfig
  rw [orPackage_package hl hu.enums, orPackage_package hl hu.pluginEnums,
    orPackage_package hl hu.base]
  simp only [hbase, hscoped]
  rfl

/-! ## 2. Files of the package -/

/-- The path of a file in a directory of the package. -/
def packagePlace (config : Config) (directory name : String) : String :=
  Path.join (Path.join (packageRoot config) directory) (fileName name)

/-- The module of an enumeration. -/
theorem outputPath_enum (hl : config.layout = .package) {room : Nat} {e : Enumeration}
    {m : PlannedModule} (hs : '/' ∉ e.name.toList) (hm : planEnum room config e = .ok m) :
    outputPath m.toFile config = packagePlace config "enum" e.name := by
  obtain ⟨source, -, rfl⟩ := planEnum_eq_ok_iff.1 hm
  have hbase : Path.baseName (e.name ++ ".ts") = fileName e.name := baseName_fileName hs
  unfold outputPath PlannedModule.toFile
  rw [hl]
  cases e.plugin <;> simp only [hbase] <;> rfl

/-- The module of a property that lists values. -/
theorem outputPath_inline (hl : config.layout = .package) {room : Nat} {t : InlineEnum}
    {m : PlannedModule} (hs : '/' ∉ t.name.toList) (hm : planInline room config t = .ok m) :
    outputPath m.toFile config = packagePlace config "enum" t.name := by
  rcases t with ⟨_, _, e⟩ | ⟨_, _, a⟩
  · exact outputPath_enum hl hs hm
  · cases hm
    have hbase : Path.baseName (a.name ++ ".ts") = fileName a.name := baseName_fileName hs
    unfold outputPath PlannedModule.toFile planAlias
    rw [hl]
    simp only [hbase]
    rfl

/-- The file of an entity. -/
theorem outputPath_base (hl : config.layout = .package) {s : Schema} (hs : '/' ∉ s.name.toList)
    (paths : ImportPaths) :
    outputPath (planBase collection config paths s).toFile config
      = packagePlace config "schemas" s.name := by
  have hbase : Path.baseName ("base/" ++ s.name ++ ".ts") = fileName s.name := by
    rw [show "base/" ++ s.name ++ ".ts" = "base" ++ "/" ++ fileName s.name from
      String.append_assoc]
    exact baseName_slash_fileName "base" hs
  unfold outputPath PlannedModule.toFile planBase
  rw [hl]
  simp only [hbase]
  rfl

/-- The common file and the internationalisation module, whatever their category. -/
theorem placeOf_shared (hl : config.layout = .package) {name : String}
    (h : fileName name ∈ sharedFiles) {c : Category} (hc : c = .base ∨ c = .schema) :
    placeOf config (fileName name) c true = packagePlace config "schemas" name := by
  have hs : '/' ∉ name.toList := fun hm => slash_not_mem_shared _ h (by simp [fileName, hm])
  have hbase := baseName_fileName hs
  have hcontains : sharedFiles.contains (fileName name) = true := List.contains_iff_mem.2 h
  unfold placeOf outputPath
  rw [hl]
  simp only [hbase, hcontains]
  rcases hc with rfl | rfl
  · rfl
  · rfl

theorem placeOf_common (hl : config.layout = .package) (paths : ImportPaths) :
    outputPath (planCommon config paths).toFile config
      = packagePlace config "schemas" "common" := by
  have hname : "common.ts" = fileName "common" := by decide
  rw [outputPath_toFile]
  simp only [planCommon, hname]
  exact placeOf_shared hl (by decide) (sharedCategory_cases paths)

theorem placeOf_i18n (hl : config.layout = .package) (paths : ImportPaths) :
    outputPath (planI18n config paths).toFile config = packagePlace config "schemas" "i18n" := by
  have hname : "i18n.ts" = fileName "i18n" := by decide
  rw [outputPath_toFile]
  simp only [planI18n, hname]
  exact placeOf_shared hl (by decide) (sharedCategory_cases paths)

/-- The directories of the package. -/
def packageDirectories : List String := ["enum", "schemas"]

theorem names_packageDirectory : ∀ directory ∈ packageDirectories,
    (Pathname.ofText directory).names = [directory] ∧ Path.isAbsolute directory = false := by
  decide

/-- The names of a file in the package. -/
theorem ofText_packagePlace {directory : String} (hd : directory ∈ packageDirectories)
    {name : String} (hs : '/' ∉ name.toList) :
    Pathname.ofText (packagePlace config directory name)
      = ⟨(Pathname.ofText (packageRoot config)).root,
          packageRoute config ++ [directory, fileName name]⟩ := by
  obtain ⟨hnames, hrelative⟩ := names_packageDirectory directory hd
  have hfile := Path.isAbsolute_of_not_mem (slash_not_mem_fileName hs)
  rw [packagePlace, Pathname.ofText_join _ hfile, Pathname.ofText_join _ hrelative, hnames,
    names_fileName hs, List.append_assoc]
  rfl

/-! ## 3. The description of the package -/

/-- The file behind the name of a module of the package, from where the package is installed. -/
def fileOf? (config : Config) (condition module : String) : Option String :=
  (target? (packageDocument config) condition config.packageName module).map
    (Path.join (packageRoot config))

/-- The conditions under which types and code are looked for. -/
def packageConditions : List String := ["types", "default"]

/-- Types and code are found by the same patterns. -/
theorem patterns_packageDocument {condition : String} (hc : condition ∈ packageConditions) :
    patterns (packageDocument config) condition = packageExports := by
  rcases List.mem_pair.1 hc with rfl | rfl
  · rfl
  · rfl

/-- A subpath in a directory of the package fits the pattern of that directory alone. -/
theorem findSome?_packageExports {directory : String} (hd : directory ∈ packageDirectories)
    (rest : String) :
    packageExports.findSome? (fun p =>
        (starIn? p.1 ("./" ++ directory ++ "/" ++ rest)).map (fillStars p.2))
      = some ("./" ++ directory ++ "/" ++ rest ++ ".ts") := by
  have hstar (before : String) (h : '*' ∉ before.toList) :
      starIn? (before ++ "*") (before ++ rest) = some rest := by
    rw [starIn?_star h, Text.startsWith_append, if_pos rfl, String.toList_append, List.drop_left,
      String.ofList_toList]
  rcases List.mem_pair.1 hd with rfl | rfl
  · have henum : starIn? "./enum/*" ("./enum/" ++ rest) = some rest := hstar "./enum/" (by decide)
    show List.findSome? (fun p : String × String =>
      (starIn? p.1 ("./enum/" ++ rest)).map (fillStars p.2)) _ = _
    rw [packageExports, List.findSome?_cons, henum]
    rfl
  · have henum : starIn? "./enum/*" ("./schemas/" ++ rest) = none := by
      have hother : Text.startsWith ("./schemas/" ++ rest) "./enum/" = false := by
        rw [Text.startsWith, String.toList_append]
        rfl
      rw [show "./enum/*" = "./enum/" ++ "*" from rfl, starIn?_star (by decide), hother]
      rfl
    have hschemas : starIn? "./schemas/*" ("./schemas/" ++ rest) = some rest :=
      hstar "./schemas/" (by decide)
    show List.findSome? (fun p : String × String =>
      (starIn? p.1 ("./schemas/" ++ rest)).map (fillStars p.2)) _ = _
    rw [packageExports, List.findSome?_cons, henum, List.findSome?_cons, hschemas]
    rfl

/-- **The file behind a module of the package**: the suffix of sources is put behind its name. -/
theorem fileOf?_inPackage {condition : String} (hc : condition ∈ packageConditions)
    {directory : String} (hd : directory ∈ packageDirectories) (rest : String) :
    fileOf? config condition (inPackage config directory ++ "/" ++ rest)
      = some (Path.join (packageRoot config) ("./" ++ directory ++ "/" ++ rest ++ ".ts")) := by
  have hmodule : inPackage config directory ++ "/" ++ rest
      = config.packageName ++ ("/" ++ directory ++ "/" ++ rest) := by
    simp only [inPackage, String.append_assoc]
  have hsubpath : "." ++ ("/" ++ directory ++ "/" ++ rest) = "./" ++ directory ++ "/" ++ rest := by
    simp only [← String.append_assoc]
    rfl
  rw [fileOf?, hmodule, target?, subpath?_append, Option.bind_some, hsubpath,
    patterns_packageDocument hc, findSome?_packageExports hd]
  rfl

/-- It is the file of that name in the directory. -/
theorem ofText_packageFile {directory : String} (hd : directory ∈ packageDirectories)
    {name : String} (hs : '/' ∉ name.toList) :
    Pathname.ofText (Path.join (packageRoot config) ("./" ++ directory ++ "/" ++ name ++ ".ts"))
      = Pathname.ofText (packagePlace config directory name) := by
  obtain ⟨hnames, -⟩ := names_packageDirectory directory hd
  have hpath : "./" ++ directory ++ "/" ++ name ++ ".ts"
      = "." ++ ("/" ++ directory ++ "/" ++ fileName name) := by
    simp only [fileName, ← String.append_assoc]
    rfl
  have hrelative : Path.isAbsolute ("." ++ ("/" ++ directory ++ "/" ++ fileName name)) = false :=
    Path.isAbsolute_append (by decide) (by decide) _
  have hlocal : (Pathname.ofText ("." ++ ("/" ++ directory ++ "/" ++ fileName name))).names
      = [directory, fileName name] := by
    rw [show "." ++ ("/" ++ directory ++ "/" ++ fileName name)
        = "." ++ "/" ++ (directory ++ "/" ++ fileName name) by simp only [String.append_assoc],
      Pathname.names_slash, Pathname.names_slash, hnames, names_fileName hs]
    rfl
  rw [hpath, Pathname.ofText_join _ hrelative, hlocal, ofText_packagePlace hd hs]
  rfl

/-! ## 4. Links into the package -/

/-- A name that is taken from a file of the package, which exports it. -/
def IntoPackage (collection : Collection) (config : Config) (l : Link) : Prop :=
  ∃ directory ∈ packageDirectories, ∃ name m, IsStem name ∧
    l.module = (packagePaths config).module (inPackage config directory) name ∧
    Origin collection config m ∧ outputPath m.toFile config = packagePlace config directory name ∧
    l.name ∈ m.source.exportedNames

/-- A module whose name begins otherwise is none of the package. -/
theorem PackageTree.outside (h : PackageTree collection config) (start rest : String)
    (hne : start.toList ≠ []) (hstart : Text.startsWith start "@" = false) :
    ¬ Text.startsWith (start ++ rest) config.packageName = true := by
  intro hpackage
  have hsign := Text.startsWith_trans hpackage h.scope
  rw [show "@" = String.singleton '@' from rfl, Text.startsWith_append_congr hne] at hsign
  exact nomatch hsign.symm.trans hstart

/-- A module beside, too. -/
theorem PackageTree.outside_module (h : PackageTree collection config) (location name : String)
    (hne : location.toList ≠ []) (hlocation : Text.startsWith location "@" = false) :
    ¬ Text.startsWith ((packagePaths config).module location name) config.packageName = true := by
  rw [ImportPaths.module, String.append_assoc, String.append_assoc]
  exact h.outside location _ hne hlocation

theorem commonFromRoot_packagePaths : (packagePaths config).commonFromRoot
    = (packagePaths config).module (inPackage config "schemas") "common" := by
  have hname : inPackage config "schemas" ++ "/" ++ "common"
      = inPackage config "schemas" ++ "/common" := String.append_assoc
  rw [ImportPaths.module, hname]
  rfl

theorem i18nFromRoot_packagePaths : (packagePaths config).i18nFromRoot
    = (packagePaths config).module (inPackage config "schemas") "i18n" := by
  have hname : inPackage config "schemas" ++ "/" ++ "i18n"
      = inPackage config "schemas" ++ "/i18n" := String.append_assoc
  rw [ImportPaths.module, hname]
  rfl

section Into

variable {ms : List PlannedModule} {l : Link}

theorem PackageTree.into_enum (h : PackageTree collection config)
    (hms : planModules collection config = .ok ms) {e : Enumeration}
    (he : e ∈ Enumeration.all collection config ∨ e ∈ Enumeration.allPlugin config)
    (hsource : l.module = (packagePaths config).module (inPackage config "enum") e.name)
    (hmem : l.name ∈ valueNames e.name) : IntoPackage collection config l := by
  rcases he with he | he
  · obtain ⟨m, hm⟩ := (exists_module_of_mem hms).1 e he
    have hname := (h.names.schemaEnum he).1
    exact ⟨"enum", by decide, e.name, m, hname, hsource, .schemaEnum he hm,
      outputPath_enum h.layout hname.slash hm, (planEnum_spec hm).2.1 _ hmem⟩
  · obtain ⟨m, hm⟩ := (exists_module_of_mem hms).2.1 e he
    have hname := (h.names.pluginEnum he).1
    exact ⟨"enum", by decide, e.name, m, hname, hsource, .pluginEnum he hm,
      outputPath_enum h.layout hname.slash hm, (planEnum_spec hm).2.1 _ hmem⟩

theorem PackageTree.into_inline (h : PackageTree collection config)
    (hms : planModules collection config = .ok ms) {t : InlineEnum}
    (ht : t ∈ InlineEnum.all collection config)
    (hsource : l.module = (packagePaths config).module (inPackage config "enum") t.name)
    (hmem : l.name ∈ valueNames t.name) : IntoPackage collection config l := by
  obtain ⟨m, hm⟩ := (exists_module_of_mem hms).2.2 t ht
  have hname := h.names.inline ht
  exact ⟨"enum", by decide, t.name, m, hname, hsource, .inline ht hm,
    outputPath_inline h.layout hname.slash hm, (planInline_spec hm).2.1 _ hmem⟩

theorem PackageTree.into_base (h : PackageTree collection config) {s : Schema}
    (hs : s ∈ visibleSchemas collection)
    (hsource : l.module = (packagePaths config).baseFromModel s.name)
    (hmem : l.name ∈ s.name :: if config.generateZodSchemas then
      baseSchemaNames s.name ++ labelHelpers s.name else utilityNames s.name) :
    IntoPackage collection config l := by
  have hname := h.names.entity hs
  exact ⟨"schemas", by decide, s.name, _, hname, hsource, .base hs,
    outputPath_base h.layout hname.slash _, planBase_exports _ s _ hmem⟩

theorem PackageTree.into_common (h : PackageTree collection config)
    (hsource : l.module = (packagePaths config).commonFromRoot) (hmem : l.name ∈ commonNames) :
    IntoPackage collection config l :=
  ⟨"schemas", by decide, "common", _, by decide, hsource.trans commonFromRoot_packagePaths, .common,
    placeOf_common h.layout _, (commonModule_spec config).1 _ hmem⟩

theorem PackageTree.into_i18n (h : PackageTree collection config)
    (hsource : l.module = (packagePaths config).i18nFromRoot) (hmem : l.name ∈ i18nNames) :
    IntoPackage collection config l :=
  ⟨"schemas", by decide, "i18n", _, by decide, hsource.trans i18nFromRoot_packagePaths, .i18n,
    placeOf_i18n h.layout _, (i18nModule_spec config _).1 _ hmem⟩

/-- Out of the file of an entity, enumerations are taken from the package. -/
theorem PackageTree.into_of_base (h : PackageTree collection config)
    (hms : planModules collection config = .ok ms) {s : Schema}
    (hs : s ∈ visibleSchemas collection)
    (hl : l ∈ (planBase collection config (packagePaths config) s).source.links)
    (hpackage : Text.startsWith l.module config.packageName = true) :
    IntoPackage collection config l := by
  have hlink : BaseLink (Interface.ofSchema collection config s) (packagePaths config)
      (config.pluginEnums.map (·.1)) l := by
    simp only [planBase] at hl
    split at hl
    · exact baseLink_of_mem hl
    · exact baseLink_of_mem hl
  cases hlink with
  | zod hsource =>
    rw [hsource] at hpackage
    exact absurd hpackage (h.outside "zod" "" (by decide) (by decide))
  | common hsource _ =>
    rw [hsource] at hpackage
    exact absurd hpackage (h.outside "./common" config.importExtension (by decide) (by decide))
  | enum hsource hmem =>
    obtain ⟨e, hname, he⟩ :=
      exists_enumeration h.enums h.keys (List.mem_of_mem_filter hs) hmem
    refine h.into_enum hms (e := e) ?_ ?_ ?_
    · split at he
      · exact .inr he
      · exact .inl he
    · rw [hsource, hname, ImportPaths.enumFromBase]
      exact congrArg ((packagePaths config).module · l.name) (ite_self _)
    · rw [hname]
      exact List.mem_cons_self
  | entity hsource _ =>
    rw [hsource] at hpackage
    exact absurd hpackage (h.outside_module "." l.name (by decide) (by decide))

/-- The index takes enumerations, shared names and the types of changes from the package. -/
theorem PackageTree.into_of_index (h : PackageTree collection config)
    (hms : planModules collection config = .ok ms)
    (hl : l ∈ (planIndex collection config (packagePaths config)).source.links)
    (hpackage : Text.startsWith l.module config.packageName = true) :
    IntoPackage collection config l := by
  cases indexLink_of_mem hl with
  | common hsource hmem => exact h.into_common hsource hmem
  | i18n hsource hmem => exact h.into_i18n hsource hmem
  | @enum e he hsource hmem =>
    rcases List.mem_append.1 he with he | he
    · exact h.into_enum hms (.inl he) hsource hmem
    · obtain ⟨t, ht, hname⟩ := exists_inline_of_enumeration he
      rw [← hname] at hsource hmem
      exact h.into_inline hms ht hsource hmem
  | plugin he hsource hmem => exact h.into_enum hms (.inr he) hsource hmem
  | typeAlias ha hsource hmem =>
    obtain ⟨t, ht, hname⟩ := exists_inline_of_alias ha
    rw [← hname] at hsource hmem
    exact h.into_inline hms ht hsource hmem
  | entity hname hlink =>
    obtain ⟨s, hs, rfl⟩ := List.mem_map.1 hname
    cases hlink with
    | model hsource _ =>
      rw [hsource] at hpackage
      exact absurd hpackage (h.outside_module "." s.name (by decide) (by decide))
    | base hplain hsource hmem =>
      refine h.into_base hs hsource (List.mem_cons_of_mem _ ?_)
      rw [hplain]
      exact hmem
    | rules _ hsource _ =>
      rw [hsource] at hpackage
      exact absurd hpackage
        (h.outside_module "./rules" (s.name ++ ".rules") (by decide) (by decide))

/-- **Every link into the package** takes a name from a file there that exports it. -/
theorem PackageTree.into (h : PackageTree collection config)
    (hms : planModules collection config = .ok ms) {m : PlannedModule}
    (hm : Origin collection config m) (hl : l ∈ m.source.links)
    (hpackage : Text.startsWith l.module config.packageName = true) :
    IntoPackage collection config l := by
  have hpaths := ofConfig_package h.layout h.unprefixed h.scope
  have hnone (hlinks : m.source.links = []) : False := by
    rw [hlinks] at hl
    exact nomatch hl
  cases hm with
  | schemaEnum _ heq => exact (hnone (planEnum_spec heq).2.2).elim
  | pluginEnum _ heq => exact (hnone (planEnum_spec heq).2.2).elim
  | inline _ heq => exact (hnone (planInline_spec heq).2.2).elim
  | base hmem =>
    rw [hpaths] at hl
    exact h.into_of_base hms hmem hl hpackage
  | @model s hmem =>
    rw [hpaths] at hl
    have hzod : l.module ≠ "zod" := by
      intro hsource
      rw [hsource] at hpackage
      exact h.outside "zod" "" (by decide) (by decide) hpackage
    obtain ⟨hsource, hmem'⟩ := mem_links_modelModule hl hzod
    refine h.into_base hmem hsource ?_
    rcases hmem' with hname | ⟨hz, hname⟩
    · rw [hname]
      exact List.mem_cons_self
    · rw [hz]
      exact List.mem_cons_of_mem _ hname
  | @rules s _ _ =>
    rw [hpaths] at hl
    replace hl := (rulesModule_spec s.name _ _).2 ▸ hl
    rcases List.mem_pair.1 hl with rfl | rfl
    · exact h.into_common rfl (by decide : "LocaleMap" ∈ commonNames)
    · exact h.into_common rfl (by decide : "ValidationRule" ∈ commonNames)
  | common => exact (hnone (commonModule_spec config).2).elim
  | i18n =>
    rw [hpaths] at hl
    replace hl := (i18nModule_spec config _).2 ▸ hl
    rw [List.mem_singleton.1 hl]
    exact h.into_common rfl (by decide : "LocaleMap" ∈ commonNames)
  | index =>
    rw [hpaths] at hl
    exact h.into_of_index hms hl hpackage

end Into

/-! ## 5. Where the description leads -/

/-- The description leads the name of a module to the file of a planned one. -/
def Denotes (config : Config) (condition module : String) (m : PlannedModule) : Prop :=
  ∃ file, fileOf? config condition module = some file ∧
    (Pathname.ofText file).normal = (Pathname.ofText (outputPath m.toFile config)).normal

/-- The last name of a path in normal form. -/
theorem getLast?_normal (root : String) (route : List String) {last : String}
    (h : Path.IsPlain last) :
    (Pathname.normal ⟨root, route ++ [last]⟩).names.getLast? = some last := by
  have hreduce := Path.reduce_append (Pathname.isAbsolute ⟨root, route ++ [last]⟩) route [last]
  rw [List.foldl_cons, List.foldl_nil, Path.push_of_isPlain _ _ h] at hreduce
  rw [Pathname.normal, hreduce, List.reverse_cons, List.getLast?_concat]

/-- The file of a planned module has the suffix of sources once, behind what can end the name of a
module. -/
theorem PlainNames.exists_stem (h : PlainNames collection config) {m : PlannedModule}
    (hm : Origin collection config m) :
    ∃ route name, placeNames config m = route ++ [fileName name] ∧ EndsModule name := by
  cases hm with
  | schemaEnum hmem heq =>
    have hname := (h.schemaEnum hmem).1
    exact ⟨_, _, placeNames_enum hname.slash heq, endsModule_of_isStem hname⟩
  | pluginEnum hmem heq =>
    have hname := (h.pluginEnum hmem).1
    exact ⟨_, _, placeNames_enum hname.slash heq, endsModule_of_isStem hname⟩
  | inline hmem heq =>
    exact ⟨_, _, h.placeNames_inline hmem heq, endsModule_of_isStem (h.inline hmem)⟩
  | base hmem =>
    have hname := h.entity hmem
    exact ⟨_, _, placeNames_base hname.slash, endsModule_of_isStem hname⟩
  | model hmem =>
    have hname := h.entity hmem
    exact ⟨_, _, placeNames_model hname.slash, endsModule_of_isStem hname⟩
  | @rules s _ hmem =>
    have hname := (h.entity hmem).slash
    refine ⟨modelRoute config ++ ["rules"], s.name ++ ".rules", ?_, .append_rules hname⟩
    rw [placeNames_rules hname, List.append_assoc]
    rfl
  | common => exact ⟨_, _, placeNames_common, endsModule_of_isStem (by decide)⟩
  | i18n => exact ⟨_, _, placeNames_i18n, endsModule_of_isStem (by decide)⟩
  | index => exact ⟨_, _, placeNames_index, endsModule_of_isStem (by decide)⟩

/-- A module into the package, as the description reads it. -/
theorem IntoPackage.file {l : Link} (h : IntoPackage collection config l) {condition : String}
    (hc : condition ∈ packageConditions) :
    ∃ directory ∈ packageDirectories, ∃ name m, '/' ∉ name.toList ∧
      fileOf? config condition l.module = some (Path.join (packageRoot config)
        ("./" ++ directory ++ "/" ++ (name ++ config.importExtension) ++ ".ts")) ∧
      Origin collection config m ∧
      outputPath m.toFile config = packagePlace config directory name ∧
      l.name ∈ m.source.exportedNames := by
  obtain ⟨directory, hd, name, m, hname, hsource, horigin, hplace, hexports⟩ := h
  refine ⟨directory, hd, name, m, hname.slash, ?_, horigin, hplace, hexports⟩
  have hmodule : (packagePaths config).module (inPackage config directory) name
      = inPackage config directory ++ "/" ++ (name ++ config.importExtension) :=
    String.append_assoc
  rw [hsource, hmodule]
  exact fileOf?_inPackage hc hd _

/-- Without the suffix of scripts the description leads to a file that exports the name. -/
theorem IntoPackage.denotes {l : Link} (h : IntoPackage collection config l)
    (hext : config.useJsExtension = false) {condition : String}
    (hc : condition ∈ packageConditions) :
    ∃ m, Origin collection config m ∧ l.name ∈ m.source.exportedNames ∧
      Denotes config condition l.module m := by
  obtain ⟨directory, hd, name, m, hs, hfile, horigin, hplace, hexports⟩ := h.file hc
  rw [Config.importExtension, hext, if_neg Bool.false_ne_true, String.append_empty] at hfile
  refine ⟨m, horigin, hexports, _, hfile, ?_⟩
  rw [hplace, ofText_packageFile hd hs]

/-- With it the description leads to no file of the plan. -/
theorem IntoPackage.not_denotes {l : Link} (h : IntoPackage collection config l)
    (hnames : PlainNames collection config) (hext : config.useJsExtension = true)
    {condition : String} (hc : condition ∈ packageConditions) {m : PlannedModule}
    (hm : Origin collection config m) : ¬ Denotes config condition l.module m := by
  rintro ⟨file, hfile, hplace⟩
  obtain ⟨directory, hd, name, -, hs, htarget, -⟩ := h.file hc
  have hsuffix : config.importExtension = ".js" := by
    rw [Config.importExtension, hext]
    rfl
  have hscript : '/' ∉ (name ++ ".js").toList := by
    rw [String.toList_append, List.mem_append]
    exact fun hmem => hmem.elim hs (by decide)
  obtain ⟨route, stem, hroute, hstem⟩ := hnames.exists_stem hm
  -- both paths end with the name of a file, and these names differ
  have hlast : some (fileName (name ++ ".js")) = some (fileName stem) := by
    rw [hfile] at htarget
    rw [Option.some.inj htarget, hsuffix, ofText_packageFile hd hscript,
      ofText_packagePlace hd hscript] at hplace
    have hleft := getLast?_normal (Pathname.ofText (packageRoot config)).root
      (packageRoute config ++ [directory]) (isPlain_fileName (name ++ ".js"))
    have hright := getLast?_normal (Pathname.ofText (outputPath m.toFile config)).root route
      (isPlain_fileName stem)
    rw [← hroute] at hright
    rw [List.append_assoc] at hleft
    rw [← hleft, ← hright]
    exact congrArg (fun p => p.names.getLast?) hplace
  have hends := hstem.script ""
  rw [← fileName_inj (Option.some.inj hlast), ← String.append_assoc] at hends
  exact Text.endsWith_eq_false_iff.1 hends ⟨_, String.toList_append.symm⟩

/-- **Where the links into the package lead.**  Types and code are found by the description of the
package: without the suffix of scripts every name that a module takes from the package is exported
by the planned module whose file the description gives; with that suffix the description never
gives the file of a planned module. -/
theorem package_links_lead_to_files {collection : Collection} {config : Config}
    {ms : List PlannedModule} (h : PackageTree collection config)
    (hms : planModules collection config = .ok ms) :
    ∀ m ∈ ms, ∀ l ∈ m.source.links, Text.startsWith l.module config.packageName = true →
      ∀ condition ∈ packageConditions,
        (config.useJsExtension = false → ∃ m' ∈ ms, l.name ∈ m'.source.exportedNames ∧
          Denotes config condition l.module m') ∧
        (config.useJsExtension = true → ∀ m' ∈ ms, ¬ Denotes config condition l.module m') := by
  intro m hm l hl hpackage condition hc
  have hinto := h.into hms ((mem_planModules_iff hms m).1 hm) hl hpackage
  constructor
  · intro hext
    obtain ⟨m', horigin, hexports, hdenotes⟩ := hinto.denotes hext hc
    exact ⟨m', (mem_planModules_iff hms m').2 horigin, hexports, hdenotes⟩
  · intro hext m' hm'
    exact hinto.not_denotes h.names hext hc ((mem_planModules_iff hms m').1 hm')

/-- The settings of the blog in the package layout. -/
def blogPackage : Config := { blogConfig with layout := .package }

theorem packageTree_blog : PackageTree blog blogPackage where
  names := ⟨by decide, by decide, by decide⟩
  layout := rfl
  scope := by decide
  unprefixed := ⟨rfl, rfl, rfl, rfl⟩
  keys := by decide
  enums := by decide

theorem package_links_lead_to_files_blog :
    PackageTree blog blogPackage ∧ ∃ ms, planModules blog blogPackage = .ok ms ∧
      ∃ m' ∈ ms, "User" ∈ m'.source.exportedNames ∧
        Denotes blogPackage "types" "@schema-base/schemas/User" m' := by
  have hplan : ∃ ms, planModules blog blogPackage = .ok ms :=
    ⟨_, planModules_eq_ok_iff.2 ⟨by decide, _, rfl, rfl, rfl⟩⟩
  obtain ⟨ms, hms⟩ := hplan
  have huser : planModel blogPackage (.ofConfig blogPackage) { name := "User" } ∈ ms :=
    (mem_planModules_iff hms _).2 (.model (s := blog.schemas[0]) List.mem_cons_self)
  exact ⟨packageTree_blog, ms, hms, (package_links_lead_to_files packageTree_blog hms _ huser
    ⟨"User", "@schema-base/schemas/User"⟩ (by decide) (by decide) "types" (by decide)).1 rfl⟩

/-- The settings of a package whose modules are named with the suffix of scripts. -/
def scriptPackage : Config :=
  { layout := .package, packageName := "@app/schema", useJsExtension := true
    generateZodSchemas := false }

/-- The model file of an entity takes it from a module for which the description gives a file that
nobody plans. -/
theorem script_module_leads_nowhere :
    ∃ ms, planModules ⟨[{ name := "Item" }]⟩ scriptPackage = .ok ms ∧
      ∃ m ∈ ms, ⟨"Item", "@app/schema/schemas/Item.js"⟩ ∈ m.source.links ∧
        fileOf? scriptPackage "types" "@app/schema/schemas/Item.js"
          = some "node_modules/@app/schema/./schemas/Item.js.ts" ∧
        ∀ m' ∈ ms, ¬ Denotes scriptPackage "types" "@app/schema/schemas/Item.js" m' := by
  have htree : PackageTree ⟨[{ name := "Item" }]⟩ scriptPackage :=
    { names := ⟨by decide, by decide, by decide⟩, layout := rfl, scope := by decide
      unprefixed := ⟨rfl, rfl, rfl, rfl⟩, keys := by decide, enums := by decide }
  have hplan : ∃ ms, planModules ⟨[{ name := "Item" }]⟩ scriptPackage = .ok ms :=
    ⟨_, planModules_eq_ok_iff.2 ⟨by decide, _, rfl, rfl, rfl⟩⟩
  obtain ⟨ms, hms⟩ := hplan
  have hitem : Origin ⟨[{ name := "Item" }]⟩ scriptPackage
      (planModel scriptPackage (.ofConfig scriptPackage) { name := "Item" }) :=
    .model (s := { name := "Item" }) List.mem_cons_self
  have hlink : (⟨"Item", "@app/schema/schemas/Item.js"⟩ : Link) ∈
      (planModel scriptPackage (.ofConfig scriptPackage) { name := "Item" }).source.links := by
    decide
  refine ⟨ms, hms, _, (mem_planModules_iff hms _).2 hitem, hlink, by decide, fun m' hm' => ?_⟩
  exact (htree.into hms hitem hlink (by decide)).not_denotes htree.names rfl (by decide)
    ((mem_planModules_iff hms m').1 hm')

end SchemaTypes.Output
