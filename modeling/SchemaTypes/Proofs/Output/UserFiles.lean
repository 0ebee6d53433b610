/-
# Files that belong to the user

A model file is written once and belongs to the user from then on.  An export keeps its bytes as
long as nothing else of the plan goes to its place (`exportFrom_kept`), and any number of exports
does (`Runs.kept`).

Whether something else goes there is a matter of names alone.  The index, and in the flat layout
the common file and the internationalisation module, stand in the directory of the models; a schema
with one of their names has its model file at their place, where every export replaces it
(`userFile_kept_iff`).
-/
import SchemaTypes.Proofs.Output.Export
import SchemaTypes.Proofs.Output.Route

namespace SchemaTypes.Output

open Disk (Edit Grows)
open FileAction (Meets MeetsNull)
open Naming (IsStem)

/-! ## 1. Paths that never lead to one place -/

/-- On no disk do both paths lead to one place. -/
def Apart (p q : Pathname) : Prop := ∀ d : Disk, d.target p ≠ d.target q

/-- The last names of a path are the last names of its target. -/
theorem target_child (directory : Pathname) {path : String} {init rest : List String}
    (hnames : (Pathname.ofText path).names = init ++ rest) (hdots : ".." ∉ rest) (d : Disk) :
    ∃ l, d.target (directory.child (Pathname.ofText path)) = l ++ rest := by
  have hchild : ∃ pre, (directory.child (Pathname.ofText path)).names = pre ++ rest := by
    unfold Pathname.child
    split
    · exact ⟨init, hnames⟩
    · exact ⟨directory.names ++ init, by rw [hnames, List.append_assoc]⟩
  obtain ⟨pre, hpre⟩ := hchild
  rw [Disk.target, hpre, Location.walk_append, Location.walk_of_not_mem _ hdots]
  exact ⟨_, rfl⟩

/-- Paths with different last names lead to different places. -/
theorem apart_of_last (directory : Pathname) {p q a b : String} {init init' : List String}
    (hp : (Pathname.ofText p).names = init ++ [a]) (hq : (Pathname.ofText q).names = init' ++ [b])
    (ha : a ≠ "..") (hb : b ≠ "..") (hab : a ≠ b) :
    Apart (directory.child (Pathname.ofText p)) (directory.child (Pathname.ofText q)) := by
  intro d h
  obtain ⟨l, hl⟩ := target_child directory hp (by simpa using ha.symm) d
  obtain ⟨l', hl'⟩ := target_child directory hq (by simpa using hb.symm) d
  rw [hl, hl'] at h
  exact hab (List.cons.inj (List.append_inj_right' h rfl)).1

/-- Paths into different directories lead to different places. -/
theorem apart_of_directory (directory : Pathname) {p q a b c e : String}
    {init init' : List String} (hp : (Pathname.ofText p).names = init ++ [a, b])
    (hq : (Pathname.ofText q).names = init' ++ [c, e]) (hpdots : ".." ∉ [a, b])
    (hqdots : ".." ∉ [c, e]) (hac : a ≠ c) :
    Apart (directory.child (Pathname.ofText p)) (directory.child (Pathname.ofText q)) := by
  intro d h
  obtain ⟨l, hl⟩ := target_child directory hp hpdots d
  obtain ⟨l', hl'⟩ := target_child directory hq hqdots d
  rw [hl, hl'] at h
  exact hac (List.cons.inj (List.append_inj_right' h rfl)).1

/-! ## 2. One export -/

variable {s : ExportSettings} {d : Disk}

/-- A file can be exported without harm to a path: it is left alone where the path is, or goes
elsewhere. -/
def Harmless (s : ExportSettings) (p : Pathname) (f : GeneratedFile) : Prop :=
  f.overwrite = false ∧ s.filePath f = p ∨ Apart (s.filePath f) p

/-- **One harmless file** keeps the bytes that a path reads. -/
theorem exportOne_kept {p : Pathname} {bytes : ByteArray} {f : GeneratedFile} (x : Exported)
    (hf : Harmless s p f) (hp : d.entry p = .ok (.file bytes)) :
    Meets (s.exportOne f x) d (fun _ d' => d'.entry p = .ok (.file bytes))
      (fun _ d' => d'.entry p = .ok (.file bytes)) := by
  refine (ExportSettings.exportOne_meets f x).mono (fun x' d' h => ?_) fun _ d' h => ?_
  · obtain ⟨-, o, hhandled, -⟩ := h
    refine Disk.entry_file_kept hhandled.edit ?_ hp
    rintro ⟨rfl, hplace⟩
    rcases hf with ⟨ho, rfl⟩ | hapart
    · rcases hhandled with _ | ⟨hnot, -⟩
      exact hnot ⟨ho, _, hp⟩
    · exact hapart d hplace.symm
  · exact Disk.entry_file_kept h.2 (fun h => h) hp

/-- Harmless files in order; the induction is on the files, and the bytes are the invariant. -/
theorem exportFiles_kept {p : Pathname} {bytes : ByteArray} {files : List GeneratedFile}
    (x : Exported) (hf : ∀ f ∈ files, Harmless s p f) (hp : d.entry p = .ok (.file bytes)) :
    Meets (s.exportFiles files x) d (fun _ d' => d'.entry p = .ok (.file bytes))
      (fun _ d' => d'.entry p = .ok (.file bytes)) := by
  induction files generalizing x d with
  | nil => exact FileAction.meets_pure hp
  | cons f rest ih =>
    refine (exportOne_kept x (hf f List.mem_cons_self) hp).bind (fun x' d' _ h => ?_)
      fun _ _ _ h => h
    exact ih x' (fun g hg => hf g (List.mem_cons_of_mem _ hg)) h

/-- The further paths of an export keep the bytes of a path that they are apart from. -/
theorem Supports.kept {p : Pathname} {bytes : ByteArray} {paths failing : List String}
    {x x' : Exported} {d' : Disk} (h : s.Supports paths failing d x x' d')
    (hapart : ∀ path ∈ paths, Apart (s.pathOf path) p) (hp : d.entry p = .ok (.file bytes)) :
    d'.entry p = .ok (.file bytes) := by
  refine Disk.entry_file_kept h.edit ?_ hp
  rintro ⟨path, hpath, hplace⟩
  exact hapart path hpath d hplace.symm

/-- **One export** of harmless files keeps the bytes that a path reads, whether it succeeds or
not. -/
theorem exportFrom_kept {p : Pathname} {bytes : ByteArray} {files : List GeneratedFile}
    (x : Exported) (hf : ∀ f ∈ files, Harmless s p f)
    (hsupport : ∀ path ∈ s.supportPaths files, Apart (s.pathOf path) p)
    (hp : d.entry p = .ok (.file bytes)) :
    Meets (s.exportFrom files x) d (fun _ d' => d'.entry p = .ok (.file bytes))
      (fun _ d' => d'.entry p = .ok (.file bytes)) := by
  refine (exportFiles_kept x hf hp).bind (fun x₁ d₁ _ h₁ => ?_) fun _ _ _ h => h
  refine (ExportSettings.exportPackageJson_meets files x₁).bind (fun x₂ d₂ _ h => ?_)
    fun _ _ _ h => Disk.entry_file_kept h.2 (fun h => h) h₁
  have h₂ := Supports.kept h.2 (fun path hm => hsupport path (List.mem_append_left _ hm)) h₁
  refine (ExportSettings.exportManifest_meets x₂).mono (fun x₃ d₃ h => ?_)
    fun _ _ h => Disk.entry_file_kept h.2 (fun h => h) h₂
  exact Supports.kept h.2 (fun path hm => hsupport path (List.mem_append_right _ hm)) h₂

/-! ## 3. Several exports -/

/-- Any number of exports of the same files to the same directory, by new or used exporters, each
of which may fail. -/
inductive Runs (config : Config) (directory : Pathname) (files : List GeneratedFile) :
    Disk → Disk → Prop
  | refl (d : Disk) : Runs config directory files d d
  | done {d d' d'' : Disk} {s : ExportSettings} {x x' : Exported} (settings : s.config = config)
      (goes : s.directory = directory) (ends : s.exportFrom files x d = .ok x' d')
      (rest : Runs config directory files d' d'') : Runs config directory files d d''
  | failed {d d' d'' : Disk} {s : ExportSettings} {x : Exported} {fault : Fault}
      (settings : s.config = config) (goes : s.directory = directory)
      (ends : s.exportFrom files x d = .error fault d')
      (rest : Runs config directory files d' d'') : Runs config directory files d d''

/-- **Several exports** of harmless files keep the bytes that a path reads. -/
theorem Runs.kept {config : Config} {directory p : Pathname} {files : List GeneratedFile}
    {bytes : ByteArray} {d' : Disk} (h : Runs config directory files d d')
    (hf : ∀ s : ExportSettings, s.config = config → s.directory = directory →
      (∀ f ∈ files, Harmless s p f) ∧ ∀ path ∈ s.supportPaths files, Apart (s.pathOf path) p)
    (hp : d.entry p = .ok (.file bytes)) : d'.entry p = .ok (.file bytes) := by
  induction h with
  | refl d => exact hp
  | @done d d₁ d₂ s x x' hsettings hgoes hends _ ih =>
    obtain ⟨hharmless, hsupport⟩ := hf s hsettings hgoes
    exact ih ((exportFrom_kept x hharmless hsupport hp).of_ok hends)
  | @failed d d₁ d₂ s x fault hsettings hgoes hends _ ih =>
    obtain ⟨hharmless, hsupport⟩ := hf s hsettings hgoes
    exact ih ((exportFrom_kept x hharmless hsupport hp).of_error hends)

/-! ## 4. The files of a plan -/

variable {collection : Collection} {config : Config}

/-- The shared files that stand in the directory of the models. -/
def besideModels (config : Config) : List String :=
  match config.layout with
  | .flat => sharedFiles ++ ["index.ts"]
  | .package => ["index.ts"]

theorem modelRoute_models (h : config.modelsPath = "models") : modelRoute config = ["models"] := by
  rw [modelRoute, h]
  decide

/-- Only model files belong to the user. -/
theorem Origin.of_overwrite_eq_false {m : PlannedModule} (h : Origin collection config m)
    (hm : m.overwrite = false) :
    ∃ s ∈ visibleSchemas collection, m = planModel config (.ofConfig config) s := by
  cases h with
  | schemaEnum _ heq | pluginEnum _ heq =>
    obtain ⟨_, -, rfl⟩ := planEnum_eq_ok_iff.1 heq
    exact nomatch hm
  | @inline x _ _ heq =>
    rcases x with ⟨_, _, e⟩ | ⟨_, _, a⟩
    · obtain ⟨_, -, rfl⟩ := planEnum_eq_ok_iff.1 heq
      exact nomatch hm
    · cases heq
      exact nomatch hm
  | base _ => exact nomatch hm
  | model hmem => exact ⟨_, hmem, rfl⟩
  | rules _ _ => exact nomatch hm
  | common => exact nomatch hm
  | i18n => exact nomatch hm
  | index => exact nomatch hm

/-- The end of a place: its last directory and its name. -/
structure EndsIn (config : Config) (m : PlannedModule) (directory name : String) : Prop where
  names : ∃ init, placeNames config m = init ++ [directory, name]
  dots : ".." ∉ [directory, name]

theorem fileName_ne_dots (name : String) : ".." ≠ fileName name :=
  (fileName_ne (by decide)).symm

theorem dots_not_mem_pair {directory : String} (h : ".." ≠ directory) (name : String) :
    ".." ∉ [directory, fileName name] := by
  intro hm
  rcases List.mem_pair.1 hm with hm | hm
  · exact h hm
  · exact fileName_ne_dots name hm

theorem EndsIn.intro {m : PlannedModule} {directory name : String} {route : List String}
    (init : List String) (h : placeNames config m = route ++ [fileName name])
    (hroute : route = init ++ [directory]) (hdots : ".." ≠ directory) :
    EndsIn config m directory (fileName name) := by
  refine ⟨⟨init, ?_⟩, dots_not_mem_pair hdots name⟩
  rw [h, hroute, List.append_assoc]
  rfl

theorem enumRoute_endsIn (config : Config) (plugin : Bool) :
    ∃ init directory, enumRoute config plugin = init ++ [directory] ∧
      (directory = "enum" ∨ directory = "plugin") := by
  unfold enumRoute
  cases config.layout <;> cases plugin
  · exact ⟨_, _, rfl, .inl rfl⟩
  · exact ⟨modelRoute config ++ ["enum"], _, by rw [List.append_assoc]; rfl, .inr rfl⟩
  · exact ⟨_, _, rfl, .inl rfl⟩
  · exact ⟨_, _, rfl, .inl rfl⟩

/-- **Where a file goes that is overwritten**: not into the directory of the models, unless it is
one of the shared files there. -/
theorem Origin.endsIn {m : PlannedModule} (h : Origin collection config m)
    (hnames : PlainNames collection config) (hmodels : config.modelsPath = "models")
    (hm : m.overwrite = true) :
    ∃ directory name, EndsIn config m directory (fileName name) ∧
      (directory = "models" → fileName name ∈ besideModels config) := by
  have hmodel := modelRoute_models hmodels
  have henum : ∀ (name : String) (plugin : Bool),
      placeNames config m = enumRoute config plugin ++ [fileName name] →
      ∃ directory name, EndsIn config m directory (fileName name) ∧
        (directory = "models" → fileName name ∈ besideModels config) := by
    intro name plugin hplace
    obtain ⟨init, directory, hroute, hdir⟩ := enumRoute_endsIn config plugin
    refine ⟨directory, name, .intro init hplace hroute ?_, ?_⟩
    · rcases hdir with rfl | rfl <;> decide
    · rcases hdir with rfl | rfl <;> exact fun h => absurd h (by decide)
  have hshared : ∀ name, fileName name ∈ sharedFiles →
      placeNames config m = sharedRoute config ++ [fileName name] →
      ∃ directory name, EndsIn config m directory (fileName name) ∧
        (directory = "models" → fileName name ∈ besideModels config) := by
    intro name hname hplace
    cases hl : config.layout with
    | flat =>
      refine ⟨"models", name, .intro [] hplace ?_ (by decide), fun _ => ?_⟩
      · rw [sharedRoute, hl]
        exact hmodel
      · rw [besideModels, hl]
        exact List.mem_append_left _ hname
    | package =>
      refine ⟨"schemas", name, .intro (packageRoute config) hplace ?_ (by decide),
        fun h => absurd h (by decide)⟩
      rw [sharedRoute, hl]
  cases h with
  | schemaEnum hmem heq => exact henum _ _ (placeNames_enum (hnames.schemaEnum hmem).1.slash heq)
  | pluginEnum hmem heq => exact henum _ _ (placeNames_enum (hnames.pluginEnum hmem).1.slash heq)
  | inline hmem heq => exact henum _ _ (hnames.placeNames_inline hmem heq)
  | @base s hmem =>
    have hslash := (hnames.entity hmem).slash
    cases hl : config.layout with
    | flat =>
      refine ⟨"base", s.name, .intro (modelRoute config) (placeNames_base hslash) ?_ (by decide),
        fun h => absurd h (by decide)⟩
      rw [baseRoute, hl]
    | package =>
      refine ⟨"schemas", s.name,
        .intro (packageRoute config) (placeNames_base hslash) ?_ (by decide),
        fun h => absurd h (by decide)⟩
      rw [baseRoute, hl]
  | model _ => exact nomatch hm
  | @rules s _ hmem =>
    exact ⟨"rules", s.name ++ ".rules", ⟨⟨_, placeNames_rules (hnames.entity hmem).slash⟩,
      dots_not_mem_pair (by decide) _⟩, fun h => absurd h (by decide)⟩
  | common => exact hshared _ (by decide) placeNames_common
  | i18n => exact hshared _ (by decide) placeNames_i18n
  | index =>
    refine ⟨"models", "index", .intro [] placeNames_index hmodel (by decide), fun _ => ?_⟩
    unfold besideModels
    cases config.layout <;> decide

/-- The path of a file in a directory. -/
def pathIn (directory : Pathname) (config : Config) (f : GeneratedFile) : Pathname :=
  directory.child (Pathname.ofText (outputPath f config))

/-- **A model file whose name is not taken** has its place to itself. -/
theorem Origin.apart {m : PlannedModule} (h : Origin collection config m)
    (hnames : PlainNames collection config) (hmodels : config.modelsPath = "models")
    (hm : m.overwrite = true) (directory : Pathname) {s : Schema} {paths : ImportPaths}
    (hs : s ∈ visibleSchemas collection) (hfree : fileName s.name ∉ besideModels config) :
    Apart (pathIn directory config m.toFile)
      (pathIn directory config (planModel config paths s).toFile) := by
  obtain ⟨dir, name, ⟨⟨init, hplace⟩, hdots⟩, hbeside⟩ := h.endsIn hnames hmodels hm
  have hmodel : placeNames config (planModel config paths s)
      = [] ++ ["models", fileName s.name] := by
    rw [placeNames_model (hnames.entity hs).slash, modelRoute_models hmodels]
    rfl
  have hmodeldots : ".." ∉ ["models", fileName s.name] := dots_not_mem_pair (by decide) s.name
  by_cases hdir : dir = "models"
  · have hname : fileName name ≠ fileName s.name := fun he => hfree (he ▸ hbeside hdir)
    have hlast : placeNames config m = (init ++ [dir]) ++ [fileName name] :=
      hplace.trans (List.append_assoc init [dir] [fileName name]).symm
    have hmodelLast : placeNames config (planModel config paths s)
        = ["models"] ++ [fileName s.name] := hmodel
    exact apart_of_last directory hlast hmodelLast (fileName_ne_dots name).symm
      (fileName_ne_dots s.name).symm hname
  · exact apart_of_directory directory hplace hmodel hdots hmodeldots hdir

/-- The further paths of an export lead to no model file. -/
theorem apart_of_support (s : ExportSettings) (files : List GeneratedFile) {f : GeneratedFile}
    {init : List String} {name : String}
    (hf : (Pathname.ofText (outputPath f s.config)).names = init ++ [fileName name]) :
    ∀ path ∈ s.supportPaths files, Apart (s.pathOf path) (s.filePath f) := by
  have hjson : ∀ (path last : String) (init' : List String), (Pathname.ofText path).names
      = init' ++ [last] → last ≠ ".." → last.toList.getLast? ≠ some 's' →
      Apart (s.pathOf path) (s.filePath f) := by
    intro path last init' hnames hdots hlast
    exact apart_of_last s.directory hnames hf hdots (fileName_ne_dots name).symm
      (fileName_ne hlast).symm
  intro path hpath
  rcases List.mem_append.1 hpath with hpath | hpath
  · unfold ExportSettings.packagePaths at hpath
    split at hpath
    · rw [List.mem_singleton.1 hpath]
      exact hjson _ "package.json" _
        (names_join_directory _ (by decide) (by decide) (by decide)) (by decide) (by decide)
    · exact nomatch hpath
  · unfold ExportSettings.manifestPaths at hpath
    split at hpath
    · rw [List.mem_singleton.1 hpath]
      exact hjson _ manifestName [] (Pathname.names_single (by decide) (by decide) (by decide))
        (by decide) (by decide)
    · exact nomatch hpath

/-! ## 5. Names that are taken -/

/-- In the flat layout files that are no enumerations go to the models under their own path. -/
theorem placeOf_flat {path : String} {c : Category} {overwrite : Bool}
    (hl : config.layout = .flat) (hc : c = .base ∨ c = .schema) :
    placeOf config path c overwrite = Path.join config.modelsPath path := by
  unfold placeOf outputPath
  rw [hl]
  rcases hc with rfl | rfl <;> rfl

/-- A shared file at the place of a model file, with nothing behind it in the plan that goes to
that place. -/
structure Contender (directory : Pathname) (config : Config) (ms : List PlannedModule)
    (f : GeneratedFile) (m : PlannedModule) (after : List PlannedModule) : Prop where
  split : ∃ before, ms = before ++ m :: after
  overwrite : m.overwrite = true
  place : outputPath m.toFile config = outputPath f config
  last : ∀ m' ∈ after, Apart (pathIn directory config m'.toFile) (pathIn directory config f)

theorem outputPath_model {s : Schema} {paths : ImportPaths} :
    outputPath (planModel config paths s).toFile config
      = Path.join config.modelsPath (fileName s.name) := by
  rw [outputPath_toFile]
  exact placeOf_schema rfl

theorem outputPath_common {paths : ImportPaths} (hl : config.layout = .flat) :
    outputPath (planCommon config paths).toFile config
      = Path.join config.modelsPath "common.ts" := by
  rw [outputPath_toFile]
  exact placeOf_flat hl (sharedCategory_cases paths)

theorem outputPath_i18n {paths : ImportPaths} (hl : config.layout = .flat) :
    outputPath (planI18n config paths).toFile config = Path.join config.modelsPath "i18n.ts" := by
  rw [outputPath_toFile]
  exact placeOf_flat hl (sharedCategory_cases paths)

theorem outputPath_index {paths : ImportPaths} :
    outputPath (planIndex collection config paths).toFile config
      = Path.join config.modelsPath "index.ts" := by
  rw [outputPath_toFile]
  exact placeOf_schema (show (true && sharedFiles.contains "index.ts") = false by decide)

/-- Files of other names lead elsewhere than a model file. -/
theorem apart_of_name (directory : Pathname) {m : PlannedModule} {route : List String}
    {name : String} (hplace : placeNames config m = route ++ [fileName name]) {s : Schema}
    {paths : ImportPaths} (hs : '/' ∉ s.name.toList) (hne : fileName name ≠ fileName s.name) :
    Apart (pathIn directory config m.toFile)
      (pathIn directory config (planModel config paths s).toFile) :=
  apart_of_last directory hplace (placeNames_model hs) (fileName_ne_dots name).symm
    (fileName_ne_dots s.name).symm hne

/-- **A model file whose name is taken** has a contender. -/
theorem exists_contender {ms : List PlannedModule} (h : planModules collection config = .ok ms)
    (directory : Pathname) {s : Schema} (hs : '/' ∉ s.name.toList)
    (htaken : fileName s.name ∈ besideModels config) :
    ∃ m after, Contender directory config ms
      (planModel config (.ofConfig config) s).toFile m after := by
  obtain ⟨front, rfl⟩ : ∃ front, ms = front ++ [planCommon config (.ofConfig config),
      planI18n config (.ofConfig config), planIndex collection config (.ofConfig config)] := by
    obtain ⟨-, enums, -, -, hms⟩ := planModules_eq_ok_iff.1 h
    exact ⟨_, hms⟩
  have hindex : "index.ts" = fileName s.name → ∃ m after, Contender directory config
      (front ++ [planCommon config (.ofConfig config), planI18n config (.ofConfig config),
        planIndex collection config (.ofConfig config)])
      (planModel config (.ofConfig config) s).toFile m after := by
    intro hname
    refine ⟨planIndex collection config (.ofConfig config), [],
      ⟨front ++ [planCommon config (.ofConfig config), planI18n config (.ofConfig config)],
        by rw [List.append_assoc]; rfl⟩, rfl, ?_, fun _ hm => nomatch hm⟩
    rw [outputPath_index, outputPath_model, hname]
  cases hl : config.layout with
  | package =>
    rw [besideModels, hl] at htaken
    exact hindex (List.mem_singleton.1 htaken).symm
  | flat =>
    rw [besideModels, hl] at htaken
    have hcases : "common.ts" = fileName s.name ∨ "i18n.ts" = fileName s.name ∨
        "index.ts" = fileName s.name := by
      simpa [sharedFiles, eq_comm] using htaken
    rcases hcases with hname | hname | hname
    · refine ⟨planCommon config (.ofConfig config), _, ⟨front, rfl⟩, rfl, ?_, fun m' hm' => ?_⟩
      · rw [outputPath_common hl, outputPath_model, hname]
      · rcases List.mem_cons.1 hm' with rfl | hm'
        · exact apart_of_name directory placeNames_i18n hs (hname ▸ by decide)
        · rw [List.mem_singleton.1 hm']
          exact apart_of_name directory placeNames_index hs (hname ▸ by decide)
    · refine ⟨planI18n config (.ofConfig config), [planIndex collection config (.ofConfig config)],
        ⟨front ++ [planCommon config (.ofConfig config)], by rw [List.append_assoc]; rfl⟩, rfl, ?_,
        fun m' hm' => ?_⟩
      · rw [outputPath_i18n hl, outputPath_model, hname]
      · rw [List.mem_singleton.1 hm']
        exact apart_of_name directory placeNames_index hs (hname ▸ by decide)
    · exact hindex hname

/-- **A contender has the last word.**  After an export without failures the path of the model file
reads the content of the contender. -/
theorem Contender.replaces {directory : Pathname} {ms after : List PlannedModule}
    {f : GeneratedFile} {m : PlannedModule} (h : Contender directory config ms f m after)
    (hsettings : s.config = config) (hgoes : s.directory = directory)
    (hsupport : ∀ path ∈ s.supportPaths (ms.map PlannedModule.toFile),
      Apart (s.pathOf path) (s.filePath f))
    {x x' : Exported} {d' : Disk}
    (hends : s.exportFrom (ms.map PlannedModule.toFile) x d = .ok x' d')
    (hfailures : x'.failures = []) :
    d'.entry (s.filePath f) = .ok (.file m.toFile.content.toUTF8) := by
  subst hsettings hgoes
  obtain ⟨⟨before, rfl⟩, hover, hplace, hlast⟩ := h
  obtain ⟨-, es, d₁, hes, htrace, hsupports⟩ := (ExportSettings.exportFrom_meets _ x).of_ok hends
  rw [List.map_append, List.map_cons] at hes
  obtain ⟨es₁, es', rfl, -, hes'⟩ := List.map_eq_append_iff.1 hes
  obtain ⟨⟨g, o⟩, es₂, rfl, hg, hes₂⟩ := List.map_eq_cons_iff.1 hes'
  obtain rfl : g = m.toFile := hg
  obtain ⟨d₂, -, htail⟩ := htrace.split
  rcases htail with _ | @⟨_, d₃, _, _, _, _, hgo, hhandled, hrest⟩
  have hpath : s.filePath m.toFile = s.filePath f := by
    rw [ExportSettings.filePath, hplace, ExportSettings.filePath]
  have hwritten : d₃.entry (s.filePath f) = .ok (.file m.toFile.content.toUTF8) := by
    rcases hhandled with ⟨huser, -⟩ | ⟨-, ⟨-, hentry⟩ | ⟨-, -⟩⟩
    · exact nomatch hover.symm.trans huser
    · rw [← hpath]
      exact hentry
    · obtain ⟨more, hmore, -⟩ := hsupports.failures
      rw [hfailures] at hmore
      simp [ExportSettings.account, List.filterMap_append, List.filterMap_cons,
        ExportSettings.failure?] at hmore
  refine Supports.kept hsupports hsupport (Disk.entry_file_kept hrest.edit ?_ hwritten)
  rintro ⟨g, hg, hsame⟩
  have hmem : g ∈ after.map PlannedModule.toFile := hes₂ ▸ List.mem_map.2 ⟨_, hg, rfl⟩
  obtain ⟨m', hm', rfl⟩ := List.mem_map.1 hmem
  exact hlast m' hm' d₃ hsame.symm

/-- A model file depends on the name of its entity alone. -/
theorem planModel_congr {s s' : Schema} (paths : ImportPaths) (h : s'.name = s.name) :
    planModel config paths s' = planModel config paths s := by
  rw [planModel, planModel, h]

/-- **A file of the plan at the place of a model file** is that model file, or a shared file that
takes its name. -/
theorem Origin.eq_or_apart {m : PlannedModule} (h : Origin collection config m)
    (hnames : PlainNames collection config) (hmodels : config.modelsPath = "models")
    (directory : Pathname) {s : Schema} (hs : s ∈ visibleSchemas collection)
    (hfree : fileName s.name ∉ besideModels config) :
    m = planModel config (.ofConfig config) s ∨
      Apart (pathIn directory config m.toFile)
        (pathIn directory config (planModel config (.ofConfig config) s).toFile) := by
  cases hm : m.overwrite with
  | true => exact .inr (h.apart hnames hmodels hm directory hs hfree)
  | false =>
    obtain ⟨s', hs', rfl⟩ := h.of_overwrite_eq_false hm
    by_cases hname : s'.name = s.name
    · exact .inl (planModel_congr _ hname)
    · exact .inr (apart_of_name directory (placeNames_model (hnames.entity hs').slash)
        (hnames.entity hs).slash fun he => hname (fileName_inj he))

section ModelFile

variable {ms : List PlannedModule} {entity : Schema}

/-- A contender is another file of the plan. -/
theorem Contender.exists_file {directory : Pathname} {m : PlannedModule}
    {after : List PlannedModule} {f : GeneratedFile} (h : Contender directory config ms f m after)
    (huser : f.overwrite = false) : m.toFile ∈ ms.map PlannedModule.toFile ∧ m.toFile ≠ f := by
  obtain ⟨before, hsplit⟩ := h.split
  have hm : m ∈ ms := hsplit ▸ List.mem_append_right _ List.mem_cons_self
  refine ⟨List.mem_map.2 ⟨m, hm, rfl⟩, ?_⟩
  rintro rfl
  exact nomatch h.overwrite.symm.trans huser

/-- **Another file of the plan has the path of a model file** exactly if the name is taken. -/
theorem exists_same_path_iff (hnames : PlainNames collection config)
    (hmodels : config.modelsPath = "models") (hms : planModules collection config = .ok ms)
    (hentity : entity ∈ visibleSchemas collection) :
    (∃ g ∈ ms.map PlannedModule.toFile, g ≠ (planModel config (.ofConfig config) entity).toFile ∧
        outputPath g config
          = outputPath (planModel config (.ofConfig config) entity).toFile config) ↔
      fileName entity.name ∈ besideModels config := by
  constructor
  · rintro ⟨g, hg, hne, hplace⟩
    by_contra hfree
    obtain ⟨m, hm, rfl⟩ := List.mem_map.1 hg
    rcases ((mem_planModules_iff hms m).1 hm).eq_or_apart hnames hmodels default hentity hfree
      with rfl | hapart
    · exact hne rfl
    · exact hapart default (by rw [pathIn, hplace, pathIn])
  · intro htaken
    obtain ⟨m, after, hc⟩ := exists_contender hms default (hnames.entity hentity).slash htaken
    obtain ⟨hm, hne⟩ := hc.exists_file rfl
    exact ⟨m.toFile, hm, hne, hc.place⟩

/-- **A model file whose name is not taken** keeps its bytes. -/
theorem modelFile_kept (hnames : PlainNames collection config)
    (hmodels : config.modelsPath = "models") (hms : planModules collection config = .ok ms)
    (hentity : entity ∈ visibleSchemas collection)
    (hfree : fileName entity.name ∉ besideModels config) {directory : Pathname} {d d' : Disk}
    {bytes : ByteArray} (hruns : Runs config directory (ms.map PlannedModule.toFile) d d')
    (hentry : d.entry (pathIn directory config (planModel config (.ofConfig config) entity).toFile)
      = .ok (.file bytes)) :
    d'.entry (pathIn directory config (planModel config (.ofConfig config) entity).toFile)
      = .ok (.file bytes) := by
  refine hruns.kept (fun s hsettings hgoes => ?_) hentry
  subst hsettings hgoes
  refine ⟨fun g hg => ?_, apart_of_support s _ (placeNames_model (hnames.entity hentity).slash)⟩
  obtain ⟨m, hm, rfl⟩ := List.mem_map.1 hg
  rcases ((mem_planModules_iff hms m).1 hm).eq_or_apart hnames hmodels s.directory hentity hfree
    with rfl | hapart
  · exact .inl ⟨rfl, rfl⟩
  · exact .inr hapart

/-- **A model file whose name is taken** is replaced by every export without failures. -/
theorem modelFile_replaced (hnames : PlainNames collection config)
    (hms : planModules collection config = .ok ms)
    (hentity : entity ∈ visibleSchemas collection)
    (htaken : fileName entity.name ∈ besideModels config) (directory : Pathname) :
    ∃ g ∈ ms.map PlannedModule.toFile, g ≠ (planModel config (.ofConfig config) entity).toFile ∧
      ∀ s : ExportSettings, s.config = config → s.directory = directory →
      ∀ x d x' d', s.exportFrom (ms.map PlannedModule.toFile) x d = .ok x' d' →
        x'.failures = [] →
        d'.entry (pathIn directory config (planModel config (.ofConfig config) entity).toFile)
          = .ok (.file g.content.toUTF8) := by
  have hslash := (hnames.entity hentity).slash
  obtain ⟨m, after, hc⟩ := exists_contender hms directory hslash htaken
  obtain ⟨hm, hne⟩ := hc.exists_file rfl
  refine ⟨m.toFile, hm, hne, fun s hsettings hgoes x d x' d' hends hfailures => ?_⟩
  subst hsettings hgoes
  exact hc.replaces rfl rfl (apart_of_support s _ (placeNames_model hslash)) hends hfailures

end ModelFile

/-- **Files of the user are safe unless their names are taken.**  Where all names of types can name
files and the models are in their default directory, a model file of a plan

* shares its path with another file of the plan exactly if it has the name of one of the shared
  files beside the models;
* if it does not, then any number of exports keep the bytes that are there;
* if it does, then every export without failures replaces them. -/
theorem userFile_kept_iff {collection : Collection} {config : Config}
    {files : List GeneratedFile} (hnames : PlainNames collection config)
    (hmodels : config.modelsPath = "models") (hplan : plan collection config = .ok files)
    {f : GeneratedFile} (hf : f ∈ files) (huser : f.overwrite = false) (directory : Pathname) :
    ((∃ g ∈ files, g ≠ f ∧ outputPath g config = outputPath f config) ↔
        f.path ∈ besideModels config) ∧
      (f.path ∉ besideModels config → ∀ d d' bytes, Runs config directory files d d' →
        d.entry (pathIn directory config f) = .ok (.file bytes) →
        d'.entry (pathIn directory config f) = .ok (.file bytes)) ∧
      (f.path ∈ besideModels config → ∃ g ∈ files, g ≠ f ∧
        ∀ s : ExportSettings, s.config = config → s.directory = directory →
        ∀ x d x' d', s.exportFrom files x d = .ok x' d' → x'.failures = [] →
        d'.entry (pathIn directory config f) = .ok (.file g.content.toUTF8)) := by
  obtain ⟨ms, hms, rfl⟩ := plan_eq_ok_iff.1 hplan
  obtain ⟨m, hm, rfl⟩ := List.mem_map.1 hf
  obtain ⟨s, hs, rfl⟩ := ((mem_planModules_iff hms m).1 hm).of_overwrite_eq_false huser
  exact ⟨exists_same_path_iff hnames hmodels hms hs,
    fun hfree _ _ _ hruns hentry => modelFile_kept hnames hmodels hms hs hfree hruns hentry,
    fun htaken => modelFile_replaced hnames hms hs htaken directory⟩

/-- An entity with the name of the index. -/
def indexNamed : Collection := ⟨[{ name := "index" }]⟩

theorem plainNames_indexNamed : PlainNames indexNamed {} where
  schemas := by decide
  properties s hs e he := by
    rw [List.mem_singleton.1 hs] at he
    exact nomatch he
  plugins _ he := nomatch he

theorem planModules_indexNamed :
    planModules indexNamed {} = .ok (planEntities indexNamed {} (.ofConfig {})
      ++ [planCommon {} (.ofConfig {}), planI18n {} (.ofConfig {}),
          planIndex indexNamed {} (.ofConfig {})]) :=
  planModules_eq_ok_iff.2 ⟨by decide, [], rfl, rfl, rfl⟩

/-- The model file of that entity is in the plan, and its name is taken. -/
theorem modelFile_mem_plan_indexNamed : ∃ files, plan indexNamed {} = .ok files ∧
    (planModel {} (.ofConfig {}) { name := "index" }).toFile ∈ files := by
  refine ⟨_, plan_eq_ok_iff.2 ⟨_, planModules_indexNamed, rfl⟩, List.mem_map.2 ⟨_, ?_, rfl⟩⟩
  refine List.mem_append_left _ (mem_planEntities_iff.2 ⟨_, ?_, .inr (.inl rfl)⟩)
  exact List.mem_singleton_self _

theorem userFile_replaced_indexNamed :
    PlainNames indexNamed {} ∧ ∃ files f, plan indexNamed {} = .ok files ∧ f ∈ files ∧
      f.overwrite = false ∧ ∃ g ∈ files, g ≠ f ∧
        ∀ s : ExportSettings, s.config = {} → s.directory = default →
        ∀ x d x' d', s.exportFrom files x d = .ok x' d' → x'.failures = [] →
        d'.entry (pathIn default {} f) = .ok (.file g.content.toUTF8) := by
  obtain ⟨files, hplan, hf⟩ := modelFile_mem_plan_indexNamed
  refine ⟨plainNames_indexNamed, files, _, hplan, hf, rfl, ?_⟩
  exact (userFile_kept_iff plainNames_indexNamed rfl hplan hf rfl default).2.2 (by decide)

/-- **A file of the user shares its path with a file that is overwritten.** -/
theorem exists_overwritten_at_userFile :
    ∃ files f g, plan indexNamed {} = .ok files ∧ f ∈ files ∧ f.overwrite = false ∧
      g ∈ files ∧ g.overwrite = true ∧ outputPath g {} = outputPath f {} := by
  obtain ⟨files, hplan, hf⟩ := modelFile_mem_plan_indexNamed
  refine ⟨files, _, (planIndex indexNamed {} (.ofConfig {})).toFile, hplan, hf, rfl, ?_, rfl, ?_⟩
  · obtain ⟨ms, hms, rfl⟩ := plan_eq_ok_iff.1 hplan
    exact List.mem_map.2 ⟨_, (mem_planModules_iff hms _).2 .index, rfl⟩
  · rw [outputPath_index, outputPath_model]
    rfl

end SchemaTypes.Output
