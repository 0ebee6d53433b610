/-
# What one export does

An export is a run over its files with the description of the package and the manifest behind it.

* `Report`: the account that an export gives of itself, with what it left on the disk;
* `exportAll_exact`: an export gives such an account unless it halts, and it halts exactly where
  the question whether a file exists has no answer, or where a name that it has to create holds a
  null byte.
-/
import SchemaTypes.Proofs.Output.Handling
import SchemaTypes.Proofs.Output.Plan

namespace SchemaTypes.Output

open Disk (Edit Grows LaysOnly)
open FileAction (Meets MeetsNull Ready)

namespace ExportSettings

variable {s : ExportSettings} {d d' : Disk} {files : List GeneratedFile} {x : Exported}

/-! ## 1. The description of the package and the manifest -/

/-- Where the description of the package goes, if it is needed. -/
def packagePaths (s : ExportSettings) (files : List GeneratedFile) : List String :=
  if s.describesPackage files then [packageJsonPath s.config] else []

/-- Where the manifest goes, if it is asked for. -/
def manifestPaths (s : ExportSettings) : List String :=
  if s.withManifest then [manifestName] else []

/-- The paths that an export writes besides those of its files. -/
def supportPaths (s : ExportSettings) (files : List GeneratedFile) : List String :=
  s.packagePaths files ++ s.manifestPaths

/-- Between two states of an export some further paths were written, or could not be. -/
structure Supports (s : ExportSettings) (paths failing : List String) (d : Disk)
    (x x' : Exported) (d' : Disk) : Prop where
  records : ∃ more, x'.records = x.records ++ more ∧ ∀ r ∈ more, r.path ∈ paths
  skipped : x'.skipped = x.skipped
  failures : ∃ more, x'.failures = x.failures ++ more ∧ ∀ f ∈ more, f.path ∈ failing
  edit : Edit (fun l => ∃ path ∈ paths, l = d.target (s.pathOf path)) d d'

theorem Supports.refl (paths failing : List String) (d : Disk) (x : Exported) :
    s.Supports paths failing d x x d :=
  ⟨⟨[], by simp⟩, rfl, ⟨[], by simp⟩, .refl _ _⟩

theorem Supports.trans {paths paths' failing failing' : List String} {d' d'' : Disk}
    {x x' x'' : Exported} (h : s.Supports paths failing d x x' d')
    (h' : s.Supports paths' failing' d' x' x'' d'') :
    s.Supports (paths ++ paths') (failing ++ failing') d x x'' d'' := by
  obtain ⟨rs, hrs, hrp⟩ := h.records
  obtain ⟨rs', hrs', hrp'⟩ := h'.records
  obtain ⟨fs, hfs, hfp⟩ := h.failures
  obtain ⟨fs', hfs', hfp'⟩ := h'.failures
  refine ⟨⟨rs ++ rs', by rw [hrs', hrs, List.append_assoc], fun r hr => ?_⟩,
    h'.skipped.trans h.skipped, ⟨fs ++ fs', by rw [hfs', hfs, List.append_assoc], fun f hf => ?_⟩,
    (h.edit.mono ?_).trans (h'.edit.mono ?_)⟩
  · exact List.mem_append.2 ((List.mem_append.1 hr).imp (hrp r) (hrp' r))
  · exact List.mem_append.2 ((List.mem_append.1 hf).imp (hfp f) (hfp' f))
  · rintro l ⟨path, hp, hl⟩
    exact ⟨path, List.mem_append_left _ hp, hl⟩
  · rintro l ⟨path, hp, hl⟩
    exact ⟨path, List.mem_append_right _ hp, hl.trans (Disk.target_congr h.edit.directory _)⟩

/-- A path that was written is noted as a record. -/
theorem Supports.of_written {path content : String} {d' : Disk} (failing : List String)
    (x : Exported) (h : Wrote d (s.pathOf path) content .written d') :
    s.Supports [path] failing d x (x.addRecord (FileRecord.ofContent path content)) d' := by
  obtain ⟨hedit, -⟩ := h
  refine ⟨⟨_, rfl, fun r hr => ?_⟩, rfl, ⟨[], by simp [Exported.addRecord]⟩, hedit.mono ?_⟩
  · rw [List.mem_singleton.1 hr]
    exact List.mem_singleton_self path
  · intro l hl
    exact ⟨path, List.mem_singleton_self path, hl⟩

/-- The package is described, or a failure of that is noted. -/
theorem exportPackageJson_meets (files : List GeneratedFile) (x : Exported) :
    Meets (s.exportPackageJson files x) d
      (fun x' d' => ¬ (s.describesPackage files = true ∧
          MeetsNull d (s.pathOf (packageJsonPath s.config))) ∧
        s.Supports (s.packagePaths files) (s.packagePaths files) d x x' d')
      (fun _ d' => (s.describesPackage files = true ∧
        MeetsNull d (s.pathOf (packageJsonPath s.config))) ∧ Grows d d') := by
  unfold exportPackageJson packagePaths
  cases hd : s.describesPackage files with
  | false => exact FileAction.meets_pure ⟨fun h => (nomatch h.1), .refl _ _ _ _⟩
  | true =>
    simp only [if_true]
    refine (writeOne_meets _ _ x).mono (fun x' d' h => ?_) fun _ _ h => ⟨⟨trivial, h.1⟩, h.2⟩
    obtain ⟨hnull, o, hw, rfl⟩ := h
    refine ⟨fun h => hnull h.2, ?_⟩
    cases o with
    | written => exact .of_written _ x hw
    | skipped => exact nomatch hw
    | failed fault =>
      rcases hw with _ | ⟨-, hgrows⟩
      refine ⟨⟨[], by simp [Exported.note, Exported.addFailure]⟩, rfl, ⟨_, rfl, ?_⟩,
        hgrows.mono fun _ h => h.elim⟩
      intro f hf
      rw [List.mem_singleton.1 hf]
      exact List.mem_singleton_self _

/-- The manifest is written, or a warning says that it is not. -/
theorem exportManifest_meets (x : Exported) :
    Meets (s.exportManifest x) d
      (fun x' d' => ¬ (s.withManifest = true ∧ MeetsNull d (s.pathOf manifestName)) ∧
        s.Supports s.manifestPaths [] d x x' d')
      (fun _ d' => (s.withManifest = true ∧ MeetsNull d (s.pathOf manifestName)) ∧
        Grows d d') := by
  unfold exportManifest manifestPaths
  cases hm : s.withManifest with
  | false => exact FileAction.meets_pure ⟨fun h => (nomatch h.1), .refl _ _ _ _⟩
  | true =>
    simp only [if_true]
    refine (writeNoted_meets _ _ _ x).mono (fun x' d' h => ?_)
      fun _ _ h => ⟨⟨trivial, h.1⟩, h.2⟩
    obtain ⟨hnull, h⟩ := h
    refine ⟨fun h => hnull h.2, ?_⟩
    rcases h with ⟨hw, rfl⟩ | ⟨fault, _ | ⟨-, hgrows⟩, rfl⟩
    · exact .of_written _ x hw
    · exact ⟨⟨[], by simp [Exported.addWarning]⟩, rfl, ⟨[], by simp [Exported.addWarning]⟩,
        hgrows.mono fun _ h => h.elim⟩

/-- What is put where by the description of the package. -/
def packageLaid (s : ExportSettings) (files : List GeneratedFile) (d : Disk) :
    List (Location × String) :=
  if s.describesPackage files then
    [(d.target (s.pathOf (packageJsonPath s.config)), packageJson s.config)]
  else []

/-- The record of the description of the package. -/
def packageRecords (s : ExportSettings) (files : List GeneratedFile) : List FileRecord :=
  if s.describesPackage files then
    [FileRecord.ofContent (packageJsonPath s.config) (packageJson s.config)]
  else []

theorem packageLaid_congr (h : d'.directory = d.directory) (files : List GeneratedFile) :
    s.packageLaid files d' = s.packageLaid files d := by
  rw [packageLaid, packageLaid, Disk.target_congr h]

/-- **The package is described**, if there is need of it, where its place is ready. -/
theorem exportPackageJson_of_ready
    (h : s.describesPackage files = true →
      Ready d (s.pathOf (packageJsonPath s.config)) s.atomic)
    (x : Exported) :
    ∃ d', s.exportPackageJson files x d
        = .ok { x with records := x.records ++ s.packageRecords files } d' ∧
      LaysOnly (s.packageLaid files d) d d' := by
  unfold exportPackageJson packageLaid packageRecords
  cases hp : s.describesPackage files with
  | true => exact writeOne_of_ready (h hp) (packageJson s.config) x
  | false =>
    refine ⟨d, ?_, .nil d⟩
    simp only [Bool.false_eq_true, if_false, List.append_nil]
    rfl

/-- The manifest is written where it is asked for and its place is ready. -/
theorem exportManifest_of_ready (hmanifest : s.withManifest = true)
    (h : Ready d (s.pathOf manifestName) s.atomic) (x : Exported) :
    ∃ d', s.exportManifest x d = .ok (x.addRecord
        (FileRecord.ofContent manifestName ((x.manifest s).json (.indented 2)))) d' := by
  unfold exportManifest
  rw [if_pos hmanifest]
  obtain ⟨d', hd', -⟩ := writeNoted_of_ready h ((x.manifest s).json (.indented 2))
    (fun x f => x.addWarning ("Could not write manifest: " ++ f.text)) x
  exact ⟨d', hd'⟩

/-! ## 2. The whole export -/

/-- An export ends without an account: it stops at a file, or one of the further names that it has
to create holds a null byte. -/
def Halts (s : ExportSettings) (files : List GeneratedFile) (x : Exported) (d : Disk) : Prop :=
  (∃ before f after x' d', files = before ++ f :: after ∧
    s.exportFiles before x d = .ok x' d' ∧ s.Stops d' f) ∨
  (∃ x' d', s.exportFiles files x d = .ok x' d' ∧ s.describesPackage files = true ∧
    MeetsNull d' (s.pathOf (packageJsonPath s.config))) ∨
  ∃ x' d' x'' d'', s.exportFiles files x d = .ok x' d' ∧
    s.exportPackageJson files x' d' = .ok x'' d'' ∧ s.withManifest = true ∧
    MeetsNull d'' (s.pathOf manifestName)

/-- An export is its files, the description of the package and the manifest, one after the
other. -/
theorem exportAll_of_steps {x₁ x₂ x₃ : Exported} {d₁ d₂ d₃ : Disk}
    (hfiles : s.exportFiles files {} d = .ok x₁ d₁)
    (hpackage : s.exportPackageJson files x₁ d₁ = .ok x₂ d₂)
    (hmanifest : s.exportManifest x₂ d₂ = .ok x₃ d₃) : s.exportAll files d = .ok x₃ d₃ := by
  unfold exportAll exportFrom
  rw [bind_of_ok hfiles, bind_of_ok hpackage]
  exact hmanifest

/-- **A whole export**: a run over the files, and the further paths behind it. -/
theorem exportFrom_meets (files : List GeneratedFile) (x : Exported) :
    Meets (s.exportFrom files x) d
      (fun x' d' => ¬ s.Halts files x d ∧
        ∃ es d₁, es.map (·.1) = files ∧ s.Trace d es d₁ ∧
          s.Supports (s.supportPaths files) (s.packagePaths files) d₁ (s.account x es) x' d')
      (fun _ _ => s.Halts files x d) := by
  refine (exportFiles_meets files x).bind (fun x₁ d₁ hfiles h => ?_) fun _ _ _ h => .inl h
  obtain ⟨es, hes, htrace, hx₁⟩ := h
  refine (exportPackageJson_meets files x₁).bind (fun x₂ d₂ hpackage h => ?_)
    fun _ _ _ h => .inr (.inl ⟨x₁, d₁, hfiles, h.1⟩)
  obtain ⟨hnopackage, hsupports⟩ := h
  refine (exportManifest_meets x₂).mono (fun x₃ d₃ h => ⟨?_, es, d₁, hes, htrace, ?_⟩)
    fun _ _ h => .inr (.inr ⟨x₁, d₁, x₂, d₂, hfiles, hpackage, h.1⟩)
  · rintro (hstops | ⟨x', d', hf, hnull⟩ | ⟨x', d', x'', d'', hf, hp, hnull⟩)
    · obtain ⟨fault, d', hf⟩ := exportFiles_error_iff.2 hstops
      exact nomatch hfiles.symm.trans hf
    · cases hfiles.symm.trans hf
      exact hnopackage hnull
    · cases hfiles.symm.trans hf
      cases hpackage.symm.trans hp
      exact h.1 hnull
  · have := hsupports.trans h.2
    rwa [List.append_nil, hx₁] at this

/-- No run goes on at a file at which it stops whatever was done before. -/
theorem Trace.goesOn {es : List (GeneratedFile × Outcome)} {d' : Disk} (h : s.Trace d es d')
    {f : GeneratedFile} {o : Outcome} (hf : (f, o) ∈ es) :
    ∃ d₁, Edit (fun _ => True) d d₁ ∧ ¬ s.Stops d₁ f := by
  induction h with
  | nil d => exact nomatch hf
  | @cons d d₁ d' g o' es hgo hh _ ih =>
    rcases List.mem_cons.1 hf with heq | hf
    · cases heq
      exact ⟨d, .refl _ d, hgo⟩
    · obtain ⟨d₂, hedit, hnot⟩ := ih hf
      exact ⟨d₂, (hh.edit.mono fun _ _ => trivial).trans hedit, hnot⟩

/-- **An export halts** if it stops at a file whatever it has done before. -/
theorem halts_of_stops {files : List GeneratedFile} {f : GeneratedFile} (hf : f ∈ files)
    (hstops : ∀ d₁, Edit (fun _ => True) d d₁ → s.Stops d₁ f) (x : Exported) :
    s.Halts files x d := by
  rcases exportFrom_meets (s := s) (d := d) files x with ⟨-, -, es, d₁, hes, htrace, -⟩ | ⟨-, h⟩
  · rw [← hes] at hf
    obtain ⟨⟨_, o⟩, hmem, rfl⟩ := List.mem_map.1 hf
    obtain ⟨d₂, hedit, hnot⟩ := htrace.goesOn hmem
    exact absurd (hstops d₂ hedit) hnot
  · exact h

/-- No two files of an export have one place, and none has the place of a further path. -/
structure Separate (s : ExportSettings) (files : List GeneratedFile) (d : Disk) : Prop where
  apart : (files.map fun f => d.target (s.filePath f)).Nodup
  support : ∀ f ∈ files, ∀ path ∈ s.supportPaths files,
    d.target (s.filePath f) ≠ d.target (s.pathOf path)

/-- **The account of an export** over the files of `es`, and what it leaves on the disk. -/
structure Report (s : ExportSettings) (es : List (GeneratedFile × Outcome)) (d : Disk)
    (x : Exported) (d' : Disk) : Prop where
  /-- Each file is handled in its turn: skipped if it is one of the user and exists by then. -/
  trace : ∃ d₁, s.Trace d es d₁
  /-- A file of the user that exists at the start is skipped. -/
  skips : ∀ f o, (f, o) ∈ es → s.Leaves d f → o = .skipped
  /-- A skipped file is one of the user, and if nothing stood at its place at the start then the
  export has made a directory there. -/
  skipped_only : ∀ f, (f, .skipped) ∈ es → f.overwrite = false ∧
    (d.standing (d.target (s.filePath f)) = .nothing →
      d'.standing (d.target (s.filePath f)) = .directory)
  /-- A written file holds its content. -/
  written : ∀ f, (f, .written) ∈ es →
    d'.entry (s.filePath f) = .ok (.file f.content.toUTF8)
  /-- A file that is skipped or cannot be written keeps the bytes that it had. -/
  kept : ∀ f o, (f, o) ∈ es → o ≠ .written → ∀ bytes,
    d.entry (s.filePath f) = .ok (.file bytes) → d'.entry (s.filePath f) = .ok (.file bytes)
  /-- Nothing else has changed but for new directories. -/
  frame : Edit (fun l => (∃ f, (f, .written) ∈ es ∧ l = d.target (s.filePath f)) ∨
    ∃ path ∈ s.supportPaths (es.map (·.1)), l = d.target (s.pathOf path)) d d'
  /-- The records are those of the written files in order, then those of further paths. -/
  records : ∃ more, x.records = es.filterMap s.record? ++ more ∧
    ∀ r ∈ more, r.path ∈ s.supportPaths (es.map (·.1))
  skipped : x.skipped = es.filterMap s.skipped?
  /-- The failures are those of files in order, then one of the description of the package. -/
  failures : ∃ more, x.failures = es.filterMap s.failure? ++ more ∧
    ∀ f ∈ more, f.path ∈ s.packagePaths (es.map (·.1))
  totals : (x.manifest s).files = x.records ∧ (x.manifest s).totalFiles = x.records.length ∧
    (x.manifest s).totalBytes = (x.records.map (·.sizeBytes)).sum ∧
    (x.manifest s).totalLines = (x.records.map (·.lineCount)).sum
  success : x.isSuccess = true ↔ x.failures = []

/-- Adding up one by one. -/
theorem foldl_eq_sum {α : Type} (f : α → Nat) (xs : List α) :
    xs.foldl (fun n x => n + f x) 0 = (xs.map f).sum := by
  rw [List.sum_eq_foldl, List.foldl_map]

/-- **A run over files with places of their own**, with the further paths behind it, leaves what
the account says. -/
theorem Report.of_trace {es : List (GeneratedFile × Outcome)} {d₁ d' : Disk} {x : Exported}
    (hs : s.Separate (es.map (·.1)) d) (htrace : s.Trace d es d₁)
    (hsupports : s.Supports (s.supportPaths (es.map (·.1))) (s.packagePaths (es.map (·.1))) d₁
      (s.account {} es) x d') : s.Report es d x d' := by
  have hcongr : ∀ p, d₁.target p = d.target p := Disk.target_congr htrace.edit.directory
  have hplaces : (es.map fun e => d.target (s.filePath e.1)).Nodup := by
    have := hs.apart
    rwa [List.map_map] at this
  have hfar : ∀ f o, (f, o) ∈ es → ¬ ∃ path ∈ s.supportPaths (es.map (·.1)),
      d₁.target (s.filePath f) = d₁.target (s.pathOf path) := by
    rintro f o hf ⟨path, hp, heq⟩
    rw [hcongr, hcongr] at heq
    exact hs.support f (List.mem_map.2 ⟨_, hf, rfl⟩) path hp heq
  have hframe : Edit (fun l => (∃ f, (f, .written) ∈ es ∧ l = d.target (s.filePath f)) ∨
      ∃ path ∈ s.supportPaths (es.map (·.1)), l = d.target (s.pathOf path)) d d' := by
    refine (htrace.edit.mono fun l h => .inl h).trans (hsupports.edit.mono ?_)
    rintro l ⟨path, hp, hl⟩
    exact .inr ⟨path, hp, hl.trans (hcongr _)⟩
  -- a file that is not written has a place that the frame leaves alone
  have hkept : ∀ f o, (f, o) ∈ es → o ≠ .written → ¬ ((∃ g, (g, .written) ∈ es ∧
      d.target (s.filePath f) = d.target (s.filePath g)) ∨
      ∃ path ∈ s.supportPaths (es.map (·.1)),
        d.target (s.filePath f) = d.target (s.pathOf path)) := by
    rintro f o hf ho (⟨g, hg, heq⟩ | ⟨path, hp, heq⟩)
    · cases List.inj_on_of_nodup_map hplaces hf hg heq
      exact ho rfl
    · exact hfar f o hf ⟨path, hp, by rw [hcongr, hcongr, heq]⟩
  refine
    { trace := ⟨d₁, htrace⟩
      skips := fun f o hf hl => htrace.eq_skipped hf hl
      skipped_only := fun f hf => ?_
      written := fun f hf => ?_
      kept := fun f o hf ho _ he => Disk.entry_file_kept hframe (hkept f o hf ho) he
      frame := hframe
      records := by simpa [account] using hsupports.records
      skipped := by simpa [account] using hsupports.skipped
      failures := by simpa [account] using hsupports.failures
      totals := ⟨rfl, rfl, foldl_eq_sum _ _, foldl_eq_sum _ _⟩
      success := List.isEmpty_iff }
  · obtain ⟨ho, hstands⟩ := htrace.of_skipped hf
    refine ⟨ho, fun hnothing => ?_⟩
    rcases hframe.frame _ (hkept f _ hf Outcome.noConfusion) with heq | ⟨-, hdir⟩
    · exact absurd (heq.trans hnothing) (hsupports.edit.ne_nothing hstands)
    · exact hdir
  · exact Disk.entry_file_kept hsupports.edit (hfar f _ hf) (htrace.entry_of_written hplaces hf)

/-- **An export is exact.**  Over files with places of their own it either halts, or it gives an
account in which each file is written, skipped or failed, in the order of the plan. -/
theorem exportAll_exact (s : ExportSettings) (files : List GeneratedFile) (d : Disk)
    (hs : s.Separate files d) :
    ((∃ fault d', s.exportAll files d = .error fault d') ↔ s.Halts files {} d) ∧
      ∀ x d', s.exportAll files d = .ok x d' →
        ∃ es, es.map (·.1) = files ∧ s.Report es d x d' := by
  have hmeets := exportFrom_meets (s := s) (d := d) files {}
  refine ⟨⟨fun ⟨_, _, h⟩ => hmeets.of_error h, fun h => ?_⟩, fun x d' h => ?_⟩
  · rcases hmeets with ⟨-, hnot, -⟩ | ⟨hends, -⟩
    · exact absurd h hnot
    · exact ⟨_, _, hends⟩
  · obtain ⟨-, es, d₁, rfl, htrace, hsupports⟩ := hmeets.of_ok h
    exact ⟨es, rfl, .of_trace hs htrace hsupports⟩

/-! ## 3. An export of two entities -/

/-- Settings of an export in the package layout to the root directory. -/
def toPackages (withManifest : Bool) : ExportSettings :=
  { config := { layout := .package }, directory := ⟨"/", []⟩, withManifest }

/-- A collection of two entities. -/
def twoEntities : Collection := ⟨[{ name := "User" }, { name := "Post" }]⟩

/-- The file of one of them in the package. -/
def entityBase (name : String) : GeneratedFile :=
  let config := (toPackages true).config
  (planBase twoEntities config (.ofConfig config) { name }).toFile

/-- The model file of one of them. -/
def entityModel (name : String) : GeneratedFile :=
  let config := (toPackages true).config
  (planModel config (.ofConfig config) { name }).toFile

/-- The two shared files of their plan. -/
def twoShared : List GeneratedFile :=
  let config := (toPackages true).config
  [(planCommon config (.ofConfig config)).toFile, (planI18n config (.ofConfig config)).toFile]

/-- The files of their plan without the index, and what an export does with them where the model of
one is there. -/
def twoOutcomes : List (GeneratedFile × Outcome) :=
  [(entityBase "User", .written), (entityBase "Post", .written), (entityModel "User", .skipped),
    (entityModel "Post", .written)] ++ twoShared.map (·, .written)

/-- The index of their plan. -/
def indexFile : GeneratedFile :=
  let config := (toPackages true).config
  (planIndex twoEntities config (.ofConfig config)).toFile

/-- The files of their plan. -/
def twoFiles : List GeneratedFile := twoOutcomes.map (·.1) ++ [indexFile]

theorem plan_twoEntities : plan twoEntities (toPackages true).config = .ok twoFiles :=
  plan_eq_ok_iff.2 ⟨_, planModules_eq_ok_iff.2 ⟨by decide, [], rfl, rfl, rfl⟩, rfl⟩

/-- A disk with an earlier export and a model of the user; `index` stands at the place of the
index. -/
def workspace (index : Entry) : Disk :=
  ⟨.directory
    [("models", .directory [("User.ts", .file "mine".toUTF8), ("index.ts", index)]),
     ("node_modules", .directory [("@schema-base", .directory
       [("schemas", .directory []), ("package.json", .file "old".toUTF8)])]),
     (manifestName, .file "old".toUTF8)], []⟩

/-- The names of a file in the package. -/
def inPackage (name : String) : List String := ["node_modules", "@schema-base", "schemas", name]

theorem filePath_twoFiles (b : Bool) : twoFiles.map (toPackages b).filePath =
    [⟨"/", inPackage "User.ts"⟩, ⟨"/", inPackage "Post.ts"⟩, ⟨"/", ["models", "User.ts"]⟩,
     ⟨"/", ["models", "Post.ts"]⟩, ⟨"/", inPackage "common.ts"⟩, ⟨"/", inPackage "i18n.ts"⟩,
     ⟨"/", ["models", "index.ts"]⟩] := by
  cases b <;> decide +kernel

theorem pathOf_supportPaths :
    ((toPackages true).supportPaths twoFiles).map (toPackages true).pathOf =
      [⟨"/", ["node_modules", "@schema-base", "package.json"]⟩, ⟨"/", [manifestName]⟩] := by
  decide +kernel

theorem pathOf_manifestName (b : Bool) :
    (toPackages b).pathOf manifestName = ⟨"/", [manifestName]⟩ := by
  cases b <;> decide +kernel

theorem pathOf_packageJsonPath (b : Bool) :
    (toPackages b).pathOf (packageJsonPath (toPackages b).config)
      = ⟨"/", ["node_modules", "@schema-base", "package.json"]⟩ := by
  cases b <;> decide +kernel

theorem target_absolute (d : Disk) (names : List String) :
    d.target ⟨"/", names⟩ = Location.walk [] names := rfl

theorem target_twoFiles (b : Bool) (d : Disk) :
    twoFiles.map (fun f => d.target ((toPackages b).filePath f)) =
      [inPackage "User.ts", inPackage "Post.ts", ["models", "User.ts"], ["models", "Post.ts"],
       inPackage "common.ts", inPackage "i18n.ts", ["models", "index.ts"]] := by
  have h := congrArg (List.map d.target) (filePath_twoFiles b)
  rw [List.map_map] at h
  exact h.trans rfl

/-- Every path of the plan and behind it can be written on the workspace, but for the index. -/
theorem ready_workspace (index : Entry) : ∀ p ∈ ([
    ⟨"/", inPackage "User.ts"⟩, ⟨"/", inPackage "Post.ts"⟩, ⟨"/", ["models", "Post.ts"]⟩,
    ⟨"/", inPackage "common.ts"⟩, ⟨"/", inPackage "i18n.ts"⟩,
    ⟨"/", ["node_modules", "@schema-base", "package.json"]⟩,
    ⟨"/", [manifestName]⟩] : List Pathname),
    Ready (workspace index) p true := by
  simp only [List.forall_mem_cons, List.not_mem_nil, false_implies, implies_true, and_true]
  refine ⟨?_, ?_, ?_, ?_, ?_, ?_, ?_⟩ <;> exact ⟨rfl, (fun h => nomatch h), by decide⟩

theorem foreseen_twoOutcomes (b : Bool) (index : Entry) :
    ∀ f o, (f, o) ∈ twoOutcomes → (toPackages b).Foreseen (workspace index) (f, o) := by
  have hpaths := filePath_twoFiles b
  have hready := ready_workspace index
  simp only [twoFiles, twoOutcomes, twoShared, List.map_cons, List.map_nil, List.cons_append,
    List.nil_append, List.cons.injEq] at hpaths
  simp only [List.forall_mem_cons, List.not_mem_nil, false_implies, implies_true, and_true]
    at hready
  obtain ⟨hu, hp, hmu, hmp, hc, hi, -⟩ := hpaths
  obtain ⟨hru, hrp, hrm, hrc, hri, -⟩ := hready
  intro f o h
  simp only [twoOutcomes, twoShared, List.map_cons, List.map_nil, List.cons_append,
    List.nil_append, List.mem_cons, Prod.mk.injEq, List.not_mem_nil, or_false] at h
  rcases h with ⟨rfl, rfl⟩ | ⟨rfl, rfl⟩ | ⟨rfl, rfl⟩ | ⟨rfl, rfl⟩ | ⟨rfl, rfl⟩ | ⟨rfl, rfl⟩
  · exact .written (hu ▸ hru) (.inl rfl)
  · exact .written (hp ▸ hrp) (.inl rfl)
  · exact .skipped ⟨rfl, .file "mine".toUTF8, by rw [hmu]; rfl⟩
  · exact .written (hmp ▸ hrm) (.inr (hmp ▸ rfl))
  · exact .written (hc ▸ hrc) (.inl rfl)
  · exact .written (hi ▸ hri) (.inl rfl)

/-- The files before the index are written or skipped as foreseen. -/
theorem exportFiles_twoOutcomes (b : Bool) (index : Entry) :
    ∃ d', (toPackages b).exportFiles (twoOutcomes.map (·.1)) {} (workspace index)
        = .ok ((toPackages b).account {} twoOutcomes) d' ∧
      LaysOnly ((toPackages b).laid (workspace index) twoOutcomes) (workspace index) d' := by
  refine exportFiles_foreseen (foreseen_twoOutcomes b index) (spaced_of_nodup ?_) {}
  have hnodup : (twoFiles.map fun f =>
      (workspace index).target ((toPackages b).filePath f)).Nodup := by
    rw [target_twoFiles]
    decide
  rw [twoFiles, List.map_append, List.map_map] at hnodup
  exact (List.nodup_append.1 hnodup).1

theorem separate_twoFiles (d : Disk) : (toPackages true).Separate twoFiles d := by
  refine ⟨?_, fun f hf path hp heq => ?_⟩
  · rw [target_twoFiles]
    decide
  · have hfile : d.target ((toPackages true).filePath f) ∈
        twoFiles.map (fun f => d.target ((toPackages true).filePath f)) :=
      List.mem_map_of_mem hf
    have hpath : (toPackages true).pathOf path ∈
        ((toPackages true).supportPaths twoFiles).map (toPackages true).pathOf :=
      List.mem_map_of_mem hp
    rw [target_twoFiles, heq] at hfile
    rw [pathOf_supportPaths] at hpath
    revert hfile
    rcases List.mem_pair.1 hpath with h | h <;> rw [h, target_absolute] <;> decide

/-- A directory at the place of the index keeps it from being written, and nothing else. -/
theorem exportFiles_twoFiles : ∃ fault d',
    (toPackages true).exportFiles twoFiles {} (workspace (.directory []))
        = .ok (((toPackages true).account {} twoOutcomes).addFailure
            ⟨outputPath indexFile (toPackages true).config, fault⟩) d' ∧
      ∀ p, Ready (workspace (.directory [])) p true →
        (workspace (.directory [])).standing ((workspace (.directory [])).target p) ≠ .nothing →
          Ready d' p true := by
  have hpath : (toPackages true).filePath indexFile = ⟨"/", ["models", "index.ts"]⟩ := by
    decide +kernel
  obtain ⟨d₁, hrun, hlays⟩ := exportFiles_twoOutcomes true (.directory [])
  have hstands : (workspace (.directory [])).standing ["models", "index.ts"] = .directory := rfl
  have hdirectory : d₁.standing (d₁.target ((toPackages true).filePath indexFile))
      = .directory := by
    rw [hpath, target_absolute]
    exact hlays.edit.directories hstands
  obtain ⟨fault, d₂, hindex, hgrows⟩ := exportOne_of_directory (s := toPackages true)
    (f := indexFile) rfl (by rw [hpath]; decide) hdirectory
    ((toPackages true).account {} twoOutcomes)
  refine ⟨fault, d₂, ?_, fun p hready hthere => ?_⟩
  · rw [twoFiles, exportFiles_append _ _ _ hrun, exportFiles, bind_of_ok hindex]
    rfl
  · have hthere₁ := hlays.edit.ne_nothing hthere
    rw [← Disk.target_congr hlays.edit.directory] at hthere₁
    exact (hready.of_lays hlays).kept hgrows hthere₁

/-- Where the files are written that are, and which one is skipped. -/
theorem paths_twoOutcomes :
    ((toPackages true).account {} twoOutcomes).records.map (·.path)
        ++ (((toPackages true).packageRecords twoFiles).map (·.path) ++ [manifestName]) =
      ["node_modules/@schema-base/schemas/User.ts", "node_modules/@schema-base/schemas/Post.ts",
       "models/Post.ts", "node_modules/@schema-base/schemas/common.ts",
       "node_modules/@schema-base/schemas/i18n.ts", "node_modules/@schema-base/package.json",
       ".typegen-manifest.json"] ∧
      ((toPackages true).account {} twoOutcomes).skipped = ["models/User.ts"] ∧
      ((toPackages true).account {} twoOutcomes).failures.map (·.path)
        ++ [outputPath indexFile (toPackages true).config] = ["models/index.ts"] := by
  decide +kernel

theorem exportAll_exact_twoEntities :
    plan twoEntities (toPackages true).config = .ok twoFiles ∧
      (toPackages true).Separate twoFiles (workspace (.directory [])) ∧
      ∃ x d', (toPackages true).exportAll twoFiles (workspace (.directory [])) = .ok x d' ∧
        x.records.map (·.path) =
          ["node_modules/@schema-base/schemas/User.ts", "node_modules/@schema-base/schemas/Post.ts",
           "models/Post.ts", "node_modules/@schema-base/schemas/common.ts",
           "node_modules/@schema-base/schemas/i18n.ts", "node_modules/@schema-base/package.json",
           ".typegen-manifest.json"] ∧
        x.skipped = ["models/User.ts"] ∧ x.failures.map (·.path) = ["models/index.ts"] ∧
        ∃ es, es.map (·.1) = twoFiles ∧
          (toPackages true).Report es (workspace (.directory [])) x d' := by
  have hready := ready_workspace (.directory [])
  simp only [List.forall_mem_cons] at hready
  obtain ⟨-, -, -, -, -, hpackage, hmanifest, -⟩ := hready
  obtain ⟨hrecords, hskipped, hfailures⟩ := paths_twoOutcomes
  obtain ⟨fault, d₁, hfiles, hstays⟩ := exportFiles_twoFiles
  have hpackage₁ : Ready d₁ ((toPackages true).pathOf
      (packageJsonPath (toPackages true).config)) true := by
    rw [pathOf_packageJsonPath]
    exact hstays _ hpackage fun h => nomatch h
  obtain ⟨d₂, hdescribed, hlays⟩ := exportPackageJson_of_ready (fun _ => hpackage₁) _
  have hmanifest₂ : Ready d₂ ((toPackages true).pathOf manifestName) true := by
    rw [pathOf_manifestName]
    exact (hstays _ hmanifest fun h => nomatch h).of_lays hlays
  obtain ⟨d₃, hlisted⟩ := exportManifest_of_ready rfl hmanifest₂ _
  have hends := exportAll_of_steps hfiles hdescribed hlisted
  have hseparate := separate_twoFiles (workspace (.directory []))
  refine ⟨plan_twoEntities, hseparate, _, d₃, hends, ?_, hskipped, ?_,
    (exportAll_exact (toPackages true) twoFiles _ hseparate).2 _ _ hends⟩
  · rw [← hrecords, ← List.append_assoc, ← List.map_append]
    exact List.map_append
  · rw [← hfailures]
    exact List.map_append

/-! ## 4. Names that are too long -/

/-- Settings of an export to the root directory. -/
def toRoot : ExportSettings := { config := {}, directory := ⟨"/", []⟩ }

/-- A disk with one file among the models. -/
def oneModel : Disk :=
  ⟨.directory [("models", .directory [("User.ts", .file "mine".toUTF8)])], []⟩

/-- A model file of a name. -/
def modelOf (name : String) : GeneratedFile := { path := name, content := "", overwrite := false }

variable {name : String}

theorem filePath_modelOf (hslash : '/' ∉ name.toList) (hlong : longestName < name.utf8ByteSize) :
    toRoot.filePath (modelOf name) = ⟨"/", ["models", name]⟩ := by
  have hshort : ∀ other : String, other.utf8ByteSize ≤ longestName → name ≠ other := by
    rintro other h rfl
    exact absurd hlong (Nat.not_lt.2 h)
  have hrelative := Path.isAbsolute_of_not_mem hslash
  have hnames : (Pathname.ofText (Path.join "models" name)).names = ["models", name] := by
    rw [Pathname.names_join "models" hrelative,
      Pathname.names_single hslash (hshort "" (by decide)) (hshort "." (by decide))]
    rfl
  have hroot : (Pathname.ofText (Path.join "models" name)).root = "" :=
    Pathname.root_join "models" hrelative
  have hpath : Pathname.ofText (Path.join "models" name) = ⟨"", ["models", name]⟩ := by
    rw [← hroot, ← hnames]
  show toRoot.directory.child (Pathname.ofText (Path.join "models" name)) = _
  rw [hpath, Pathname.child_relative]
  rfl

/-- Whether a model file of too long a name exists cannot be told. -/
theorem entry_modelOf (hslash : '/' ∉ name.toList) (hlong : longestName < name.utf8ByteSize)
    (hnull : Disk.hasNull ["models", name] = false) :
    oneModel.entry (toRoot.filePath (modelOf name)) = .error .nameTooLong := by
  have hmodels : Disk.follow oneModel.root [] ["models"] = .ok ["models"] := rfl
  rw [filePath_modelOf hslash hlong]
  exact Disk.entry_of_long hnull rfl hmodels rfl hlong

/-- The name of one letter so many times. -/
def longName (n : Nat) : String := String.ofList (List.replicate n 'A')

theorem not_mem_longName {c : Char} (h : c ≠ 'A') (n : Nat) : c ∉ (longName n).toList := by
  rw [longName, String.toList_ofList]
  exact fun hm => h (List.eq_of_mem_replicate hm)

theorem utf8ByteSize_longName (n : Nat) : (longName n).utf8ByteSize = n := by
  induction n with
  | zero => rfl
  | succ n ih =>
    have hcons : longName (n + 1) = "A" ++ longName n := by
      refine String.toList_inj.1 ?_
      simp [longName, List.replicate_succ]
    rw [hcons, String.utf8ByteSize_append, ih, Nat.add_comm]
    rfl

theorem hasNull_longName (n : Nat) : Disk.hasNull [longName n] = false := by
  have h : (longName n).toList.contains '\x00' = false := by
    simpa using not_mem_longName (by decide) n
  simpa [Disk.hasNull] using h

/-- **An export ends without an account** at a model file of too long a name. -/
theorem exportAll_halts_longName :
    toRoot.Separate [modelOf (longName (longestName + 1))] oneModel ∧
      ¬ ∃ x d', toRoot.exportAll [modelOf (longName (longestName + 1))] oneModel = .ok x d' := by
  have hslash : '/' ∉ (longName (longestName + 1)).toList := not_mem_longName (by decide) _
  have hlong : longestName < (longName (longestName + 1)).utf8ByteSize := by
    rw [utf8ByteSize_longName]
    exact Nat.lt_succ_self _
  have hnull : Disk.hasNull ["models", longName (longestName + 1)] = false := by
    rw [Disk.hasNull, List.any_cons, Bool.or_eq_false_iff]
    exact ⟨by decide, hasNull_longName (longestName + 1)⟩
  generalize longName (longestName + 1) = name at hslash hlong hnull ⊢
  have hentry := entry_modelOf hslash hlong hnull
  refine ⟨⟨List.nodup_singleton _, fun f _ path hp => (List.not_mem_nil hp).elim⟩, ?_⟩
  rintro ⟨x, d', h⟩
  obtain ⟨hgoes, -⟩ := (exportFrom_meets [modelOf name] {}).of_ok h
  exact hgoes (.inl ⟨[], _, [], {}, oneModel, rfl, rfl, .inl ⟨rfl, hentry⟩⟩)

end ExportSettings

end SchemaTypes.Output
