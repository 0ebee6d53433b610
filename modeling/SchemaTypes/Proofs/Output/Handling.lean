/-
# A run over generated files

An export handles its files in order.  Each file is written, skipped or fails (`Outcome`), and what
was done so far never changes what is done with a file, apart from what stands on the disk.

* `exportOne_meets`, `exportFiles_meets`: one file, and all of them as a run (`Trace`);
* `Trace.edit`, `Trace.entry_of_written`: what a run leaves on the disk;
* `exportFiles_foreseen`: a run does what can be said beforehand, if the places of its files are
  ready.
-/
import SchemaTypes.Output.Export
import SchemaTypes.Proofs.Files.Writing
import SchemaTypes.Proofs.Text.Path

namespace SchemaTypes.Output

open Disk (Edit Grows Lays LaysOnly)
open FileAction (Meets MeetsNull Ready)

/-- What an export does with a file. -/
inductive Outcome where
  | written
  | skipped
  | failed (fault : Fault)
deriving DecidableEq, Repr

namespace Exported

/-- How an outcome is noted. -/
def note (x : Exported) (path content : String) : Outcome → Exported
  | .written => x.addRecord (FileRecord.ofContent path content)
  | .skipped => x.addSkipped path
  | .failed fault => x.addFailure ⟨path, fault⟩

end Exported

namespace ExportSettings

/-- The path of a generated file. -/
def filePath (s : ExportSettings) (f : GeneratedFile) : Pathname :=
  s.pathOf (outputPath f s.config)

/-! ## 1. One file -/

/-- How an attempt to write a content at a path ends. -/
inductive Wrote (d : Disk) (p : Pathname) (content : String) : Outcome → Disk → Prop
  | written {d' : Disk} (edit : Edit (· = d.target p) d d')
      (entry : d'.entry p = .ok (.file content.toUTF8)) : Wrote d p content .written d'
  | failed {d' : Disk} {fault : Fault} (system : fault.cause.isSystem = true)
      (grows : Grows d d') : Wrote d p content (.failed fault) d'

/-- A file of the user that exists is left alone. -/
def Leaves (s : ExportSettings) (d : Disk) (f : GeneratedFile) : Prop :=
  f.overwrite = false ∧ ∃ e, d.entry (s.filePath f) = .ok e

/-- An export stops at a file: whether it exists cannot be told, or a name to create holds a null
byte. -/
def Stops (s : ExportSettings) (d : Disk) (f : GeneratedFile) : Prop :=
  f.overwrite = false ∧ d.entry (s.filePath f) = .error .nameTooLong ∨
    MeetsNull d (s.filePath f)

/-- How an export that does not stop handles a file. -/
inductive Handled (s : ExportSettings) (d : Disk) (f : GeneratedFile) : Outcome → Disk → Prop
  | skipped (leaves : s.Leaves d f) : Handled s d f .skipped d
  | wrote {o : Outcome} {d' : Disk} (remains : ¬ s.Leaves d f)
      (wrote : Wrote d (s.filePath f) f.content o d') : Handled s d f o d'

variable {s : ExportSettings} {d : Disk}

/-- A written content is noted as written, and a fault of the system as `onFault` says. -/
theorem writeNoted_meets (path content : String) (onFault : Exported → Fault → Exported)
    (x : Exported) :
    Meets (s.writeNoted path content onFault x) d
      (fun x' d' => ¬ MeetsNull d (s.pathOf path) ∧
        (Wrote d (s.pathOf path) content .written d' ∧
            x' = x.addRecord (FileRecord.ofContent path content) ∨
          ∃ fault, Wrote d (s.pathOf path) content (.failed fault) d' ∧ x' = onFault x fault))
      (fun _ d' => MeetsNull d (s.pathOf path) ∧ Grows d d') := by
  unfold writeNoted
  refine ((FileAction.writeFile_meets (s.pathOf path) content s.atomic).attempt
    fun _ _ => False).bind (fun r d' _ h => ?_) fun _ _ _ h => h.elim
  cases r with
  | ok n =>
    obtain ⟨hnull, hedit, hentry, -⟩ := h
    exact FileAction.meets_pure ⟨hnull, .inl ⟨.written hedit hentry, rfl⟩⟩
  | error fault =>
    obtain ⟨hgrows, hnull⟩ := h
    cases hs : fault.cause.isSystem with
    | true =>
      simp only [hs, if_true]
      have hnot : ¬ MeetsNull d (s.pathOf path) := fun h => by
        rw [hnull.2 h] at hs
        exact nomatch hs
      exact FileAction.meets_pure ⟨hnot, .inr ⟨fault, .failed hs hgrows, rfl⟩⟩
    | false =>
      simp only [hs]
      exact FileAction.meets_throw ⟨hnull.1 hs, hgrows⟩

theorem writeOne_meets (path content : String) (x : Exported) :
    Meets (s.writeOne path content x) d
      (fun x' d' => ¬ MeetsNull d (s.pathOf path) ∧
        ∃ o, Wrote d (s.pathOf path) content o d' ∧ x' = x.note path content o)
      (fun _ d' => MeetsNull d (s.pathOf path) ∧ Grows d d') := by
  refine (writeNoted_meets path content _ x).mono (fun x' d' h => ⟨h.1, ?_⟩) fun _ _ h => h
  rcases h.2 with ⟨hw, hx⟩ | ⟨fault, hw, hx⟩
  · exact ⟨.written, hw, hx⟩
  · exact ⟨.failed fault, hw, hx⟩

/-- **One file**: it is handled, unless the export stops at it. -/
theorem exportOne_meets (f : GeneratedFile) (x : Exported) :
    Meets (s.exportOne f x) d
      (fun x' d' => ¬ s.Stops d f ∧
        ∃ o, s.Handled d f o d' ∧ x' = x.note (outputPath f s.config) f.content o)
      (fun _ d' => s.Stops d f ∧ Grows d d') := by
  have hwrite (hleaves : ¬ s.Leaves d f)
      (hlong : ¬ (f.overwrite = false ∧ d.entry (s.filePath f) = .error .nameTooLong)) :
      Meets (s.writeOne (outputPath f s.config) f.content x) d
        (fun x' d' => ¬ s.Stops d f ∧
          ∃ o, s.Handled d f o d' ∧ x' = x.note (outputPath f s.config) f.content o)
        (fun _ d' => s.Stops d f ∧ Grows d d') := by
    refine (writeOne_meets (outputPath f s.config) f.content x).mono (fun x' d' h => ?_)
      fun _ d' h => ⟨.inr h.1, h.2⟩
    obtain ⟨hnull, o, hw, hx⟩ := h
    exact ⟨fun h => h.elim hlong hnull, o, .wrote hleaves hw, hx⟩
  unfold exportOne
  cases ho : f.overwrite with
  | true =>
    exact hwrite (fun h => nomatch ho.symm.trans h.1) fun h => nomatch ho.symm.trans h.1
  | false =>
    show Meets (FileAction.exists? (s.filePath f) >>= _) d _ _
    refine (FileAction.ask_meets (s.filePath f) fun _ => true).bind (fun b d' _ h => ?_)
      fun fault d' _ h => ?_
    · obtain ⟨rfl, hb, habsent⟩ := h
      cases b with
      | true =>
        obtain ⟨e, he, -⟩ := hb.1 rfl
        refine FileAction.meets_pure ⟨?_, .skipped, .skipped ⟨ho, e, he⟩, rfl⟩
        rintro (⟨-, hlong⟩ | hnull)
        · exact nomatch he.symm.trans hlong
        · exact nomatch (Disk.entry_eq_ok_iff.1 he).1.symm.trans hnull.hasNull
      | false =>
        refine hwrite ?_ ?_
        · rintro ⟨-, e, he⟩
          exact nomatch hb.2 ⟨e, he, rfl⟩
        · rintro ⟨-, he⟩
          exact nomatch habsent _ he
    · obtain ⟨rfl, ha, he⟩ := h
      have hlong := Disk.eq_nameTooLong_of_entry he ha
      exact ⟨.inl ⟨ho, hlong ▸ he⟩, .refl _ _⟩

/-! ## 2. The files in order -/

/-- A run over files: each is handled on the disk that the files before it left. -/
inductive Trace (s : ExportSettings) : Disk → List (GeneratedFile × Outcome) → Disk → Prop
  | nil (d : Disk) : Trace s d [] d
  | cons {d d' d'' : Disk} {f : GeneratedFile} {o : Outcome}
      {es : List (GeneratedFile × Outcome)} (goesOn : ¬ s.Stops d f) (handled : s.Handled d f o d')
      (rest : Trace s d' es d'') : Trace s d ((f, o) :: es) d''

/-- The record of a written file. -/
def record? (s : ExportSettings) : GeneratedFile × Outcome → Option FileRecord
  | (f, .written) => some ⟨outputPath f s.config, f.sizeBytes, f.lineCount, f.checksum⟩
  | _ => none

/-- The path of a skipped file. -/
def skipped? (s : ExportSettings) : GeneratedFile × Outcome → Option String
  | (f, .skipped) => some (outputPath f s.config)
  | _ => none

/-- The failure of a file that could not be written. -/
def failure? (s : ExportSettings) : GeneratedFile × Outcome → Option WriteFailure
  | (f, .failed fault) => some ⟨outputPath f s.config, fault⟩
  | _ => none

/-- What an export did with some files, behind what was done before. -/
def account (s : ExportSettings) (x : Exported) (es : List (GeneratedFile × Outcome)) : Exported :=
  { x with
    records := x.records ++ es.filterMap s.record?
    skipped := x.skipped ++ es.filterMap s.skipped?
    failures := x.failures ++ es.filterMap s.failure? }

theorem account_nil (x : Exported) : s.account x [] = x := by
  simp [account]

theorem account_cons (x : Exported) (f : GeneratedFile) (o : Outcome)
    (es : List (GeneratedFile × Outcome)) :
    s.account x ((f, o) :: es)
      = s.account (x.note (outputPath f s.config) f.content o) es := by
  cases o <;> simp [List.filterMap_cons, account, Exported.note, Exported.addRecord,
    Exported.addSkipped, Exported.addFailure, record?, skipped?, failure?, FileRecord.ofContent,
    GeneratedFile.sizeBytes, GeneratedFile.lineCount, GeneratedFile.checksum]

/-- Files in two parts are exported part by part. -/
theorem exportFiles_append (a b : List GeneratedFile) (x : Exported) {x' : Exported} {d' : Disk}
    (h : s.exportFiles a x d = .ok x' d') :
    s.exportFiles (a ++ b) x d = s.exportFiles b x' d' := by
  induction a generalizing x d with
  | nil =>
    cases h
    rfl
  | cons f rest ih =>
    rw [exportFiles] at h
    rw [List.cons_append, exportFiles]
    rcases exportOne_meets (s := s) (d := d) f x with ⟨hx, -⟩ | ⟨hx, -⟩
    · rw [bind_of_ok hx] at h ⊢
      exact ih _ h
    · rw [bind_of_error hx] at h
      exact nomatch h

/-- **The files in order**: all are handled, or the export stops at one of them. -/
theorem exportFiles_meets (files : List GeneratedFile) (x : Exported) :
    Meets (s.exportFiles files x) d
      (fun x' d' => ∃ es, es.map (·.1) = files ∧ s.Trace d es d' ∧ x' = s.account x es)
      (fun _ _ => ∃ before f after x' d', files = before ++ f :: after ∧
        s.exportFiles before x d = .ok x' d' ∧ s.Stops d' f) := by
  induction files generalizing x d with
  | nil => exact FileAction.meets_pure ⟨[], rfl, .nil d, (account_nil x).symm⟩
  | cons f rest ih =>
    refine (exportOne_meets f x).bind (fun x₁ d₁ hone h => ?_) fun _ _ _ h => ?_
    · obtain ⟨hgo, o, hhandled, hx⟩ := h
      refine (ih x₁).mono (fun x' d' h => ?_) fun _ _ h => ?_
      · obtain ⟨es, hes, htrace, hx'⟩ := h
        refine ⟨(f, o) :: es, by rw [List.map_cons, hes], .cons hgo hhandled htrace, ?_⟩
        rw [hx', hx, account_cons]
      · obtain ⟨before, g, after, x', d', hfiles, hbefore, hstops⟩ := h
        refine ⟨f :: before, g, after, x', d', by rw [hfiles]; rfl, ?_, hstops⟩
        rw [exportFiles, bind_of_ok hone]
        exact hbefore
    · exact ⟨[], f, rest, x, d, rfl, rfl, h.1⟩

/-- **Where an export stops.** -/
theorem exportFiles_error_iff {files : List GeneratedFile} {x : Exported} :
    (∃ fault d', s.exportFiles files x d = .error fault d') ↔
      ∃ before f after x' d', files = before ++ f :: after ∧
        s.exportFiles before x d = .ok x' d' ∧ s.Stops d' f := by
  constructor
  · rintro ⟨fault, d', h⟩
    exact (exportFiles_meets files x).of_error h
  · rintro ⟨before, f, after, x', d', rfl, hbefore, hstops⟩
    rw [exportFiles_append before (f :: after) x hbefore, exportFiles]
    rcases exportOne_meets (s := s) (d := d') f x' with ⟨-, hgo, -⟩ | ⟨hx, -⟩
    · exact absurd hstops hgo
    · exact ⟨_, _, bind_of_error hx⟩

/-! ## 3. What a run leaves -/

/-- A file that is handled changes its place at most, and that only when it is written. -/
theorem Handled.edit {f : GeneratedFile} {o : Outcome} {d' : Disk} (h : s.Handled d f o d') :
    Edit (fun l => o = .written ∧ l = d.target (s.filePath f)) d d' := by
  rcases h with _ | ⟨-, ⟨hedit, -⟩ | ⟨-, hgrows⟩⟩
  · exact .refl _ _
  · exact hedit.mono fun l hl => ⟨rfl, hl⟩
  · exact hgrows.mono fun _ h => h.elim

/-- **The frame of a run**: only the places of written files have other bytes. -/
theorem Trace.edit {es : List (GeneratedFile × Outcome)} {d' : Disk} (h : s.Trace d es d') :
    Edit (fun l => ∃ f, (f, .written) ∈ es ∧ l = d.target (s.filePath f)) d d' := by
  induction h with
  | nil d => exact .refl _ d
  | @cons d d₁ d' f o es _ hh _ ih =>
    refine (hh.edit.mono ?_).trans (ih.mono ?_)
    · rintro l ⟨rfl, hl⟩
      exact ⟨f, List.mem_cons_self, hl⟩
    · rintro l ⟨g, hg, hl⟩
      exact ⟨g, List.mem_cons_of_mem _ hg, hl.trans (Disk.target_congr hh.edit.directory _)⟩

/-- A run in two parts. -/
theorem Trace.split {a b : List (GeneratedFile × Outcome)} {d' : Disk}
    (h : s.Trace d (a ++ b) d') : ∃ d₁, s.Trace d a d₁ ∧ s.Trace d₁ b d' := by
  induction a generalizing d with
  | nil => exact ⟨d, .nil d, h⟩
  | cons e rest ih =>
    rcases h with _ | ⟨hgo, hh, ht⟩
    obtain ⟨d₁, ha, hb⟩ := ih ht
    exact ⟨d₁, .cons hgo hh ha, hb⟩

/-- **A written file holds its content** at the end of the run, when no two files have one
place. -/
theorem Trace.entry_of_written {es : List (GeneratedFile × Outcome)} {d' : Disk}
    (h : s.Trace d es d') (hplaces : (es.map fun e => d.target (s.filePath e.1)).Nodup)
    {f : GeneratedFile} (hf : (f, .written) ∈ es) :
    d'.entry (s.filePath f) = .ok (.file f.content.toUTF8) := by
  induction h with
  | nil d => exact nomatch hf
  | @cons d d₁ d' g o es _ hh ht ih =>
    rw [List.map_cons, List.nodup_cons] at hplaces
    have hcongr : ∀ p, d₁.target p = d.target p := Disk.target_congr hh.edit.directory
    rcases List.mem_cons.1 hf with heq | hf
    · cases heq
      have hother : ¬ ∃ g, (g, .written) ∈ es ∧ d₁.target (s.filePath f) =
          d₁.target (s.filePath g) := by
        rintro ⟨g, hg, hplace⟩
        rw [hcongr, hcongr] at hplace
        exact hplaces.1 (List.mem_map.2 ⟨_, hg, hplace.symm⟩)
      rcases hh with _ | ⟨-, ⟨-, hentry⟩⟩
      exact Disk.entry_file_kept ht.edit hother hentry
    · refine ih ?_ hf
      simpa only [hcongr] using hplaces.2

/-- A file of the user that exists at the start is skipped, whatever happens before its turn. -/
theorem Trace.eq_skipped {es : List (GeneratedFile × Outcome)} {d' : Disk} (h : s.Trace d es d')
    {f : GeneratedFile} {o : Outcome} (hf : (f, o) ∈ es) (hleaves : s.Leaves d f) :
    o = .skipped := by
  induction h with
  | nil d => exact nomatch hf
  | @cons d d₁ d' g o' es _ hh ht ih =>
    rcases List.mem_cons.1 hf with heq | hf
    · cases heq
      rcases hh with _ | ⟨hnot, -⟩
      · rfl
      · exact absurd hleaves hnot
    · obtain ⟨ho, e, he⟩ := hleaves
      exact ih hf ⟨ho, Disk.entry_kept hh.edit he⟩

/-- A skipped file is one of the user, and something stands at its place. -/
theorem Trace.of_skipped {es : List (GeneratedFile × Outcome)} {d' : Disk} (h : s.Trace d es d')
    {f : GeneratedFile} (hf : (f, .skipped) ∈ es) :
    f.overwrite = false ∧ d'.standing (d.target (s.filePath f)) ≠ .nothing := by
  induction h with
  | nil d => exact nomatch hf
  | @cons d d₁ d' g o es _ hh ht ih =>
    rcases List.mem_cons.1 hf with heq | hf
    · cases heq
      rcases hh with ⟨ho, e, he⟩ | ⟨-, hw⟩
      · refine ⟨ho, ht.edit.ne_nothing ?_⟩
        rw [Disk.standing_of_entry he]
        cases e <;> exact fun h => nomatch h
      · exact nomatch hw
    · rw [← Disk.target_congr hh.edit.directory (s.filePath f)]
      exact ih hf

/-! ## 4. What a run puts on the disk -/

variable {d' : Disk} {f : GeneratedFile} {o : Outcome} {es : List (GeneratedFile × Outcome)}
  {path content : String}

/-- What is put where by the files of a run. -/
def laid (s : ExportSettings) (d : Disk) (es : List (GeneratedFile × Outcome)) :
    List (Location × String) :=
  es.filterMap fun e =>
    if e.2 = .written then some (d.target (s.filePath e.1), e.1.content) else none

theorem laid_cons (e : GeneratedFile × Outcome) (es : List (GeneratedFile × Outcome)) :
    s.laid d (e :: es) = s.laid d [e] ++ s.laid d es := by
  rw [laid, laid, laid, ← List.filterMap_append, List.singleton_append]

theorem laid_congr (h : d'.directory = d.directory) (es : List (GeneratedFile × Outcome)) :
    s.laid d' es = s.laid d es := by
  unfold laid
  simp only [Disk.target_congr h]

/-- **What a run puts on the disk** is the contents of the files that it writes, in order. -/
theorem Trace.lays (h : s.Trace d es d') :
    Lays (s.laid d es) d d' := by
  induction h with
  | nil d => exact .of_grows (.refl _ _)
  | @cons d d₁ d' f o es _ hh ht ih =>
    have hone : Lays (s.laid d [(f, o)]) d d₁ := by
      rcases hh with _ | ⟨-, ⟨hedit, hentry⟩ | ⟨-, hgrows⟩⟩
      · exact .of_grows (.refl _ _)
      · refine .single hedit ?_
        have hs := Disk.standing_of_entry hentry
        rw [Disk.target_congr hedit.directory] at hs
        exact hs
      · exact .of_grows hgrows
    rw [laid_cons, ← laid_congr hh.edit.directory es]
    exact hone.append ih

theorem mem_laid_iff {l : Location} {c : String} :
    (l, c) ∈ s.laid d es ↔
      ∃ f, (f, .written) ∈ es ∧ l = d.target (s.filePath f) ∧ c = f.content := by
  rw [laid, List.mem_filterMap]
  constructor
  · rintro ⟨⟨f, o⟩, hmem, h⟩
    dsimp only at h
    split at h
    · rename_i ho
      cases h
      exact ⟨f, ho ▸ hmem, rfl, rfl⟩
    · exact nomatch h
  · rintro ⟨f, hmem, rfl, rfl⟩
    exact ⟨_, hmem, if_pos rfl⟩

/-! ## 5. What can be said beforehand -/

theorem writeNoted_of_writeFile {n : Nat}
    (h : FileAction.writeFile (s.pathOf path) content s.atomic d = .ok n d')
    (onFault : Exported → Fault → Exported) (x : Exported) :
    s.writeNoted path content onFault x d
      = .ok (x.addRecord (FileRecord.ofContent path content)) d' := by
  have hattempt : FileAction.attempt (FileAction.writeFile (s.pathOf path) content s.atomic) d
      = .ok (.ok n) d' := by
    rw [FileAction.attempt, h]
  unfold writeNoted
  exact bind_of_ok hattempt

/-- A path that is ready is written, whatever would be done about a fault. -/
theorem writeNoted_of_ready (h : Ready d (s.pathOf path) s.atomic) (content : String)
    (onFault : Exported → Fault → Exported) (x : Exported) :
    ∃ d', s.writeNoted path content onFault x d
        = .ok (x.addRecord (FileRecord.ofContent path content)) d' ∧
      LaysOnly [(d.target (s.pathOf path), content)] d d' := by
  obtain ⟨d', hw, hputs⟩ := h.writeFile content
  exact ⟨d', writeNoted_of_writeFile hw onFault x, .of_puts hputs h.free⟩

theorem writeOne_of_ready (h : Ready d (s.pathOf path) s.atomic) (content : String)
    (x : Exported) :
    ∃ d', s.writeOne path content x d = .ok (x.addRecord (FileRecord.ofContent path content)) d' ∧
      LaysOnly [(d.target (s.pathOf path), content)] d d' := by
  unfold writeOne
  exact writeNoted_of_ready h content (fun x f => x.addFailure ⟨path, f⟩) x

/-- A file that is not skipped and can be written. -/
theorem exportOne_of_writeFile {n : Nat}
    (hnew : f.overwrite = true ∨ FileAction.exists? (s.filePath f) d = .ok false d)
    (h : FileAction.writeFile (s.filePath f) f.content s.atomic d = .ok n d') (x : Exported) :
    s.exportOne f x d
      = .ok (x.addRecord (FileRecord.ofContent (outputPath f s.config) f.content)) d' := by
  have hwrite := writeNoted_of_writeFile h
    (fun x fault => x.addFailure ⟨outputPath f s.config, fault⟩) x
  unfold exportOne
  cases ho : f.overwrite with
  | true => exact hwrite
  | false =>
    have hmissing := hnew.resolve_left fun h => nomatch ho.symm.trans h
    exact (bind_of_ok hmissing).trans hwrite

/-- What an export does with a file can be said beforehand: the file can be written at its place
and nothing of the user stands there, or it is one of the user that exists. -/
inductive Foreseen (s : ExportSettings) (d : Disk) : GeneratedFile × Outcome → Prop
  | written {f : GeneratedFile} (ready : Ready d (s.filePath f) s.atomic)
      (new : f.overwrite = true ∨ d.standing (d.target (s.filePath f)) = .nothing) :
      Foreseen s d (f, .written)
  | skipped {f : GeneratedFile} (leaves : s.Leaves d f) : Foreseen s d (f, .skipped)

theorem exportOne_foreseen (h : s.Foreseen d (f, o)) (x : Exported) :
    ∃ d', s.exportOne f x d = .ok (x.note (outputPath f s.config) f.content o) d' ∧
      LaysOnly (s.laid d [(f, o)]) d d' := by
  rcases h with ⟨hready, hnew⟩ | ⟨ho, e, he⟩
  · obtain ⟨d', hw, hputs⟩ := hready.writeFile f.content
    refine ⟨d', exportOne_of_writeFile (hnew.imp_right fun hs => ?_) hw x,
      .of_puts hputs hready.free⟩
    rw [FileAction.exists?, FileAction.ask, FileAction.ofLookup,
      Disk.entry_of_place_nothing hready.place hs]
    rfl
  · have hthere : FileAction.exists? (s.pathOf (outputPath f s.config)) d = .ok true d := by
      have he' : d.entry (s.pathOf (outputPath f s.config)) = .ok e := he
      rw [FileAction.exists?, FileAction.ask, FileAction.ofLookup, he']
    refine ⟨d, ?_, .nil d⟩
    unfold exportOne
    rw [ho]
    exact bind_of_ok hthere

/-- What can be said beforehand can be said while contents are put anywhere but at the place of a
file of the user that is to be written. -/
theorem Foreseen.kept (h : s.Foreseen d (f, o)) {ws : List (Location × String)}
    (hlays : LaysOnly ws d d')
    (hfar : o = .written → f.overwrite = true ∨ ∀ c, (d.target (s.filePath f), c) ∉ ws) :
    s.Foreseen d' (f, o) := by
  rcases h with ⟨hready, hnew⟩ | ⟨ho, e, he⟩
  · refine .written (hready.of_lays hlays) ?_
    rcases hfar rfl with howned | hfar
    · exact .inl howned
    · rw [Disk.target_congr hlays.edit.directory, hlays.only _ hfar]
      exact hnew
  · exact .skipped ⟨ho, Disk.entry_kept hlays.edit he⟩

/-- No file has the place of a file of the user behind it that is to be written. -/
def Spaced (s : ExportSettings) (d : Disk) (es : List (GeneratedFile × Outcome)) : Prop :=
  es.Pairwise fun e e' => e'.2 = .written →
    e'.1.overwrite = true ∨ d.target (s.filePath e.1) ≠ d.target (s.filePath e'.1)

theorem spaced_of_nodup (h : (es.map fun e => d.target (s.filePath e.1)).Nodup) :
    s.Spaced d es :=
  (List.pairwise_map.1 h).imp fun hne _ => .inr hne

/-- **A run does what can be said beforehand** of each of its files. -/
theorem exportFiles_foreseen (h : ∀ f o, (f, o) ∈ es → s.Foreseen d (f, o))
    (hspaced : s.Spaced d es) (x : Exported) :
    ∃ d', s.exportFiles (es.map (·.1)) x d = .ok (s.account x es) d' ∧
      LaysOnly (s.laid d es) d d' := by
  induction es generalizing x d with
  | nil => exact ⟨d, by rw [account_nil]; rfl, .nil d⟩
  | cons e rest ih =>
    obtain ⟨f, o⟩ := e
    obtain ⟨hbehind, hrest⟩ := List.pairwise_cons.1 hspaced
    obtain ⟨d₁, hone, hlays⟩ := exportOne_foreseen (h f o List.mem_cons_self) x
    have hcongr := Disk.target_congr hlays.edit.directory
    have hkept : ∀ g o', (g, o') ∈ rest → s.Foreseen d₁ (g, o') := by
      intro g o' hg
      refine (h g o' (List.mem_cons_of_mem _ hg)).kept hlays fun ho => ?_
      refine (hbehind _ hg ho).imp_right fun hne c hc => ?_
      obtain ⟨f', hf', hplace, -⟩ := mem_laid_iff.1 hc
      cases List.mem_singleton.1 hf'
      exact hne hplace.symm
    have hspaced₁ : s.Spaced d₁ rest := by
      unfold Spaced
      simpa only [hcongr] using hrest
    obtain ⟨d₂, hmore, hlays'⟩ := ih hkept hspaced₁ (x.note (outputPath f s.config) f.content o)
    refine ⟨d₂, ?_, ?_⟩
    · rw [List.map_cons, exportFiles, bind_of_ok hone, hmore, account_cons]
    · rw [laid_cons, ← laid_congr hlays.edit.directory rest]
      exact hlays.append hlays'

/-- A file that replaces whatever is there fails where a directory stands. -/
theorem exportOne_of_directory (ho : f.overwrite = true)
    (hnull : Disk.hasNull (s.filePath f).names = false)
    (hd : d.standing (d.target (s.filePath f)) = .directory) (x : Exported) :
    ∃ fault d', s.exportOne f x d = .ok (x.addFailure ⟨outputPath f s.config, fault⟩) d' ∧
      Grows d d' := by
  rcases exportOne_meets (s := s) (d := d) f x with ⟨hends, -, o, hh, rfl⟩ | ⟨-, hstops, -⟩
  · rcases hh with ⟨hnot, -⟩ | ⟨-, ⟨hedit, hentry⟩ | ⟨-, hgrows⟩⟩
    · exact nomatch ho.symm.trans hnot
    · have hs := Disk.standing_of_entry hentry
      rw [Disk.target_congr hedit.directory, hedit.directories hd] at hs
      exact nomatch hs
    · exact ⟨_, _, hends, hgrows⟩
  · rcases hstops with ⟨hnot, -⟩ | hmeets
    · exact nomatch ho.symm.trans hnot
    · exact nomatch hnull.symm.trans hmeets.hasNull

end ExportSettings

end SchemaTypes.Output
