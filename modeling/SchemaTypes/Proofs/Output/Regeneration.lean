/-
# Exporting once more

After an export without failures every file of the plan is settled (`Settled`): a file of the user
is there, and any other file can be written again.  A second export of the plan therefore does
what can be said beforehand (`exportFiles_again`): it skips the files of the user and writes all
others and the description of the package.

Whether the tree stays as it is, is a matter of what was put at a place last
(`exportAll_again`).  The second export puts a file over one of the user if the first one has put
that one over the file.  The question whether a file exists does not see the other file only if
its path has a double dot behind a directory that is missing.
-/
import SchemaTypes.Proofs.Output.Export

namespace SchemaTypes.Output

open Disk (Edit Lays LaysOnly last?)
open FileAction (Ready)

namespace ExportSettings

variable {s : ExportSettings} {d d' : Disk} {files : List GeneratedFile} {f : GeneratedFile}
  {x x' : Exported} {path content : String}

/-! ## 1. Settled files -/

/-- An export does with a file what can be said beforehand: a file of the user is there, and any
other file can be written. -/
def Prepared (s : ExportSettings) (d : Disk) (f : GeneratedFile) : Prop :=
  if f.overwrite then Ready d (s.filePath f) s.atomic else ∃ e, d.entry (s.filePath f) = .ok e

theorem prepared_of_ready (ho : f.overwrite = true) (h : Ready d (s.filePath f) s.atomic) :
    s.Prepared d f := by
  rw [Prepared, if_pos ho]
  exact h

theorem prepared_of_entry (ho : f.overwrite = false) {e : Entry}
    (h : d.entry (s.filePath f) = .ok e) : s.Prepared d f := by
  rw [Prepared, ho]
  exact ⟨e, h⟩

/-- What can be said beforehand can be said while contents are put anywhere. -/
theorem Prepared.kept (h : s.Prepared d f) {ws : List (Location × String)}
    (hlays : LaysOnly ws d d') : s.Prepared d' f := by
  unfold Prepared at h ⊢
  cases ho : f.overwrite with
  | true =>
    rw [ho] at h
    exact Ready.of_lays h hlays
  | false =>
    rw [ho] at h
    obtain ⟨e, he⟩ := h
    exact Disk.entry_kept hlays.edit he

/-- A file that is prepared, and something stands at its path. -/
def Settled (s : ExportSettings) (d : Disk) (f : GeneratedFile) : Prop :=
  s.Prepared d f ∧ d.standing (d.target (s.filePath f)) ≠ .nothing

/-- **A settled file stays settled**, whatever is made or written. -/
theorem Settled.kept (h : s.Settled d f) {P : Location → Prop} (hE : Edit P d d') :
    s.Settled d' f := by
  obtain ⟨hprepared, hs⟩ := h
  refine ⟨?_, ?_⟩
  · unfold Prepared at hprepared ⊢
    cases ho : f.overwrite with
    | true =>
      rw [ho] at hprepared
      exact Ready.kept hprepared hE hs
    | false =>
      rw [ho] at hprepared
      obtain ⟨e, he⟩ := hprepared
      exact Disk.entry_kept hE he
  · rw [Disk.target_congr hE.directory]
    exact hE.ne_nothing hs

/-! ## 2. The first export -/

/-- A path that was written without a failure. -/
theorem writeOne_ok (h : s.writeOne path content x d = .ok x' d') (hx : x'.failures = []) :
    x' = x.addRecord (FileRecord.ofContent path content) ∧ Ready d' (s.pathOf path) s.atomic ∧
      d'.standing (d'.target (s.pathOf path)) = .file content.toUTF8 ∧
      Lays [(d.target (s.pathOf path), content)] d d' := by
  unfold writeOne writeNoted at h
  rcases FileAction.writeFile_meets (d := d) (s.pathOf path) content s.atomic with
    ⟨hw, -, hedit, hentry, hready⟩ | ⟨hw, -⟩
  · rw [bind_of_ok (by rw [FileAction.attempt, hw])] at h
    cases h
    have hs := Disk.standing_of_entry hentry
    have ht := Disk.target_congr hedit.directory (s.pathOf path)
    exact ⟨rfl, hready, hs, .single hedit (ht ▸ hs)⟩
  · rw [bind_of_ok (by rw [FileAction.attempt, hw])] at h
    dsimp only at h
    split at h
    · cases h
      exact absurd hx (by simp [Exported.addFailure])
    · cases h

theorem exportOne_settled (h : s.exportOne f x d = .ok x' d') (hx : x'.failures = []) :
    s.Settled d' f := by
  cases ho : f.overwrite with
  | true =>
    unfold exportOne at h
    simp only [ho, if_true] at h
    obtain ⟨-, hready, hs, -⟩ := writeOne_ok h hx
    refine ⟨prepared_of_ready ho hready, fun hnone => ?_⟩
    cases hs.symm.trans hnone
  | false =>
    have hthere : ∃ e, d'.entry (s.filePath f) = .ok e := by
      obtain ⟨-, o, hhandled, rfl⟩ := (exportOne_meets f x).of_ok h
      rcases hhandled with ⟨-, hentry⟩ | ⟨-, ⟨-, hentry⟩ | _⟩
      · exact hentry
      · exact ⟨_, hentry⟩
      · exact absurd hx (by simp [Exported.note, Exported.addFailure])
    obtain ⟨e, he⟩ := hthere
    refine ⟨prepared_of_entry ho he, ?_⟩
    rw [Disk.standing_of_entry he]
    cases e <;> exact Standing.noConfusion

/-- **After a run without failures every file is settled**: what comes later keeps it so. -/
theorem exportFiles_settled (h : s.exportFiles files x d = .ok x' d') (hx : x'.failures = []) :
    ∀ f ∈ files, s.Settled d' f := by
  induction files generalizing x d with
  | nil => exact fun _ h => (List.not_mem_nil h).elim
  | cons g rest ih =>
    rw [exportFiles] at h
    rcases exportOne_meets (s := s) (d := d) g x with ⟨hone, -⟩ | ⟨hone, -⟩
    · rename_i x₁ d₁
      rw [bind_of_ok hone] at h
      obtain ⟨es, -, htrace, hx'⟩ := (exportFiles_meets rest x₁).of_ok h
      have hx₁ : x₁.failures = [] := by
        rw [hx'] at hx
        exact (List.append_eq_nil_iff.1 hx).1
      intro f hf
      rcases List.mem_cons.1 hf with rfl | hf
      · exact (exportOne_settled hone hx₁).kept htrace.edit
      · exact ih h f hf
    · rw [bind_of_error hone] at h
      cases h

/-! ## 3. The second export -/

/-- What the second export does with a file. -/
def again (f : GeneratedFile) : GeneratedFile × Outcome :=
  (f, if f.overwrite then .written else .skipped)

theorem again_of_overwrite (h : f.overwrite = true) : again f = (f, .written) := by
  rw [again, if_pos h]

theorem written_mem_again_iff :
    (f, .written) ∈ files.map again ↔ f ∈ files ∧ f.overwrite = true := by
  constructor
  · intro h
    obtain ⟨g, hg, heq⟩ := List.mem_map.1 h
    obtain ⟨rfl, ho⟩ := Prod.mk.inj heq
    refine ⟨hg, ?_⟩
    by_contra hno
    rw [if_neg hno] at ho
    exact nomatch ho
  · rintro ⟨hf, ho⟩
    exact List.mem_map.2 ⟨f, hf, again_of_overwrite ho⟩

theorem map_fst_again (files : List GeneratedFile) : (files.map again).map (·.1) = files := by
  rw [List.map_map]
  exact List.map_id _

/-- What is done with files that are prepared can be said beforehand: the files of the user are
skipped, and all others written. -/
theorem foreseen_again (h : s.Prepared d f) : s.Foreseen d (again f) := by
  unfold Prepared at h
  unfold again
  cases ho : f.overwrite with
  | true =>
    rw [ho] at h
    exact .written h (.inl ho)
  | false =>
    rw [ho] at h
    exact .skipped ⟨ho, h⟩

/-- **Prepared files** are exported in that way, even if some of them have one place. -/
theorem exportFiles_again (h : ∀ f ∈ files, s.Prepared d f) (x : Exported) :
    ∃ d', s.exportFiles files x d = .ok (s.account x (files.map again)) d' ∧
      LaysOnly (s.laid d (files.map again)) d d' := by
  have hspaced : s.Spaced d (files.map again) := by
    refine List.pairwise_of_forall_mem_list fun _ _ e he ho => .inl ?_
    obtain ⟨f, -, rfl⟩ := List.mem_map.1 he
    show f.overwrite = true
    by_contra hnot
    rw [again, if_neg hnot] at ho
    exact nomatch ho
  have hforeseen : ∀ f o, (f, o) ∈ files.map again → s.Foreseen d (f, o) := by
    intro f o hf
    obtain ⟨g, hg, heq⟩ := List.mem_map.1 hf
    exact heq ▸ foreseen_again (h g hg)
  have hrun := exportFiles_foreseen hforeseen hspaced x
  rwa [map_fst_again] at hrun

/-! ## 4. The description of the package -/

theorem exportPackageJson_ok (h : s.exportPackageJson files x d = .ok x' d')
    (hx : x'.failures = []) :
    x' = { x with records := x.records ++ s.packageRecords files } ∧
      (s.describesPackage files = true →
        Ready d' (s.pathOf (packageJsonPath s.config)) s.atomic) ∧
      Lays (s.packageLaid files d) d d' := by
  unfold exportPackageJson at h
  unfold packageLaid packageRecords
  cases hp : s.describesPackage files with
  | true =>
    simp only [hp, if_true] at h ⊢
    obtain ⟨hx, hready, -, hlays⟩ := writeOne_ok h hx
    exact ⟨hx, fun _ => hready, hlays⟩
  | false =>
    simp only [hp, Bool.false_eq_true, if_false, List.append_nil] at h ⊢
    cases h
    exact ⟨rfl, fun h => (nomatch h), .of_grows (.refl _ _)⟩

/-! ## 5. Both exports -/

/-- What an export puts where that does this with its files: their contents, and then the
description of the package. -/
def allLaid (s : ExportSettings) (d : Disk) (es : List (GeneratedFile × Outcome)) :
    List (Location × String) :=
  s.laid d es ++ s.packageLaid (es.map (·.1)) d

/-- The account of such an export. -/
def allAccount (s : ExportSettings) (es : List (GeneratedFile × Outcome)) : Exported :=
  { s.account {} es with
    records := (s.account {} es).records ++ s.packageRecords (es.map (·.1)) }

/-- An export without a manifest is one of its files and of the description of the package. -/
theorem exportAll_eq_ok_iff (hmanifest : s.withManifest = false) :
    s.exportAll files d = .ok x' d' ↔ ∃ x₁ d₁, s.exportFiles files {} d = .ok x₁ d₁ ∧
      s.exportPackageJson files x₁ d₁ = .ok x' d' := by
  have hnone : s.exportManifest = pure := by
    funext x
    rw [exportManifest, hmanifest]
    rfl
  unfold exportAll exportFrom
  rw [hnone]
  cases hfiles : s.exportFiles files {} d with
  | error f d₁ =>
    rw [bind_of_error hfiles]
    exact ⟨fun h => (nomatch h), fun ⟨_, _, h, _⟩ => nomatch h⟩
  | ok x₁ d₁ =>
    rw [bind_of_ok hfiles]
    cases hpackage : s.exportPackageJson files x₁ d₁ with
    | error f d₂ =>
      rw [bind_of_error hpackage]
      refine ⟨fun h => (nomatch h), fun ⟨_, _, h, hp⟩ => ?_⟩
      cases h
      exact nomatch hpackage.symm.trans hp
    | ok x₂ d₂ =>
      rw [bind_of_ok hpackage]
      constructor
      · intro h
        cases h
        exact ⟨x₁, d₁, rfl, hpackage⟩
      · rintro ⟨_, _, h, hp⟩
        cases h
        exact hpackage.symm.trans hp

/-- A file that is no file of the user is written, unless there is a failure. -/
theorem Trace.eq_written {es : List (GeneratedFile × Outcome)} (h : s.Trace d es d')
    (hok : es.filterMap s.failure? = []) {o : Outcome} (hf : (f, o) ∈ es)
    (ho : f.overwrite = true) : o = .written := by
  cases o with
  | written => rfl
  | skipped => exact nomatch ho.symm.trans (h.of_skipped hf).1
  | failed fault =>
    have hmem : (⟨outputPath f s.config, fault⟩ : WriteFailure) ∈ es.filterMap s.failure? :=
      List.mem_filterMap.2 ⟨_, hf, rfl⟩
    rw [hok] at hmem
    exact (List.not_mem_nil hmem).elim

/-- What the second export puts on the disk was put there by the first one. -/
theorem Trace.laid_of_again {es : List (GeneratedFile × Outcome)} (h : s.Trace d es d')
    (hok : es.filterMap s.failure? = []) {l : Location} {c : String}
    (hl : (l, c) ∈ s.laid d ((es.map (·.1)).map again)) : (l, c) ∈ s.laid d es := by
  obtain ⟨f, hf, hl⟩ := mem_laid_iff.1 hl
  obtain ⟨hmem, ho⟩ := written_mem_again_iff.1 hf
  obtain ⟨⟨g, o⟩, hwritten, rfl⟩ := List.mem_map.1 hmem
  exact mem_laid_iff.2 ⟨g, h.eq_written hok hwritten ho ▸ hwritten, hl⟩

/-- A file of the user is not written where something stands, if its path leads only down. -/
theorem Trace.written_not_mem {es : List (GeneratedFile × Outcome)} (h : s.Trace d es d')
    (huser : f.overwrite = false) (hdots : ".." ∉ (s.filePath f).names)
    (hs : d.standing (d.target (s.filePath f)) ≠ .nothing) : (f, .written) ∉ es := by
  induction h with
  | nil d => exact List.not_mem_nil
  | @cons d d₁ d' g o es hgo hh _ ih =>
    intro hf
    rcases List.mem_cons.1 hf with heq | hf
    · cases heq
      rcases hh with _ | ⟨hremains, ⟨-, hentry⟩⟩
      have hnull := (Disk.entry_eq_ok_iff.1 hentry).1
      rcases Disk.entry_of_standing hnull hdots hs with hthere | hlong
      · exact hremains ⟨huser, hthere⟩
      · exact hgo (.inl ⟨huser, hlong⟩)
    · refine ih ?_ hf
      rw [Disk.target_congr hh.edit.directory]
      exact hh.edit.ne_nothing hs

/-- Where something stands and nothing is written again, nothing is written: neither a file that is
written again nor one of the user comes there. -/
theorem Trace.last_eq_none {es : List (GeneratedFile × Outcome)} (h : s.Trace d es d')
    (hdots : ∀ f o, (f, o) ∈ es → f.overwrite = false → ".." ∉ (s.filePath f).names)
    {l : Location} (hs : d.standing l ≠ .nothing)
    (hagain : last? (s.laid d ((es.map (·.1)).map again)) l = none) :
    last? (s.laid d es) l = none := by
  refine Disk.last?_eq_none_iff.2 fun c hc => ?_
  obtain ⟨f, hf, rfl, rfl⟩ := mem_laid_iff.1 hc
  cases ho : f.overwrite with
  | true =>
    refine Disk.last?_eq_none_iff.1 hagain f.content (mem_laid_iff.2 ⟨f, ?_, rfl, rfl⟩)
    exact written_mem_again_iff.2 ⟨List.mem_map.2 ⟨_, hf, rfl⟩, ho⟩
  | false => exact h.written_not_mem ho (hdots f _ hf ho) hs hf

/-- **Nothing of the user is put over another file** if the paths of the user lead only down: at
each place the second export puts last what the first one has put there last. -/
theorem Trace.last_of_downward {es : List (GeneratedFile × Outcome)} (h : s.Trace d es d')
    (hok : es.filterMap s.failure? = [])
    (hdots : ∀ f o, (f, o) ∈ es → f.overwrite = false → ".." ∉ (s.filePath f).names)
    {l : Location} {c : String} (hl : last? (s.laid d ((es.map (·.1)).map again)) l = some c) :
    last? (s.laid d es) l = some c := by
  induction h with
  | nil d => exact nomatch hl
  | @cons d d₁ d' f o es hgo hh ht ih =>
    have hwhole : s.Trace d ((f, o) :: es) d' := .cons hgo hh ht
    have hcongr := Disk.target_congr hh.edit.directory
    have hrest : es.filterMap s.failure? = [] := by
      refine List.filterMap_eq_nil_iff.2 fun e he => ?_
      exact List.filterMap_eq_nil_iff.1 hok e (List.mem_cons_of_mem _ he)
    rw [List.map_cons, List.map_cons, laid_cons, Disk.last?_append] at hl
    rw [laid_cons, Disk.last?_append]
    cases hlater : last? (s.laid d ((es.map (·.1)).map again)) l with
    | some c' =>
      rw [hlater] at hl
      cases hl
      rw [← laid_congr hh.edit.directory] at hlater
      have hlast := ih hrest (fun g o hg => hdots g o (List.mem_cons_of_mem _ hg)) hlater
      rw [laid_congr hh.edit.directory] at hlast
      rw [hlast]
      rfl
    | none =>
      rw [hlater, Option.none_or] at hl
      obtain ⟨g, hg, rfl, rfl⟩ := mem_laid_iff.1 (Disk.mem_of_last? hl)
      obtain ⟨hgf, howned⟩ := written_mem_again_iff.1 (show (g, .written) ∈ [f].map again from hg)
      obtain rfl : g = f := List.mem_singleton.1 hgf
      obtain rfl := hwhole.eq_written hok List.mem_cons_self howned
      have hstands : d₁.standing (d.target (s.filePath g)) ≠ .nothing := by
        rcases hh with _ | ⟨-, ⟨-, hentry⟩⟩
        rw [← hcongr, Disk.standing_of_entry hentry]
        exact fun h => nomatch h
      rw [← laid_congr hh.edit.directory] at hlater
      have hnone : last? (s.laid d₁ es) (d.target (s.filePath g)) = none :=
        ht.last_eq_none (fun k o hk => hdots k o (List.mem_cons_of_mem _ hk)) hstands hlater
      rw [laid_congr hh.edit.directory] at hnone
      rw [hnone, Option.none_or, ← again_of_overwrite howned]
      exact hl

/-- What both exports put on the disk, and how the second one ends. -/
theorem exists_again (hmanifest : s.withManifest = false) (hfirst : s.exportAll files d = .ok x d')
    (hok : x.failures = []) :
    ∃ es d₁, es.map (·.1) = files ∧ s.Trace d es d₁ ∧ x = s.allAccount es ∧
      Lays (s.allLaid d es) d d' ∧
      ∃ d'', s.exportAll files d' = .ok (s.allAccount (files.map again)) d'' ∧
        LaysOnly (s.allLaid d (files.map again)) d' d'' := by
  obtain ⟨x₁, d₁, hfiles, hpackage⟩ := (exportAll_eq_ok_iff hmanifest).1 hfirst
  obtain ⟨rfl, hready, hlays⟩ := exportPackageJson_ok hpackage hok
  obtain ⟨es, rfl, htrace, rfl⟩ := (exportFiles_meets files {}).of_ok hfiles
  have hsettled : ∀ f ∈ es.map (·.1), s.Settled d' f := fun f hf =>
    (exportFiles_settled hfiles hok f hf).kept hlays.edit
  obtain ⟨d₂, hfiles', hlays₁⟩ := exportFiles_again (fun f hf => (hsettled f hf).1) {}
  obtain ⟨d₃, hpackage', hlays₂⟩ := exportPackageJson_of_ready
    (fun h => (hready h).of_lays hlays₁) (s.account {} ((es.map (·.1)).map again))
  have hdir : d₁.directory = d.directory := htrace.edit.directory
  have hdir' : d'.directory = d.directory := hlays.edit.directory.trans hdir
  have hdir₂ : d₂.directory = d.directory := hlays₁.edit.directory.trans hdir'
  rw [packageLaid_congr hdir] at hlays
  rw [laid_congr hdir'] at hlays₁
  rw [packageLaid_congr hdir₂] at hlays₂
  refine ⟨es, d₁, rfl, htrace, rfl, htrace.lays.append hlays, d₃, ?_, ?_⟩
  · rw [allAccount, map_fst_again]
    exact (exportAll_eq_ok_iff hmanifest).2 ⟨_, d₂, hfiles', hpackage'⟩
  · rw [allLaid, map_fst_again]
    exact hlays₁.append hlays₂

/-- The account of the second export. -/
theorem account_again (files : List GeneratedFile) :
    (s.account {} (files.map again)).records
        = (files.filter (·.overwrite)).map (fun f =>
            FileRecord.ofContent (outputPath f s.config) f.content) ∧
      (s.account {} (files.map again)).skipped
        = (files.filter (!·.overwrite)).map (outputPath · s.config) ∧
      (s.account {} (files.map again)).failures = [] := by
  induction files with
  | nil => exact ⟨rfl, rfl, rfl⟩
  | cons f rest ih =>
    simp only [account, List.nil_append, List.map_cons] at ih ⊢
    obtain ⟨hrecords, hskipped, hfailures⟩ := ih
    cases ho : f.overwrite with
    | true =>
      rw [again_of_overwrite ho, List.filter_cons_of_pos ho, List.filter_cons_of_neg (by simp [ho])]
      simp only [List.filterMap_cons, record?, skipped?, failure?, List.map_cons, hrecords]
      exact ⟨rfl, hskipped, hfailures⟩
    | false =>
      have hagain : again f = (f, .skipped) := by rw [again, ho]; rfl
      rw [hagain, List.filter_cons_of_neg (by simp [ho]), List.filter_cons_of_pos (by simp [ho])]
      simp only [List.filterMap_cons, record?, skipped?, failure?, List.map_cons, hskipped]
      exact ⟨hrecords, trivial, hfailures⟩

/-- **Exporting once more.**  After an export without failures, a second one of the same files has
no failures either; it skips the files of the user and writes all others and the description of the
package, in order.  The tree stays as it is exactly if each place had got its last content from a
file that is written again, and it does so if the paths of the user lead only down. -/
theorem exportAll_again (s : ExportSettings) (files : List GeneratedFile) (d d₁ : Disk)
    (x₁ : Exported) (hmanifest : s.withManifest = false)
    (hfirst : s.exportAll files d = .ok x₁ d₁) (hok : x₁.failures = []) :
    ∃ es dₑ, es.map (·.1) = files ∧ s.Trace d es dₑ ∧ x₁ = s.allAccount es ∧
      ∃ x₂ d₂, s.exportAll files d₁ = .ok x₂ d₂ ∧ x₂.failures = [] ∧
        x₂.skipped = (files.filter (!·.overwrite)).map (outputPath · s.config) ∧
        x₂.records = (files.filter (·.overwrite)).map (fun f =>
          FileRecord.ofContent (outputPath f s.config) f.content) ++ s.packageRecords files ∧
        ((∀ l, d₂.standing l = d₁.standing l) ↔
          ∀ l c, last? (s.allLaid d (files.map again)) l = some c →
            last? (s.allLaid d es) l = some c) ∧
        ((∀ f ∈ files, f.overwrite = false → ".." ∉ (s.filePath f).names) →
          ∀ l, d₂.standing l = d₁.standing l) := by
  obtain ⟨es, dₑ, rfl, htrace, rfl, hlays, d₂, hsecond, hlays'⟩ :=
    exists_again hmanifest hfirst hok
  have hnone : es.filterMap s.failure? = [] := hok
  obtain ⟨hrecords, hskipped, hfailures⟩ := account_again (s := s) (es.map (·.1))
  have hsame := hlays'.same_iff hlays fun l c hl => by
    rw [allLaid, map_fst_again, List.mem_append] at hl
    rcases hl with hl | hl
    · exact ⟨c, List.mem_append_left _ (htrace.laid_of_again hnone hl)⟩
    · exact ⟨c, List.mem_append_right _ hl⟩
  refine ⟨es, dₑ, rfl, htrace, rfl, _, d₂, hsecond, hfailures, hskipped, ?_, hsame, fun hdots => ?_⟩
  · rw [allAccount, map_fst_again, hrecords]
  · refine hsame.2 fun l c hl => ?_
    rw [allLaid, map_fst_again, Disk.last?_append] at hl
    rw [allLaid, Disk.last?_append]
    cases hp : last? (s.packageLaid (es.map (·.1)) d) l with
    | some c' => rwa [hp] at hl
    | none =>
      rw [hp, Option.none_or] at hl
      rw [Option.none_or]
      exact htrace.last_of_downward hnone
        (fun f o hf => hdots f (List.mem_map.2 ⟨_, hf, rfl⟩)) hl

/-- The first export of the plan to the workspace, in which the index is a file. -/
theorem exportAll_twoFiles : ∃ d',
    (toPackages false).exportAll twoFiles (workspace (.file "old".toUTF8)) = .ok
      ((toPackages false).allAccount (twoOutcomes ++ [(indexFile, .written)])) d' := by
  have hmap : (twoOutcomes ++ [(indexFile, Outcome.written)]).map (·.1) = twoFiles :=
    List.map_append
  have hpath : (toPackages false).filePath indexFile = ⟨"/", ["models", "index.ts"]⟩ := by
    decide +kernel
  have hindex : Ready (workspace (.file "old".toUTF8)) ⟨"/", ["models", "index.ts"]⟩ true :=
    ⟨rfl, (fun h => nomatch h), by decide⟩
  have hforeseen : ∀ f o, (f, o) ∈ twoOutcomes ++ [(indexFile, Outcome.written)] →
      (toPackages false).Foreseen (workspace (.file "old".toUTF8)) (f, o) := by
    intro f o h
    rcases List.mem_append.1 h with h | h
    · exact foreseen_twoOutcomes false _ f o h
    · cases List.mem_singleton.1 h
      exact .written (hpath ▸ hindex) (.inl rfl)
  have hnodup : ((twoOutcomes ++ [(indexFile, Outcome.written)]).map fun e =>
      (workspace (.file "old".toUTF8)).target ((toPackages false).filePath e.1)).Nodup := by
    have h : (twoFiles.map fun f =>
        (workspace (.file "old".toUTF8)).target ((toPackages false).filePath f)).Nodup := by
      rw [target_twoFiles]
      decide
    rwa [← hmap, List.map_map] at h
  obtain ⟨d₁, hfiles, hlays⟩ := exportFiles_foreseen hforeseen (spaced_of_nodup hnodup) {}
  have hpackage : Ready d₁ ((toPackages false).pathOf
      (packageJsonPath (toPackages false).config)) true := by
    rw [pathOf_packageJsonPath]
    exact (ready_workspace (.file "old".toUTF8) _ (by decide)).of_lays hlays
  obtain ⟨d₂, hdescribed, -⟩ := exportPackageJson_of_ready (fun _ => hpackage)
    ((toPackages false).account {} (twoOutcomes ++ [(indexFile, .written)]))
  rw [hmap] at hfiles
  refine ⟨d₂, (exportAll_eq_ok_iff rfl).2 ⟨_, d₁, hfiles, ?_⟩⟩
  rw [hdescribed, allAccount, hmap]

theorem exportAll_again_twoEntities :
    plan twoEntities (toPackages false).config = .ok twoFiles ∧
      (toPackages false).withManifest = false ∧
      ∃ x₁ d₁,
        (toPackages false).exportAll twoFiles (workspace (.file "old".toUTF8)) = .ok x₁ d₁ ∧
          x₁.failures = [] ∧ x₁.skipped = ["models/User.ts"] ∧
          ∃ x₂ d₂, (toPackages false).exportAll twoFiles d₁ = .ok x₂ d₂ ∧ x₂.failures = [] ∧
            x₂.skipped = ["models/User.ts", "models/Post.ts"] ∧
            x₂.records.map (·.path) =
              ["node_modules/@schema-base/schemas/User.ts",
               "node_modules/@schema-base/schemas/Post.ts",
               "node_modules/@schema-base/schemas/common.ts",
               "node_modules/@schema-base/schemas/i18n.ts", "models/index.ts",
               "node_modules/@schema-base/package.json"] ∧
            ∀ l, d₂.standing l = d₁.standing l := by
  obtain ⟨d₁, hfirst⟩ := exportAll_twoFiles
  obtain ⟨_, _, -, -, -, x₂, d₂, hsecond, hok, hskipped, hrecords, -, hsame⟩ :=
    exportAll_again (toPackages false) twoFiles _ d₁ _ rfl hfirst rfl
  refine ⟨plan_twoEntities, rfl, _, d₁, hfirst, rfl, ?_, x₂, d₂, hsecond, hok, ?_, ?_,
    hsame (by decide +kernel)⟩
  · decide +kernel
  · rw [hskipped]
    decide +kernel
  · rw [hrecords]
    decide +kernel

/-! ## 6. A file of the user over another file -/

/-- Settings that lead the model files by a detour to where the package has its files. -/
def detour : Config :=
  { layout := .package, modelsPath := "x/../node_modules/@schema-base/schemas" }

/-- One entity. -/
def oneEntity : Collection := ⟨[{ name := "User" }]⟩

/-- Its file in the package. -/
def baseFile : GeneratedFile :=
  (planBase oneEntity detour (.ofConfig detour) { name := "User" }).toFile

/-- Its model file. -/
def modelFile : GeneratedFile := (planModel detour (.ofConfig detour) { name := "User" }).toFile

/-- The files of the plan behind these two. -/
def restFiles : List GeneratedFile :=
  [(planCommon detour (.ofConfig detour)).toFile, (planI18n detour (.ofConfig detour)).toFile,
   (planIndex oneEntity detour (.ofConfig detour)).toFile]

/-- Settings of an export of that plan. -/
def toPackage : ExportSettings := { config := detour, directory := ⟨"/", []⟩ }

theorem plan_oneEntity : plan oneEntity detour = .ok (baseFile :: modelFile :: restFiles) :=
  plan_eq_ok_iff.2 ⟨_, planModules_eq_ok_iff.2 ⟨by decide, [], rfl, rfl, rfl⟩, rfl⟩

theorem filePath_baseFile : toPackage.filePath baseFile = ⟨"/", inPackage "User.ts"⟩ := by
  decide +kernel

theorem filePath_modelFile :
    toPackage.filePath modelFile = ⟨"/", "x" :: ".." :: inPackage "User.ts"⟩ := by
  decide +kernel

theorem filePath_restFiles : restFiles.map toPackage.filePath =
    [⟨"/", inPackage "common.ts"⟩, ⟨"/", inPackage "i18n.ts"⟩,
     ⟨"/", "x" :: ".." :: inPackage "index.ts"⟩] := by
  decide +kernel

theorem pathOf_packageJson : toPackage.pathOf (packageJsonPath detour)
    = ⟨"/", ["node_modules", "@schema-base", "package.json"]⟩ := by
  decide +kernel

/-- The two files differ in the first line of their headers. -/
theorem content_baseFile_ne : baseFile.content ≠ modelFile.content := by
  obtain ⟨_, hbase⟩ : ∃ rest, baseFile.content = "/**\n"
      ++ TypeScript.trimEnd (" * " ++ "⚠️ DO NOT EDIT THIS FILE! ⚠️") ++ rest :=
    TypeScript.SourceFile.exists_text_of_header _ rfl
  obtain ⟨_, hmodel⟩ : ∃ rest, modelFile.content = "/**\n"
      ++ TypeScript.trimEnd (" * " ++ ("User" ++ " Model")) ++ rest :=
    TypeScript.SourceFile.exists_text_of_header _ rfl
  have hbaseLine : TypeScript.trimEnd (" * " ++ "⚠️ DO NOT EDIT THIS FILE! ⚠️")
      = " * ⚠️ DO NOT EDIT THIS FILE! ⚠️" := by decide +kernel
  have hmodelLine : TypeScript.trimEnd (" * " ++ ("User" ++ " Model")) = " * User Model" := by
    decide +kernel
  rw [hbase, hmodel, hbaseLine, hmodelLine]
  intro h
  have hlist := congrArg String.toList h
  simp at hlist

/-- The disk with the file of the entity in the package, and further entries of the root. -/
def packaged (content : String) (others : List (String × Entry)) : Disk :=
  ⟨.directory (("node_modules", .directory [("@schema-base", .directory
    [("schemas", .directory [("User.ts", .file content.toUTF8)])])]) :: others), []⟩

section Packaged

variable (content : String)

theorem writeFile_packaged :
    FileAction.writeFile ⟨"/", inPackage "User.ts"⟩ content true default
      = .ok content.utf8ByteSize (packaged content []) := rfl

/-- The model file is not seen there as long as the detour is missing. -/
theorem exists_packaged :
    FileAction.exists? ⟨"/", "x" :: ".." :: inPackage "User.ts"⟩ (packaged content [])
      = .ok false (packaged content []) := rfl

theorem makeDirectories_packaged :
    FileAction.makeDirectories (Pathname.parent ⟨"/", "x" :: ".." :: inPackage "User.ts"⟩)
        (packaged content [])
      = .ok () (packaged content [("x", .directory [])]) := rfl

theorem ready_packaged : ∀ p ∈ (⟨"/", "x" :: ".." :: inPackage "User.ts"⟩ : Pathname) ::
    ⟨"/", ["node_modules", "@schema-base", "package.json"]⟩ :: restFiles.map toPackage.filePath,
    Ready (packaged content [("x", .directory [])]) p true := by
  rw [filePath_restFiles]
  simp only [List.forall_mem_cons, List.not_mem_nil, false_implies, implies_true, and_true]
  refine ⟨?_, ?_, ?_, ?_, ?_⟩ <;> exact ⟨rfl, (fun h => nomatch h), by decide⟩

end Packaged

/-- Neither the further files nor the description of the package have the place of the file of the
entity. -/
theorem target_ne_inPackage (d : Disk) {p : Pathname}
    (hp : p ∈ toPackage.pathOf (packageJsonPath detour) :: restFiles.map toPackage.filePath) :
    d.target p ≠ inPackage "User.ts" := by
  rw [pathOf_packageJson, filePath_restFiles] at hp
  simp only [List.mem_cons, List.not_mem_nil, or_false] at hp
  rcases hp with rfl | rfl | rfl | rfl <;> rw [target_absolute] <;> decide

/-- Files that are written again are put nowhere else. -/
theorem not_mem_laid_restFiles (d : Disk) (content : String) :
    (inPackage "User.ts", content) ∉ toPackage.laid d (restFiles.map again) := by
  intro h
  obtain ⟨f, hf, hplace, -⟩ := mem_laid_iff.1 h
  have hmem : toPackage.filePath f ∈ restFiles.map toPackage.filePath :=
    List.mem_map_of_mem (written_mem_again_iff.1 hf).1
  exact target_ne_inPackage d (List.mem_cons_of_mem _ hmem) hplace.symm

theorem not_mem_packageLaid (d : Disk) (content : String) (files : List GeneratedFile) :
    (inPackage "User.ts", content) ∉ toPackage.packageLaid files d := by
  intro h
  unfold packageLaid at h
  split at h
  · obtain ⟨hplace, -⟩ := Prod.mk.inj (List.mem_singleton.1 h)
    exact target_ne_inPackage d List.mem_cons_self hplace.symm
  · exact (List.not_mem_nil h).elim

/-- The files behind those of the entity are written, and so is the description of the package. -/
theorem exportRest {d : Disk} {content : String} {ws : List (Location × String)}
    (hlays : LaysOnly ws (packaged content [("x", .directory [])]) d) (x : Exported) :
    ∃ x' d₁ d', toPackage.exportFiles restFiles x d = .ok x' d₁ ∧ x'.failures = x.failures ∧
      (∃ x'', toPackage.exportPackageJson (baseFile :: modelFile :: restFiles) x' d₁ = .ok x'' d' ∧
        x''.failures = x'.failures) ∧
      d'.standing (inPackage "User.ts") = d.standing (inPackage "User.ts") := by
  have hready := ready_packaged content
  have hprepared : ∀ f ∈ restFiles, toPackage.Prepared d f := by
    intro f hf
    have howned : f.overwrite = true := by
      simp only [restFiles, List.mem_cons, List.not_mem_nil, or_false] at hf
      rcases hf with rfl | rfl | rfl <;> rfl
    have hmem : toPackage.filePath f ∈ restFiles.map toPackage.filePath := List.mem_map_of_mem hf
    exact (prepared_of_ready howned
      (hready _ (List.mem_cons_of_mem _ (List.mem_cons_of_mem _ hmem)))).kept hlays
  obtain ⟨d₁, hrest, hlays₁⟩ := exportFiles_again hprepared x
  have hpackage : Ready d₁ (toPackage.pathOf (packageJsonPath toPackage.config))
      toPackage.atomic := by
    have hd := hready _ (List.mem_cons_of_mem _ List.mem_cons_self)
    rw [← pathOf_packageJson] at hd
    exact (hd.of_lays hlays).of_lays hlays₁
  obtain ⟨d', hdescribes, hlays'⟩ := exportPackageJson_of_ready (fun _ => hpackage)
    (toPackage.account x (restFiles.map again))
  refine ⟨_, d₁, d', hrest, List.append_nil _, ⟨_, hdescribes, rfl⟩, ?_⟩
  rw [hlays'.only _ fun c => not_mem_packageLaid d₁ c _,
    hlays₁.only _ fun c => not_mem_laid_restFiles d c]

/-- The first export of the plan writes the model file over the file in the package. -/
theorem exportAll_detour : ∃ x d,
    toPackage.exportAll (baseFile :: modelFile :: restFiles) default = .ok x d ∧
      x.failures = [] ∧ d.standing (inPackage "User.ts") = .file modelFile.content.toUTF8 := by
  have hready := ready_packaged baseFile.content _ List.mem_cons_self
  -- the file in the package comes first, and the question for the model file does not see it
  have hbase := exportOne_of_writeFile (s := toPackage) (f := baseFile) (.inl rfl)
    (by rw [filePath_baseFile]; exact writeFile_packaged baseFile.content) {}
  obtain ⟨d, hwrite, hputs⟩ := FileAction.writeFile_of_makeDirectories
    (makeDirectories_packaged baseFile.content) hready modelFile.content
  have hmodel := exportOne_of_writeFile (s := toPackage) (f := modelFile)
    (.inr (by rw [filePath_modelFile]; exact exists_packaged baseFile.content))
    (by rw [filePath_modelFile]; exact hwrite)
  obtain ⟨x, d₁, d', hrest, hx, ⟨x', hpackage, hx'⟩, hsame⟩ :=
    exportRest (.of_puts hputs hready.free) _
  refine ⟨x', d', (exportAll_eq_ok_iff rfl).2 ⟨x, d₁, ?_, hpackage⟩, ?_, ?_⟩
  · rw [exportFiles, bind_of_ok hbase, exportFiles, bind_of_ok (hmodel _)]
    exact hrest
  · exact hx'.trans hx
  · rw [hsame]
    exact hputs.self

/-- What the second export puts there is the file in the package. -/
theorem last_again_detour : last? (toPackage.allLaid default
    ((baseFile :: modelFile :: restFiles).map again)) (inPackage "User.ts")
      = some baseFile.content := by
  have htarget : (default : Disk).target (toPackage.filePath baseFile) = inPackage "User.ts" := by
    rw [filePath_baseFile]
    decide
  refine Disk.last?_eq_some_of_unique ?_ fun c hc => ?_
  · refine List.mem_append_left _ (mem_laid_iff.2 ⟨baseFile, ?_, htarget.symm, rfl⟩)
    exact written_mem_again_iff.2 ⟨List.mem_cons_self, rfl⟩
  · rcases List.mem_append.1 hc with hc | hc
    · obtain ⟨f, hf, hplace, rfl⟩ := mem_laid_iff.1 hc
      obtain ⟨hmem, howned⟩ := written_mem_again_iff.1 hf
      rcases List.mem_cons.1 hmem with rfl | hmem
      · rfl
      · rcases List.mem_cons.1 hmem with rfl | hmem
        · exact nomatch howned
        · refine absurd (mem_laid_iff.2 ⟨f, ?_, hplace, rfl⟩) (not_mem_laid_restFiles _ f.content)
          exact written_mem_again_iff.2 ⟨hmem, howned⟩
    · exact absurd hc (not_mem_packageLaid _ c _)

/-- **The second export does not leave the tree as it is**: it writes the file in the package over
the model file of the user. -/
theorem exportAll_again_detour : ∃ files x₁ d₁ x₂ d₂,
    plan oneEntity detour = .ok files ∧ modelFile ∈ files ∧ modelFile.overwrite = false ∧
      toPackage.exportAll files default = .ok x₁ d₁ ∧ x₁.failures = [] ∧
      d₁.standing (d₁.target (toPackage.filePath modelFile)) = .file modelFile.content.toUTF8 ∧
      toPackage.exportAll files d₁ = .ok x₂ d₂ ∧
      d₂.standing (d₁.target (toPackage.filePath modelFile))
        ≠ .file modelFile.content.toUTF8 := by
  obtain ⟨x₁, d₁, hfirst, hok, hstands⟩ := exportAll_detour
  obtain ⟨_, _, -, -, -, -, d₂, hsecond, hlays⟩ := exists_again rfl hfirst hok
  have hplace : d₁.target (toPackage.filePath modelFile) = inPackage "User.ts" := by
    rw [filePath_modelFile, target_absolute]
    decide
  refine ⟨_, x₁, d₁, _, d₂, plan_oneEntity, List.mem_cons_of_mem _ List.mem_cons_self, rfl, hfirst,
    hok, hplace ▸ hstands, hsecond, ?_⟩
  rw [hplace, hlays.last _ _ last_again_detour]
  intro h
  injection h with h
  exact content_baseFile_ne (String.toByteArray_inj.1 h)

end ExportSettings

end SchemaTypes.Output
