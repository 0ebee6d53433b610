/-
# The three ways to run

The program checks a snapshot, rehearses a run on it, or exports its files.  The check reads and
judges the snapshot on its own, the two runs by way of a report; all three come to one verdict
(`modes_agree`):

* a snapshot that cannot be read ends all three in the same way, and so does one that is not
  accepted.  Nothing on the disk changes;
* an accepted snapshot has a plan, and the check and the rehearsal succeed.  The export succeeds,
  or it ends with the status for files that were not written, exactly if there is such a file;
  where it halts, it has no status.

The check and the rehearsal do not ask what the disk can take, and so an export may halt that was
rehearsed (`export_halts_rehearsed`).
-/
import SchemaTypes.CommandLine.Program
import SchemaTypes.Proofs.Output.UserFiles
import SchemaTypes.Proofs.Output.Writable
import SchemaTypes.Proofs.Reading.Loading
import SchemaTypes.Proofs.Reading.Overrides

namespace SchemaTypes

/-! ## 1. Absolute paths -/

/-- An absolute form has no null byte that was not there before. -/
theorem Pathname.hasNull_resolve {directory : List String} {p : Pathname}
    (hdir : Disk.hasNull directory = false) (h : Disk.hasNull p.names = false) :
    Disk.hasNull (p.resolve directory).names = false := by
  simp only [Disk.hasNull, List.any_eq_false] at hdir h ⊢
  intro name hm
  have hm := (Path.mem_reduce (List.mem_reverse.1 hm)).1
  split at hm
  · exact h name hm
  · exact (List.mem_append.1 hm).elim (hdir name) (h name)

theorem FileAction.resolve_eq {p : Pathname} (h : Disk.hasNull p.names = false) (d : Disk) :
    resolve p d = .ok (p.resolve d.directory) d := by
  rw [resolve, ofLookup, h]
  rfl

/-! ## 2. Parts of a run -/

namespace Run

theorem onDisk_of_ok {x : FileAction α} {d d' : Disk} {a : α} (h : x d = .ok a d') :
    onDisk x d = .ok a d' := by
  rw [onDisk, h]

theorem onDisk_of_error {x : FileAction α} {d d' : Disk} {f : Fault} (h : x d = .error f d') :
    onDisk x d = .error (.fault f) d' := by
  rw [onDisk, h]

/-- What a reading gives does not touch the disk. -/
theorem disk_of_settle {r : Except ReadFailure α} {d d' : Disk} {a : Except LoadError α}
    (h : settle r d = .ok a d') : d' = d := by
  rcases r with (_ | _ | _) | _ <;> cases h <;> rfl

/-- Reading for a run is reading for a check. -/
theorem readSnapshot_eq (path : Pathname) (overrides : List (String × Value)) :
    readSnapshot path overrides = CommandLine.readOverridden path overrides := by
  unfold readSnapshot CommandLine.readOverridden
  simp only [Snapshot.ofEntriesWith_eq]

/-- Reading leaves the disk as it is. -/
theorem disk_of_readOverridden {path : Pathname} {overrides : List (String × Value)} {d d' : Disk}
    {read : Except LoadError Snapshot}
    (h : CommandLine.readOverridden path overrides d = .ok read d') : d' = d := by
  unfold CommandLine.readOverridden at h
  rcases SnapshotFile.load_reads path d with ⟨hload, rfl⟩ | ⟨hload, -⟩
  · rw [bind_of_ok (onDisk_of_ok hload)] at h
    exact disk_of_settle h
  · rw [bind_of_error (onDisk_of_error hload)] at h
    exact nomatch h

/-! ## 3. Reports -/

/-- The report on a snapshot that was read and checked. -/
def checkedReport (s : Settings) (path output : Pathname) (snapshot : Snapshot) : Report :=
  { (startReport s output).afterReading path (.ok snapshot) with
    schemaCount := snapshot.collection.schemas.length
    config := some snapshot.config }.afterCheck s
      (Check.validate snapshot.collection snapshot.config)

theorem Report.hasSucceeded_addStep (r : Report) (name : String) (success : Bool)
    (detail : String) :
    (r.addStep name success detail).hasSucceeded = (r.hasSucceeded && success) := by
  simp [hasSucceeded, addStep, Bool.and_assoc]

/-- An export adds a failure if a file was not written. -/
theorem Report.hasSucceeded_afterExport (r : Report) (settings : Output.ExportSettings)
    (x : Output.Exported) :
    (r.afterExport settings x).hasSucceeded = (r.hasSucceeded && x.failures.isEmpty) := by
  unfold afterExport
  rw [hasSucceeded_addStep, Output.Exported.isSuccess]
  cases x.failures with
  | nil => simp [hasSucceeded]
  | cons f rest => rw [List.isEmpty_cons, Bool.and_false, Bool.and_false]

theorem Report.validationFailed_addStep (r : Report) (name : String) (success : Bool)
    (detail : String) :
    (r.addStep name success detail).validationFailed
      = (r.validationFailed || name == validationStep && !success) := by
  simp [validationFailed, addStep, Bool.or_assoc]

/-- Neither a plan nor an export touches the step of the check. -/
theorem Report.validationFailed_afterPlan (r : Report) (files : List Output.GeneratedFile) :
    (r.afterPlan (.ok files)).validationFailed = r.validationFailed := by
  have hname : ("Plan Files" == validationStep) = false := by decide
  refine (validationFailed_addStep _ _ _ _).trans ?_
  rw [hname, Bool.false_and, Bool.or_false]
  rfl

theorem Report.validationFailed_afterExport (r : Report) (settings : Output.ExportSettings)
    (x : Output.Exported) :
    (r.afterExport settings x).validationFailed = r.validationFailed := by
  have hname : ("Export to Filesystem" == validationStep) = false := by decide
  refine (validationFailed_addStep _ _ _ _).trans ?_
  rw [hname, Bool.false_and, Bool.or_false]
  rfl

/-- A run behind its reading. -/
def Settings.goOn (s : Settings) (path output : Pathname) (read : Except LoadError Snapshot) :
    Action Report :=
  let r := (startReport s output).afterReading path read
  match read with
  | .ok snapshot => runFrom s snapshot output r
  | .error _ => pure r.finish

/-- The settings of the export of a run. -/
def Settings.exporting (s : Settings) (snapshot : Snapshot) (output : Pathname) :
    Output.ExportSettings :=
  { config := snapshot.config, directory := output, withManifest := s.withManifest
    timestamp := s.timestamp }

variable {s : Settings} {path output : Pathname} {snapshot : Snapshot} {d d' : Disk}

/-- **The report on a checked snapshot** has no failure if the snapshot is accepted, and
otherwise the one of the check. -/
theorem hasSucceeded_checkedReport :
    (checkedReport s path output snapshot).hasSucceeded
      = s.accepts (Check.validate snapshot.collection snapshot.config) := by
  unfold checkedReport Report.afterCheck
  rw [Report.hasSucceeded_addStep]
  cases h : s.accepts (Check.validate snapshot.collection snapshot.config) with
  | false => exact Bool.and_false _
  | true =>
    rw [(Settings.accepts_iff.1 h).1]
    rfl

theorem validationFailed_checkedReport :
    (checkedReport s path output snapshot).validationFailed
      = !s.accepts (Check.validate snapshot.collection snapshot.config) := by
  unfold checkedReport Report.afterCheck
  rw [Report.validationFailed_addStep]
  cases h : s.accepts (Check.validate snapshot.collection snapshot.config) with
  | false => exact Bool.or_true _
  | true =>
    rw [(Settings.accepts_iff.1 h).1]
    rfl

/-- An accepted snapshot has a plan, unless its further data have no written form. -/
theorem exists_plan_of_accepts
    (h : s.accepts (Check.validate snapshot.collection snapshot.config) = true)
    (hplan : ∀ u, Output.plan snapshot.collection snapshot.config ≠ .error (.unwritable u)) :
    ∃ files, Output.plan snapshot.collection snapshot.config = .ok files := by
  cases hp : Output.plan snapshot.collection snapshot.config with
  | ok files => exact ⟨files, rfl⟩
  | error e =>
    cases e with
    | unwritable u => exact absurd hp (hplan u)
    | collisions cs =>
      have hvalid : (Check.validate snapshot.collection snapshot.config).isValid = true := by
        rw [Settings.accepts, Bool.and_eq_true] at h
        exact h.1
      exact absurd (Output.collisions_eq_nil_of_isValid hvalid)
        (Output.plan_eq_error_collisions_iff.1 hp).1

/-- A run on a snapshot that is not accepted. -/
theorem runFrom_of_refused
    (h : s.accepts (Check.validate snapshot.collection snapshot.config) = false) :
    runFrom s snapshot output ((startReport s output).afterReading path (.ok snapshot)) d
      = .ok (checkedReport s path output snapshot).finish d := by
  unfold runFrom
  simp only [h]
  rfl

section Accepted

variable {files : List Output.GeneratedFile}
  (h : s.accepts (Check.validate snapshot.collection snapshot.config) = true)
  (hfiles : Output.plan snapshot.collection snapshot.config = .ok files)

include h hfiles

/-- A run on an accepted snapshot comes to its plan. -/
theorem runFrom_of_accepted :
    runFrom s snapshot output ((startReport s output).afterReading path (.ok snapshot)) d
      = (if s.dryRun then
          pure ((checkedReport s path output snapshot).afterPlan (.ok files)).finish
        else
          exportFiles s snapshot.config output files
              ((checkedReport s path output snapshot).afterPlan (.ok files)) >>=
            fun r => pure r.finish : Action Report) d := by
  have hplan : planFiles snapshot = pure (.ok files) := by rw [planFiles, hfiles]
  unfold runFrom
  simp only [h, hplan]
  rfl

theorem runFrom_of_rehearsed (hdry : s.dryRun = true) :
    runFrom s snapshot output ((startReport s output).afterReading path (.ok snapshot)) d
      = .ok ((checkedReport s path output snapshot).afterPlan (.ok files)).finish d := by
  rw [runFrom_of_accepted h hfiles, if_pos hdry]
  rfl

theorem runFrom_of_exported (hdry : s.dryRun = false) {x : Output.Exported}
    (hx : (s.exporting snapshot output).exportAll files d = .ok x d') :
    runFrom s snapshot output ((startReport s output).afterReading path (.ok snapshot)) d
      = .ok (((checkedReport s path output snapshot).afterPlan (.ok files)).afterExport
          (s.exporting snapshot output) x).finish d' := by
  rw [runFrom_of_accepted h hfiles, hdry]
  refine bind_of_ok ?_
  exact bind_of_ok (onDisk_of_ok hx)

theorem runFrom_of_halted (hdry : s.dryRun = false) {f : Fault}
    (hx : (s.exporting snapshot output).exportAll files d = .error f d') :
    runFrom s snapshot output ((startReport s output).afterReading path (.ok snapshot)) d
      = .error (.fault f) d' := by
  rw [runFrom_of_accepted h hfiles, hdry]
  refine bind_of_error ?_
  exact bind_of_error (onDisk_of_error hx)

end Accepted

end Run

namespace CommandLine

open Output.ExportSettings (longName hasNull_longName not_mem_longName utf8ByteSize_longName)
open Run (Action Report Settings checkedReport)

/-! ## 4. Statuses -/

section Statuses

variable {s : Settings} {path output : Pathname} {snapshot : Snapshot}

theorem ofReport_finish (r : Report) :
    Status.ofReport r.finish
      = if r.hasSucceeded then .success
        else if r.validationFailed then .invalid
        else if !r.exportErrors.isEmpty then .notExported
        else if !r.inputErrors.isEmpty then .badInput
        else .notGenerated := rfl

theorem ofReport_of_unread (e : LoadError) :
    Status.ofReport ((Run.startReport s output).afterReading path (.error e)).finish
      = .badInput := rfl

theorem ofReport_of_refused
    (h : s.accepts (Check.validate snapshot.collection snapshot.config) = false) :
    Status.ofReport (checkedReport s path output snapshot).finish = .invalid := by
  rw [ofReport_finish, Run.hasSucceeded_checkedReport, Run.validationFailed_checkedReport, h]
  rfl

variable {files : List Output.GeneratedFile}
  (h : s.accepts (Check.validate snapshot.collection snapshot.config) = true)

include h

/-- The report on a plan has no failure. -/
theorem hasSucceeded_planned :
    ((checkedReport s path output snapshot).afterPlan (.ok files)).hasSucceeded = true :=
  (Report.hasSucceeded_addStep _ _ _ _).trans
    ((Bool.and_true _).trans (Run.hasSucceeded_checkedReport.trans h))

theorem ofReport_of_rehearsed :
    Status.ofReport ((checkedReport s path output snapshot).afterPlan (.ok files)).finish
      = .success :=
  if_pos (hasSucceeded_planned h)

theorem ofReport_of_exported (settings : Output.ExportSettings) (x : Output.Exported) :
    Status.ofReport (((checkedReport s path output snapshot).afterPlan (.ok files)).afterExport
        settings x).finish
      = if x.failures = [] then .success else .notExported := by
  -- the check has not failed, and so it is the export that gives the status
  have hchecked : (checkedReport s path output snapshot).validationFailed = false := by
    rw [Run.validationFailed_checkedReport, h]
    rfl
  rw [ofReport_finish, Report.hasSucceeded_afterExport, hasSucceeded_planned h,
    Report.validationFailed_afterExport, Report.validationFailed_afterPlan, hchecked]
  have hnoted : (((checkedReport s path output snapshot).afterPlan (.ok files)).afterExport
      settings x).exportErrors = x.failures.map Output.WriteFailure.message := rfl
  rw [hnoted]
  cases x.failures <;> rfl

end Statuses

/-! ## 5. The ways to run -/

/-- A way to run: the check, the dry run, or the run that writes. -/
inductive Mode where
  | check
  | dry
  | full
deriving DecidableEq, Repr

/-- The options for a way to run. -/
def Mode.options (o : Options) : Mode → Options
  | .check => { o with validateOnly := true }
  | .dry => { o with validateOnly := false, dryRun := true }
  | .full => { o with validateOnly := false, dryRun := false }

/-- Where the snapshot is that the options name. -/
def Options.source (o : Options) (d : Disk) : Pathname :=
  (Pathname.ofText o.schema).resolve d.directory

/-- The absolute path of an output directory. -/
def outputOf (out : String) (d : Disk) : Pathname := (Pathname.ofText out).resolve d.directory

/-- The options name something that exists and an output directory, in names without null bytes,
as arguments of a program are. -/
structure Options.Given (o : Options) (d : Disk) (out : String) : Prop where
  output : o.output = some out
  directory : Disk.hasNull d.directory = false
  schemaNames : Disk.hasNull (Pathname.ofText o.schema).names = false
  outputNames : Disk.hasNull (Pathname.ofText out).names = false
  source : FileAction.exists? (o.source d) d = .ok true d

/-- The snapshot has no errors, and no warnings if these count. -/
def Options.accepts (o : Options) (snapshot : Snapshot) : Bool :=
  (o.settings "").accepts (Check.validate snapshot.collection snapshot.config)

/-- How a check ends on what is read, and a run that does not come to its export. -/
def Options.verdict (o : Options) : Except LoadError Snapshot → Status
  | .error _ => .badInput
  | .ok snapshot => if o.accepts snapshot then .success else .invalid

/-- An action ends with a status and leaves the disk as it is. -/
def EndsWith (x : Action Outcome) (d : Disk) (s : Status) : Prop :=
  ∃ a, x d = .ok a d ∧ a.code = s.code

section Modes

variable {o : Options} {d d' : Disk} {out timestamp : String} {read : Except LoadError Snapshot}

theorem runOptions_of_check (hgiven : o.Given d out) (hmode : o.validateOnly = true) :
    runOptions o timestamp d = validateOnly o (o.source d) d := by
  unfold runOptions
  rw [bind_of_ok (Run.onDisk_of_ok (FileAction.resolve_eq hgiven.schemaNames d))]
  refine (bind_of_ok (Run.onDisk_of_ok hgiven.source)).trans ?_
  simp only [hmode]
  rfl

theorem runOptions_of_generate (hgiven : o.Given d out) (hmode : o.validateOnly = false) :
    runOptions o timestamp d
      = generate o timestamp (o.source d) (outputOf out d) d := by
  unfold runOptions
  rw [bind_of_ok (Run.onDisk_of_ok (FileAction.resolve_eq hgiven.schemaNames d))]
  refine (bind_of_ok (Run.onDisk_of_ok hgiven.source)).trans ?_
  simp only [hmode, hgiven.output]
  exact bind_of_ok (Run.onDisk_of_ok (FileAction.resolve_eq hgiven.outputNames d))

/-- **The check** ends with the verdict. -/
theorem check_ends (hgiven : o.Given d out) (hmode : o.validateOnly = true)
    (hread : readOverridden (o.source d) o.overrides d = .ok read d) :
    EndsWith (runOptions o timestamp) d (o.verdict read) := by
  rw [EndsWith, runOptions_of_check hgiven hmode, validateOnly, bind_of_ok hread]
  cases read with
  | error e => exact ⟨_, rfl, rfl⟩
  | ok snapshot => exact ⟨_, rfl, rfl⟩

/-- A run ends as its report says. -/
theorem ends_of_report (hgiven : o.Given d out) (hmode : o.validateOnly = false) {r : Report}
    (hrun : Run.generateFrom (o.settings timestamp) (o.source d) (outputOf out d) o.overrides d
      = .ok r d') :
    ∃ a, runOptions o timestamp d = .ok a d' ∧ a.code = (Status.ofReport r).code ∧
      a.report = some r := by
  rw [runOptions_of_generate hgiven hmode, generate, bind_of_ok hrun]
  exact ⟨_, rfl, rfl, rfl⟩

/-- A run reads what the check reads, and goes on from there. -/
theorem generateFrom_of_given (hgiven : o.Given d out)
    (hread : readOverridden (o.source d) o.overrides d = .ok read d) (s : Settings) :
    Run.generateFrom s (o.source d) (outputOf out d) o.overrides d
      = s.goOn (o.source d) (outputOf out d) read d := by
  have hnames : Disk.hasNull (outputOf out d).names = false :=
    Pathname.hasNull_resolve hgiven.directory hgiven.outputNames
  have habsolute : (outputOf out d).resolve d.directory = outputOf out d :=
    Pathname.resolve_resolve _ _
  unfold Run.generateFrom
  rw [bind_of_ok (Run.onDisk_of_ok (FileAction.resolve_eq hnames d)), habsolute,
    Run.readSnapshot_eq, bind_of_ok hread]
  cases read <;> rfl

/-- **A run that does not come to its export** ends with the verdict. -/
theorem run_ends (hgiven : o.Given d out) (hmode : o.validateOnly = false)
    (hread : readOverridden (o.source d) o.overrides d = .ok read d)
    (hplan : ∀ snapshot, read = .ok snapshot → o.accepts snapshot = true →
      o.dryRun = true ∧ ∃ files, Output.plan snapshot.collection snapshot.config = .ok files) :
    EndsWith (runOptions o timestamp) d (o.verdict read) := by
  have hreport : ∃ r, Run.generateFrom (o.settings timestamp) (o.source d) (outputOf out d)
      o.overrides d = .ok r d ∧ Status.ofReport r = o.verdict read := by
    rw [generateFrom_of_given hgiven hread]
    cases read with
    | error e => exact ⟨_, rfl, ofReport_of_unread e⟩
    | ok snapshot =>
      cases haccepts : o.accepts snapshot with
      | false =>
        have h : (o.settings timestamp).accepts
            (Check.validate snapshot.collection snapshot.config) = false := haccepts
        refine ⟨_, Run.runFrom_of_refused h, ?_⟩
        rw [ofReport_of_refused h, Options.verdict, haccepts]
        rfl
      | true =>
        have h : (o.settings timestamp).accepts
            (Check.validate snapshot.collection snapshot.config) = true := haccepts
        obtain ⟨hdry, files, hfiles⟩ := hplan snapshot rfl haccepts
        refine ⟨_, Run.runFrom_of_rehearsed h hfiles hdry, ?_⟩
        rw [ofReport_of_rehearsed h, Options.verdict, haccepts]
        rfl
  obtain ⟨r, hrun, hstatus⟩ := hreport
  obtain ⟨a, ha, hcode, -⟩ := ends_of_report hgiven hmode hrun
  exact ⟨a, ha, hstatus ▸ hcode⟩

/-- **A run that comes to its export** halts where the export does, and otherwise ends as the
export says. -/
theorem run_exports (hgiven : o.Given d out) (hmode : o.validateOnly = false)
    (hdry : o.dryRun = false) {snapshot : Snapshot} {files : List Output.GeneratedFile}
    (hread : readOverridden (o.source d) o.overrides d = .ok (.ok snapshot) d)
    (haccepts : o.accepts snapshot = true)
    (hfiles : Output.plan snapshot.collection snapshot.config = .ok files) :
    ((∃ crash d', runOptions o timestamp d = .error crash d') ↔
        ((o.settings timestamp).exporting snapshot (outputOf out d)).Halts files {} d) ∧
      ∀ a d', runOptions o timestamp d = .ok a d' →
        ∃ x, ((o.settings timestamp).exporting snapshot (outputOf out d)).exportAll files d
            = .ok x d' ∧
          a.report.bind (·.exported) = some x ∧
          (a.code = Status.success.code ∧ x.failures = [] ∨
            a.code = Status.notExported.code ∧ x.failures ≠ []) := by
  have h : (o.settings timestamp).accepts
      (Check.validate snapshot.collection snapshot.config) = true := haccepts
  have hrun := generateFrom_of_given hgiven hread (o.settings timestamp)
  rcases Output.ExportSettings.exportFrom_meets
      (s := (o.settings timestamp).exporting snapshot (outputOf out d)) (d := d) files {}
    with ⟨hx, hnot, -⟩ | ⟨hx, hhalts⟩
  · rename_i x d₁
    replace hrun := hrun.trans (Run.runFrom_of_exported h hfiles hdry hx)
    obtain ⟨a, ha, hcode, hreport⟩ := ends_of_report hgiven hmode hrun
    rw [ofReport_of_exported h] at hcode
    refine ⟨⟨fun ⟨_, _, h⟩ => (nomatch ha.symm.trans h), fun h => absurd h hnot⟩, ?_⟩
    intro a' d' h
    cases ha.symm.trans h
    refine ⟨x, hx, by rw [hreport]; rfl, ?_⟩
    by_cases hf : x.failures = []
    · exact .inl ⟨by rw [hcode, if_pos hf], hf⟩
    · exact .inr ⟨by rw [hcode, if_neg hf], hf⟩
  · rename_i f d₁
    replace hrun := hrun.trans (Run.runFrom_of_halted h hfiles hdry hx)
    have hhalted : runOptions o timestamp d = .error (.fault f) d₁ := by
      rw [runOptions_of_generate hgiven hmode, generate]
      exact bind_of_error hrun
    exact ⟨⟨fun _ => hhalts, fun _ => ⟨_, _, hhalted⟩⟩, fun _ _ h => nomatch hhalted.symm.trans h⟩

/-- The options are given in each way to run. -/
theorem Options.Given.mode (hgiven : o.Given d out) (mode : Mode) :
    (mode.options o).Given d out := by
  cases mode <;>
    exact ⟨hgiven.output, hgiven.directory, hgiven.schemaNames, hgiven.outputNames, hgiven.source⟩

/-- **Each way to run** ends with the verdict, unless it comes to an export. -/
theorem mode_ends (hgiven : o.Given d out)
    (hread : readOverridden (o.source d) o.overrides d = .ok read d)
    (hplan : ∀ snapshot, read = .ok snapshot → o.accepts snapshot = true →
      ∃ files, Output.plan snapshot.collection snapshot.config = .ok files) {mode : Mode}
    (hmode : mode ≠ .full ∨ o.verdict read ≠ .success) :
    EndsWith (runOptions (mode.options o) timestamp) d (o.verdict read) := by
  cases mode with
  | check => exact check_ends (hgiven.mode .check) rfl hread
  | dry =>
    refine run_ends (hgiven.mode .dry) rfl hread fun snapshot hs ha => ?_
    exact ⟨rfl, hplan snapshot hs ha⟩
  | full =>
    refine run_ends (hgiven.mode .full) rfl hread fun snapshot hs ha => ?_
    subst hs
    replace ha : o.accepts snapshot = true := ha
    refine absurd ?_ (hmode.resolve_left fun h => h rfl)
    rw [Options.verdict, if_pos ha]

/-- **The ways to run agree.**  Whatever is read at an existing path, as long as reading and
planning come to an end, the check, the dry run and the full run end alike if the snapshot is not
read or not accepted, and they leave the disk as it is.  On an accepted snapshot the check and the
dry run succeed, and so does the full run, unless some file was not written; a full run without a
status is one whose export halts. -/
theorem modes_agree (o : Options) (d d' : Disk) (out timestamp : String)
    (read : Except LoadError Snapshot) (hgiven : o.Given d out)
    (hread : readOverridden (o.source d) o.overrides d = .ok read d')
    (hplan : ∀ snapshot, read = .ok snapshot → o.accepts snapshot = true →
      ∀ u, Output.plan snapshot.collection snapshot.config ≠ .error (.unwritable u)) :
    (∀ mode : Mode, mode ≠ .full ∨ o.verdict read ≠ .success →
      EndsWith (runOptions (mode.options o) timestamp) d (o.verdict read)) ∧
    (o.verdict read = .success → ∃ snapshot files, read = .ok snapshot ∧
      Output.plan snapshot.collection snapshot.config = .ok files ∧
      let settings := (o.settings timestamp).exporting snapshot (outputOf out d)
      ((∃ crash d₁, runOptions (Mode.full.options o) timestamp d = .error crash d₁) ↔
        settings.Halts files {} d) ∧
      ∀ a d₁, runOptions (Mode.full.options o) timestamp d = .ok a d₁ →
        ∃ x, settings.exportAll files d = .ok x d₁ ∧ a.report.bind (·.exported) = some x ∧
          (a.code = Status.success.code ∧ x.failures = [] ∨
            a.code = Status.notExported.code ∧ x.failures ≠ [])) := by
  obtain rfl := Run.disk_of_readOverridden hread
  have hplanned : ∀ snapshot, read = .ok snapshot → o.accepts snapshot = true →
      ∃ files, Output.plan snapshot.collection snapshot.config = .ok files :=
    fun snapshot hs ha => Run.exists_plan_of_accepts ha (hplan snapshot hs ha)
  refine ⟨fun mode hmode => mode_ends hgiven hread hplanned hmode, fun hverdict => ?_⟩
  cases read with
  | error e => exact nomatch hverdict
  | ok snapshot =>
    have ha : o.accepts snapshot = true := by
      cases ha : o.accepts snapshot with
      | true => rfl
      | false =>
        rw [Options.verdict, ha] at hverdict
        exact nomatch hverdict
    obtain ⟨files, hfiles⟩ := hplanned snapshot rfl ha
    exact ⟨snapshot, files, rfl, hfiles,
      run_exports (hgiven.mode .full) rfl rfl hread ha hfiles⟩

end Modes

/-! ## 6. One snapshot -/

/-- The text of a snapshot with one entity. -/
def oneUserText : String := "\x7b\"schemas\": [\x7b\"name\": \"User\"\x7d]\x7d"

/-- A disk with that snapshot. -/
def oneSnapshot : Disk := ⟨.directory [("s.json", .file oneUserText.toUTF8)], []⟩

/-- The options that put its model files into a directory. -/
def into (models : String) : Options :=
  { schema := "s.json", output := some ".", modelsPath := some models }

/-- What is read with these options. -/
def oneUser (models : String) : Snapshot := ⟨⟨[{ name := "User" }]⟩, { modelsPath := models }⟩

section OneSnapshot

variable {models : String}

theorem source_into : (into models).source oneSnapshot = ⟨"/", ["s.json"]⟩ := by
  have h : (Pathname.ofText "s.json").resolve [] = ⟨"/", ["s.json"]⟩ := by decide
  exact h

theorem given_into : (into models).Given oneSnapshot "." where
  output := rfl
  directory := rfl
  schemaNames := by
    have h : Disk.hasNull (Pathname.ofText "s.json").names = false := by decide
    exact h
  outputNames := by decide
  source := by
    rw [source_into]
    rfl

theorem load_oneSnapshot : SnapshotFile.load ⟨"/", ["s.json"]⟩ oneSnapshot =
    .ok (.ok [(.text "schemas", .list [.map [(.text "name", .text "User")]])]) oneSnapshot := by
  have hthere : FileAction.exists? ⟨"/", ["s.json"]⟩ oneSnapshot = .ok true oneSnapshot := rfl
  have hfile : FileAction.isDirectory ⟨"/", ["s.json"]⟩ oneSnapshot = .ok false oneSnapshot := rfl
  have hbytes : FileAction.attempt (FileAction.readBytes ⟨"/", ["s.json"]⟩) oneSnapshot
      = .ok (.ok oneUserText.toUTF8) oneSnapshot := rfl
  have hentries : (SnapshotFile.textOf "/s.json" oneUserText.toUTF8 >>=
      SnapshotFile.entriesOf ⟨"/", ["s.json"]⟩)
        = .ok [(.text "schemas", .list [.map [(.text "name", .text "User")]])] := by cbv
  unfold SnapshotFile.load
  refine (bind_of_ok hthere).trans ((bind_of_ok hfile).trans ?_)
  show SnapshotFile.readFile _ _ = _
  unfold SnapshotFile.readFile
  refine (bind_of_ok hbytes).trans ?_
  exact congrArg (fun r => EStateM.Result.ok r oneSnapshot) hentries

/-- A directory of models counts if it has a name; the bytes of the name tell this. -/
theorem read_into (h : models ≠ "") :
    readOverridden ((into models).source oneSnapshot) (into models).overrides oneSnapshot
      = .ok (.ok (oneUser models)) oneSnapshot := by
  unfold readOverridden
  rw [source_into, bind_of_ok (Run.onDisk_of_ok load_oneSnapshot)]
  obtain ⟨⟨⟨bytes⟩⟩, hvalid⟩ := models
  cases bytes with
  | nil => exact absurd rfl h
  | cons b rest => cbv

theorem accepts_oneUser : (into models).accepts (oneUser models) = true := by cbv

theorem exists_plan_oneUser (models : String) :
    ∃ files, Output.plan (oneUser models).collection (oneUser models).config = .ok files := by
  have hnone : Check.collisions (oneUser models).collection (oneUser models).config = [] := by cbv
  have henums : Output.plannedEnumerations (oneUser models).collection
      (oneUser models).config = [] := by cbv
  have hnumbers : (Output.visibleSchemas (oneUser models).collection).flatMap
      (Output.numbersOf (oneUser models).config) = [] := by cbv
  refine isOk_iff.1 ((Output.plan_isOk_iff hnone).2 ⟨?_, fun s hs => ?_⟩)
  · rw [henums]
    exact List.forall_mem_nil _
  · rw [List.flatMap_eq_nil_iff.1 hnumbers s hs]
    exact List.forall_mem_nil _

/-- The settings with which its files are exported. -/
def intoSettings (models timestamp : String) : Output.ExportSettings :=
  ((into models).settings timestamp).exporting (oneUser models) (outputOf "." oneSnapshot)

/-- The model file of the entity. -/
def userFile (models : String) : Output.GeneratedFile :=
  (Output.planModel (oneUser models).config (.ofConfig (oneUser models).config)
    { name := "User" }).toFile

theorem userFile_mem {files : List Output.GeneratedFile}
    (h : Output.plan (oneUser models).collection (oneUser models).config = .ok files) :
    userFile models ∈ files := by
  obtain ⟨ms, hms, rfl⟩ := Output.plan_eq_ok_iff.1 h
  have horigin : { name := "User" } ∈ Output.visibleSchemas (oneUser models).collection :=
    List.mem_singleton_self _
  exact List.mem_map.2 ⟨_, (Output.mem_planModules_iff hms _).2 (.model horigin), rfl⟩

theorem filePath_userFile (timestamp : String) (hslash : '/' ∉ models.toList)
    (hempty : models ≠ "") (hdot : models ≠ ".") :
    (intoSettings models timestamp).filePath (userFile models) = ⟨"/", [models, "User.ts"]⟩ := by
  have hname : Path.isAbsolute "User.ts" = false := by decide
  have hnames : (Pathname.ofText (Path.join models "User.ts")).names = [models, "User.ts"] := by
    rw [Pathname.names_join models hname, Pathname.names_single hslash hempty hdot]
    rfl
  have hroot : (Pathname.ofText (Path.join models "User.ts")).root = "" := by
    rw [Pathname.root_join models hname,
      Pathname.root_of_relative (Path.isAbsolute_of_not_mem hslash)]
  have hpath : Pathname.ofText (Path.join models "User.ts") = ⟨"", [models, "User.ts"]⟩ := by
    rw [← hroot, ← hnames]
  have houtput : outputOf "." oneSnapshot = ⟨"/", []⟩ := by decide
  show (outputOf "." oneSnapshot).child
    (Pathname.ofText (Output.outputPath (userFile models) (oneUser models).config)) = _
  rw [houtput, userFile, Output.outputPath_model]
  show Pathname.child _ (Pathname.ofText (Path.join models "User.ts")) = _
  rw [hpath, Pathname.child_relative]
  rfl

/-- An export to a directory with too long a name halts at the model file. -/
theorem halts_into {timestamp : String} (hslash : '/' ∉ models.toList)
    (hnull : Disk.hasNull [models, "User.ts"] = false) (hlong : longestName < models.utf8ByteSize)
    {files : List Output.GeneratedFile}
    (h : Output.plan (oneUser models).collection (oneUser models).config = .ok files) :
    (intoSettings models timestamp).Halts files {} oneSnapshot := by
  have hshort : ∀ other : String, other.utf8ByteSize ≤ longestName → models ≠ other := by
    rintro other h rfl
    exact absurd hlong (Nat.not_lt.2 h)
  have hpath := filePath_userFile timestamp hslash (hshort "" (by decide))
    (hshort "." (by decide))
  refine Output.ExportSettings.halts_of_stops (userFile_mem h) (fun d hedit => .inl ⟨rfl, ?_⟩) {}
  have hroot : d.standing [] = .directory := hedit.directories rfl
  rw [hpath]
  exact Disk.entry_of_long hnull (List.nil_append _).symm rfl hroot hlong

theorem modes_agree_oneSnapshot :
    (into "models").Given oneSnapshot "." ∧
      (∀ mode : Mode, mode ≠ .full →
        EndsWith (runOptions (mode.options (into "models")) "") oneSnapshot .success) ∧
      ∃ files, Output.plan (oneUser "models").collection (oneUser "models").config = .ok files ∧
        ((∃ crash d, runOptions (Mode.full.options (into "models")) "" oneSnapshot
          = .error crash d) ↔ (intoSettings "models" "").Halts files {} oneSnapshot) := by
  have hagree := modes_agree (into "models") oneSnapshot oneSnapshot "." ""
    (.ok (oneUser "models")) given_into (read_into (by decide)) (fun snapshot hs _ u hu => by
      cases hs
      obtain ⟨files, hfiles⟩ := exists_plan_oneUser "models"
      exact nomatch hfiles.symm.trans hu)
  have hverdict : (into "models").verdict (.ok (oneUser "models")) = .success := by
    rw [Options.verdict, accepts_oneUser]
    rfl
  refine ⟨given_into, fun mode hmode => ?_, ?_⟩
  · exact hverdict ▸ hagree.1 mode (.inl hmode)
  · obtain ⟨snapshot, files, hs, hfiles, hhalts, -⟩ := hagree.2 hverdict
    cases hs
    exact ⟨files, hfiles, hhalts⟩

/-- **A run that was checked and rehearsed ends without a status** where the directory of the
models has too long a name. -/
theorem export_halts_rehearsed :
    (into (longName (longestName + 1))).Given oneSnapshot "." ∧
      (∀ mode : Mode, mode ≠ .full →
        EndsWith (runOptions (mode.options (into (longName (longestName + 1)))) "")
          oneSnapshot .success) ∧
      ¬ ∃ a d, runOptions (Mode.full.options (into (longName (longestName + 1)))) ""
        oneSnapshot = .ok a d := by
  have hslash : '/' ∉ (longName (longestName + 1)).toList := not_mem_longName (by decide) _
  have hlong : longestName < (longName (longestName + 1)).utf8ByteSize := by
    rw [utf8ByteSize_longName]
    exact Nat.lt_succ_self _
  have hnull := hasNull_longName (longestName + 1)
  generalize longName (longestName + 1) = models at hslash hlong hnull ⊢
  have hempty : models ≠ "" := by
    rintro rfl
    exact absurd hlong (by decide)
  obtain ⟨files, hfiles⟩ := exists_plan_oneUser models
  have hread := read_into hempty
  have hhalts : (intoSettings models "").Halts files {} oneSnapshot :=
    halts_into hslash (by rw [← List.singleton_append, Disk.hasNull_append, hnull]; decide) hlong
      hfiles
  have hverdict : (into models).verdict (.ok (oneUser models)) = .success := by
    rw [Options.verdict, accepts_oneUser]
    rfl
  obtain ⟨crash, d₁, hcrash⟩ :=
    (run_exports (given_into.mode .full) rfl rfl hread accepts_oneUser hfiles).1.2 hhalts
  refine ⟨given_into, fun mode hmode => ?_, fun ⟨a, d, h⟩ => nomatch hcrash.symm.trans h⟩
  refine hverdict ▸ mode_ends given_into hread (fun snapshot hs _ => ?_) (.inl hmode)
  cases hs
  exact ⟨files, hfiles⟩

end OneSnapshot

end CommandLine

end SchemaTypes
