/-
# Runs

A run reads a snapshot, checks it, plans its files and exports them, and reports what it did.  A
step that fails ends the run with its report; the check also fails on warnings when the settings
say so, and a dry run ends with the plan.

What is no outcome of a step ends a run without a report (`Crash`): a fault of the disk outside the
files that are exported, a value of an unusable shape, data that cannot be written.
-/
import SchemaTypes.Check.Full
import SchemaTypes.Output.Plan
import SchemaTypes.Reading.Snapshot
import SchemaTypes.Reading.SnapshotFile
import SchemaTypes.Run.Report

namespace SchemaTypes.Run

/-- What ends a run without a report. -/
inductive Crash where
  | fault (f : SchemaTypes.Fault)
  | broken (b : Reading.Breakage)
  | unusable (f : Yaml.Fault)
  | unwritable (u : Output.Unwritable)
deriving DecidableEq, Repr

/-- What a crash was about. -/
def Crash.message : Crash → String
  | .fault f => f.text
  | .broken .unusableKey => "a value of the snapshot cannot be a key"
  | .broken .missingName => "an accessor has no name"
  | .unusable _ => "a scalar of the snapshot stands for no value"
  | .unwritable (.extra enumeration member _) =>
    "the further data of " ++ enumeration ++ "." ++ member ++ " cannot be written"
  | .unwritable (.number entity) => "a number of " ++ entity ++ " is too long to be written"

/-- A part of a run: it may crash, and what it wrote before stays. -/
abbrev Action := EStateM Crash Disk

/-- An action on files as a part of a run. -/
def onDisk (x : FileAction α) : Action α := fun d =>
  match x d with
  | .ok a d => .ok a d
  | .error f d => .error (.fault f) d

/-- What a reading gives; only causes with a message are outcomes. -/
def settle : Except ReadFailure α → Action (Except LoadError α)
  | .ok a => pure (.ok a)
  | .error (.load e) => pure (.error e)
  | .error (.broken b) => throw (.broken b)
  | .error (.unusable f) => throw (.unusable f)

/-- The settings of a run. -/
structure Settings where
  failOnWarnings : Bool := false
  dryRun : Bool := false
  withManifest : Bool := false
  timestamp : String := ""
deriving DecidableEq, Repr

/-! ## 1. Reading -/

/-- Reads the snapshot at a path, with settings put over its own. -/
def readSnapshot (path : Pathname) (overrides : List (String × Value)) :
    Action (Except LoadError Snapshot) := do
  let raw ← onDisk (SnapshotFile.load path)
  settle (raw >>= fun es => Snapshot.ofEntriesWith es overrides)

/-- Notes how the reading ended. -/
def Report.afterReading (r : Report) (path : Pathname) : Except LoadError Snapshot → Report
  | .ok s =>
    r.addStep "Load Schema" true
      (toString s.collection.schemas.length ++ " schema(s) from " ++ path.name)
  | .error e =>
    { r with inputErrors := r.inputErrors ++ [e.message], loadError := some e }.addStep
      "Load Schema" false e.message

/-! ## 2. Checking -/

/-- The findings do not end the run. -/
def Settings.accepts (s : Settings) (fs : Findings) : Bool :=
  fs.isValid && !(s.failOnWarnings && !fs.warnings.isEmpty)

/-- The findings in a few words. -/
def findingsDetail (fs : Findings) : String :=
  if !fs.errors.isEmpty then toString fs.errors.length ++ " error(s)"
  else if !fs.warnings.isEmpty then toString fs.warnings.length ++ " warning(s)"
  else "all checks passed"

/-- Notes the findings about a snapshot. -/
def Report.afterCheck (r : Report) (s : Settings) (fs : Findings) : Report :=
  { r with
    validationErrors := r.validationErrors ++ fs.errors.map Finding.message
    validationWarnings := r.validationWarnings ++ fs.warnings.map Finding.message }.addStep
    validationStep (s.accepts fs) (findingsDetail fs)

/-! ## 3. Planning -/

/-- The plan of a snapshot, or the message of its collisions. -/
def planFiles (snapshot : Snapshot) : Action (Except String (List Output.GeneratedFile)) :=
  match Output.plan snapshot.collection snapshot.config with
  | .ok files => pure (.ok files)
  | .error (.collisions cs) => pure (.error (Collision.message cs))
  | .error (.unwritable u) => throw (.unwritable u)

/-- The numbers of files and lines of a plan. -/
def planDetail (files : List Output.GeneratedFile) : String :=
  toString files.length ++ " file(s), ~"
    ++ grouped (files.foldl (fun n f => n + f.lineCount) 0) ++ " lines"

/-- Notes the plan. -/
def Report.afterPlan (r : Report) : Except String (List Output.GeneratedFile) → Report
  | .ok files =>
    { r with planned := files, plannedCount := files.length }.addStep "Plan Files" true
      (planDetail files)
  | .error e =>
    { r with generationErrors := r.generationErrors ++ [e] }.addStep "Plan Files" false
      (planDetail [])

/-! ## 4. Exporting -/

/-- Notes what was exported. -/
def Report.afterExport (r : Report) (s : Output.ExportSettings) (x : Output.Exported) : Report :=
  let m := x.manifest s
  { r with
    totalFiles := m.totalFiles
    totalBytes := m.totalBytes
    totalLines := m.totalLines
    exportErrors := r.exportErrors ++ x.failures.map Output.WriteFailure.message
    skippedFiles := r.skippedFiles ++ x.skipped
    exported := some x }.addStep "Export to Filesystem" x.isSuccess
    (toString m.totalFiles ++ " written, " ++ toString x.skipped.length ++ " skipped")

/-- Exports the files of a plan and notes it. -/
def exportFiles (s : Settings) (config : Config) (output : Pathname)
    (files : List Output.GeneratedFile) (r : Report) : Action Report := do
  let settings : Output.ExportSettings :=
    { config := config, directory := output, withManifest := s.withManifest
      timestamp := s.timestamp }
  let x ← onDisk (settings.exportAll files)
  return r.afterExport settings x

/-! ## 5. Whole runs -/

/-- Goes on from a snapshot; the output directory is absolute. -/
def runFrom (s : Settings) (snapshot : Snapshot) (output : Pathname) (r : Report) :
    Action Report := do
  let findings := Check.validate snapshot.collection snapshot.config
  let r := { r with
    schemaCount := snapshot.collection.schemas.length
    config := some snapshot.config }.afterCheck s findings
  if !s.accepts findings then return r.finish
  else
    let planned ← planFiles snapshot
    let r := r.afterPlan planned
    match planned with
    | .error _ => return r.finish
    | .ok files =>
      if s.dryRun then return r.finish
      else return (← exportFiles s snapshot.config output files r).finish

/-- The report at the beginning of a run. -/
def startReport (s : Settings) (output : Pathname) : Report :=
  { directory := output.text, dryRun := s.dryRun }

/-- Runs on a snapshot. -/
def generate (s : Settings) (snapshot : Snapshot) (output : Pathname) : Action Report := do
  let output ← onDisk (FileAction.resolve output)
  runFrom s snapshot output (startReport s output)

/-- Runs on the snapshot at a path, with settings put over its own. -/
def generateFrom (s : Settings) (path output : Pathname) (overrides : List (String × Value)) :
    Action Report := do
  let output ← onDisk (FileAction.resolve output)
  let read ← readSnapshot path overrides
  let r := (startReport s output).afterReading path read
  match read with
  | .ok snapshot => runFrom s snapshot output r
  | .error _ => return r.finish

/-! ## 6. Small laws -/

/-- The check accepts exactly when there is no error and no warning that counts. -/
theorem Settings.accepts_iff {s : Settings} {fs : Findings} :
    s.accepts fs = true ↔ fs.errors = [] ∧ (s.failOnWarnings = true → fs.warnings = []) := by
  unfold Settings.accepts Findings.isValid
  cases s.failOnWarnings <;> simp

end SchemaTypes.Run
