/-
# Reports

What a run of the generator did: its steps with their times and outcomes, the errors and warnings
of each step, and the numbers of files.  `Report.summary` is the text of a report.
-/
import SchemaTypes.Check.Finding
import SchemaTypes.Number.Shortest
import SchemaTypes.Output.Export
import SchemaTypes.Reading.LoadError

namespace SchemaTypes.Run

/-- One step of a run. -/
structure Step where
  name : String := ""
  success : Bool := true
  seconds : Double := .ofInt 0
  detail : String := ""
deriving DecidableEq, Repr

/-- The step that checks a snapshot. -/
def validationStep : String := "Validate Schemas"

/-- What a run did. -/
structure Report where
  success : Bool := false
  directory : String := ""
  dryRun : Bool := false
  schemaCount : Nat := 0
  plannedCount : Nat := 0
  totalFiles : Nat := 0
  totalBytes : Nat := 0
  totalLines : Nat := 0
  totalSeconds : Double := .ofInt 0
  steps : List Step := []
  inputErrors : List String := []
  validationErrors : List String := []
  validationWarnings : List String := []
  generationErrors : List String := []
  exportErrors : List String := []
  skippedFiles : List String := []
  loadError : Option LoadError := none
  config : Option Config := none
  planned : List Output.GeneratedFile := []
  exported : Option Output.Exported := none
deriving Repr

/-! ## 1. Parts of the text -/

/-- Digits from the last to the first with a comma after every third one. -/
def groupReversed : List Char → List Char
  | a :: b :: c :: d :: rest => a :: b :: c :: ',' :: groupReversed (d :: rest)
  | digits => digits

/-- A number with commas between its thousands. -/
def grouped (n : Nat) : String :=
  String.ofList (groupReversed (Nat.toDigits 10 n).reverse).reverse

/-- A text with blanks behind it, up to a width. -/
def padRight (width : Nat) (s : String) : String :=
  s ++ String.ofList (List.replicate (width - s.length) ' ')

/-- A text with blanks in front, up to a width. -/
def padLeft (width : Nat) (s : String) : String :=
  String.ofList (List.replicate (width - s.length) ' ') ++ s

/-- Seconds with three places. -/
def secondsText (d : Double) : String := d.fixed 3

/-- The rule above and below a report. -/
def rule : String := String.ofList (List.replicate 60 '=')

/-- The rule between the parts of a report. -/
def thinRule : String := String.ofList (List.replicate 60 '─')

/-- The line of a step. -/
def Step.text (s : Step) : String :=
  "    " ++ (if s.success then "✓" else "✗") ++ " " ++ padRight 28 s.name ++ " "
    ++ padLeft 7 (secondsText s.seconds) ++ "s  " ++ s.detail

/-! ## 2. The text -/

namespace Report

/-- The check of the snapshot ended the run. -/
def validationFailed (r : Report) : Bool :=
  !r.validationErrors.isEmpty || r.steps.any fun s => s.name == validationStep && !s.success

/-- The lines with the numbers of a run. -/
def headLines (r : Report) : List String :=
  [rule,
   "  NexaFlow TypeGen - Generation Report",
   rule,
   "  Status:           " ++ (if r.success then "✅ SUCCESS" else "❌ FAILED")
     ++ (if r.dryRun then " (dry run)" else ""),
   "  Output:           " ++ r.directory,
   "  Schemas:          " ++ toString r.schemaCount,
   "  Files planned:    " ++ toString r.plannedCount,
   "  Files written:    " ++ toString r.totalFiles,
   "  Files skipped:    " ++ toString r.skippedFiles.length,
   "  Total lines:      " ++ grouped r.totalLines,
   "  Total bytes:      " ++ grouped r.totalBytes,
   "  Total time:       " ++ secondsText r.totalSeconds ++ "s",
   thinRule]

/-- The lines of the steps. -/
def stepLines (r : Report) : List String :=
  if r.steps.isEmpty then [] else "  Pipeline Steps:" :: r.steps.map Step.text

/-- A titled list, unless it is empty. -/
def sectionLines (title icon : String) (items : List String) : List String :=
  if items.isEmpty then []
  else
    [thinRule, "  " ++ title ++ " (" ++ toString items.length ++ "):"]
      ++ items.map fun i => "    " ++ icon ++ " " ++ i

/-- The text of a report. -/
def summary (r : Report) : String :=
  String.intercalate "\n"
    (r.headLines ++ r.stepLines
      ++ sectionLines "Input Errors" "✗" r.inputErrors
      ++ sectionLines "Validation Errors" "✗" r.validationErrors
      ++ sectionLines "Validation Warnings" "⚠" r.validationWarnings
      ++ sectionLines "Generation Errors" "✗" r.generationErrors
      ++ sectionLines "Export Errors" "✗" r.exportErrors
      ++ sectionLines "Skipped Files (already exist)" "⊘" r.skippedFiles
      ++ [rule])

/-- Adds a step. -/
def addStep (r : Report) (name : String) (success : Bool) (detail : String) : Report :=
  { r with steps := r.steps ++ [{ name := name, success := success, detail := detail }] }

/-- A run is a success when no step failed and no error was noted. -/
def hasSucceeded (r : Report) : Bool :=
  r.inputErrors.isEmpty && r.validationErrors.isEmpty && r.generationErrors.isEmpty
    && r.exportErrors.isEmpty && r.steps.all (·.success)

/-- The report at the end of a run. -/
def finish (r : Report) : Report := { r with success := r.hasSucceeded }

end Report

/-! ## 3. Small laws -/

/-- A report that ends in success has no failed step. -/
theorem Report.steps_of_success {r : Report} (h : r.finish.success = true) :
    ∀ s ∈ r.steps, s.success = true := by
  simp only [finish, hasSucceeded, Bool.and_eq_true, List.all_eq_true] at h
  exact h.2

end SchemaTypes.Run
