/-
# Reading reports

A report given as a record: its numbers, its steps and the errors and warnings of each step.
-/
import SchemaTypes.Reading.Manifest
import SchemaTypes.Run.Report

namespace SchemaTypes.Reading

/-- A step of a run. -/
def step : Reader Run.Step := record fun es =>
  Run.Step.mk
    <$> fieldOr (word "step_name") "" text es
    <*> fieldOr (word "success") true switch es
    <*> fieldOr (word "elapsed_seconds") (.ofInt 0) real es
    <*> fieldOr (word "detail") "" text es

/-- A list of messages. -/
def messages (name : String) (es : Entries) : Outcome (List String) :=
  fieldOr (word name) [] (list text) es

/-- A report. -/
def report : Reader Run.Report := record fun es =>
  let number (name : String) : Outcome Nat := fieldOr (word name) 0 count es
  let make (success : Bool) (directory : String) (dryRun : Bool)
      (schemas planned files bytes lines : Nat) (seconds : Double) (steps : List Run.Step)
      (input invalid warnings generation exported skipped : List String) : Run.Report :=
    { success := success
      directory := directory
      dryRun := dryRun
      schemaCount := schemas
      plannedCount := planned
      totalFiles := files
      totalBytes := bytes
      totalLines := lines
      totalSeconds := seconds
      steps := steps
      inputErrors := input
      validationErrors := invalid
      validationWarnings := warnings
      generationErrors := generation
      exportErrors := exported
      skippedFiles := skipped }
  make
    <$> fieldOr (word "success") false switch es
    <*> fieldOr (word "output_directory") "" text es
    <*> fieldOr (word "dry_run") false switch es
    <*> number "schema_count"
    <*> number "planned_count"
    <*> number "total_files"
    <*> number "total_bytes"
    <*> number "total_lines"
    <*> fieldOr (word "total_elapsed_seconds") (.ofInt 0) real es
    <*> fieldOr (word "step_metrics") [] (list step) es
    <*> messages "input_errors" es
    <*> messages "validation_errors" es
    <*> messages "validation_warnings" es
    <*> messages "generation_errors" es
    <*> messages "export_errors" es
    <*> messages "skipped_files" es

end SchemaTypes.Reading
