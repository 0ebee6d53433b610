/-
# The program

What the program does with its arguments: it checks a snapshot (`validateOnly`), or runs on it
and reports (`generate`).  The answer (`Outcome`) holds the text for the reader, the messages, and
the status with which the program ends.

The settings of the command line count over those of the snapshot (`Options.overrides`).
-/
import SchemaTypes.CommandLine.Arguments
import SchemaTypes.Run.Generation

namespace SchemaTypes.CommandLine

open Run (Action Report)

/-- How the program ends. -/
inductive Status where
  | success
  | invalid
  | notGenerated
  | notExported
  | badInput
deriving DecidableEq, Repr

/-- The number of a status. -/
def Status.code : Status → Nat
  | .success => 0
  | .invalid => 1
  | .notGenerated => 2
  | .notExported => 3
  | .badInput => 4

/-- What the program says and how it ends. -/
structure Outcome where
  code : Nat
  output : String := ""
  messages : List String := []
  report : Option Report := none
deriving Repr

/-- An answer with a status. -/
def Outcome.ofStatus (s : Status) (output : String) (messages : List String) : Outcome :=
  { code := s.code, output := output, messages := messages }

/-! ## 1. Settings -/

/-- A setting that was given. -/
def given (key : String) (f : α → Value) : Option α → List (String × Value)
  | some a => [(key, f a)]
  | none => []

/-- A switch that was set. -/
def switched (key : String) (value on : Bool) : List (String × Value) :=
  if on then [(key, .bool value)] else []

/-- The settings that count over those of the snapshot. -/
def Options.overrides (o : Options) : List (String × Value) :=
  given "layout" (fun l => .text l.text) o.layout
    ++ given "package_name" .text o.packageName
    ++ given "models_path" .text o.modelsPath
    ++ given "locale" .text o.locale
    ++ given "enum_import_prefix" .text o.enumPrefix
    ++ given "plugin_enum_import_prefix" .text o.pluginEnumPrefix
    ++ given "base_import_prefix" .text o.basePrefix
    ++ switched "use_js_extension" true o.jsExtension
    ++ switched "generate_zod_schemas" false o.noZod
    ++ switched "generate_rules" true o.rules

/-- The settings of the run. -/
def Options.settings (o : Options) (timestamp : String) : Run.Settings :=
  { failOnWarnings := o.failOnWarnings
    dryRun := o.dryRun
    withManifest := o.manifest
    timestamp := timestamp }

/-! ## 2. Checking only -/

/-- The rule above and below the text of a check. -/
def rule : String := String.ofList (List.replicate 50 '=')

/-- A titled list of findings, unless it is empty. -/
def findingLines (title icon : String) (fs : List Finding) : List String :=
  if fs.isEmpty then []
  else
    ["", "  " ++ title ++ " (" ++ toString fs.length ++ "):"]
      ++ fs.map fun f => "    " ++ icon ++ " " ++ f.text

/-- The text of a check. -/
def checkText (source : String) (schemas : Nat) (fs : Findings) : String :=
  Text.joinLines
    (["", rule, "  Schema Validation Report", rule,
      "  Source:   " ++ source,
      "  Schemas:  " ++ toString schemas,
      "  Time:     " ++ Run.secondsText (.ofInt 0) ++ "s",
      "  Valid:    " ++ (if fs.isValid then "Yes" else "No")]
      ++ findingLines "Errors" "✗" fs.errors
      ++ findingLines "Warnings" "⚠" fs.warnings
      ++ (if fs.isValid && fs.warnings.isEmpty then ["", "  ✅ All validations passed!"] else [])
      ++ [rule, "", ""])

/-- Reads a snapshot with the settings of the command line put over its own. -/
def readOverridden (path : Pathname) (overrides : List (String × Value)) :
    Action (Except LoadError Snapshot) := do
  let raw ← Run.onDisk (SnapshotFile.load path)
  Run.settle (raw >>= fun es => Snapshot.ofEntries (Snapshot.overrideConfig es overrides))

/-- Checks the snapshot at a path. -/
def validateOnly (o : Options) (path : Pathname) : Action Outcome := do
  match ← readOverridden path o.overrides with
  | .error e => return .ofStatus .badInput "" ["Failed to load schemas: " ++ e.message]
  | .ok s =>
    let fs := Check.validate s.collection s.config
    let status := if (o.settings "").accepts fs then Status.success else .invalid
    return .ofStatus status (checkText path.name s.collection.schemas.length fs) []

/-! ## 3. Generating -/

/-- The line of a planned file. -/
def plannedLine (output : Pathname) (config : Config) (f : Output.GeneratedFile) : String :=
  "  " ++ (output.child (Pathname.ofText (Output.outputPath f config))).text
    ++ (if f.overwrite then "" else "  (create once)")

/-- The planned files of a report. -/
def planText (output : Pathname) (r : Report) : String :=
  match r.config with
  | none => ""
  | some config =>
    if r.planned.isEmpty then ""
    else
      Text.joinLines
        (["", "Planned files:"] ++ r.planned.map (plannedLine output config) ++ [""])

/-- The status that a report ends with. -/
def Status.ofReport (r : Report) : Status :=
  if r.success then .success
  else if r.validationFailed then .invalid
  else if !r.exportErrors.isEmpty then .notExported
  else if !r.inputErrors.isEmpty then .badInput
  else .notGenerated

/-- The text for a report. -/
def reportText (o : Options) (output : Pathname) (r : Report) : String :=
  r.summary ++ "\n" ++ (if o.dryRun then planText output r else "")

/-- Runs on the snapshot at a path. -/
def generate (o : Options) (timestamp : String) (path output : Pathname) : Action Outcome := do
  let r ← Run.generateFrom (o.settings timestamp) path output o.overrides
  return { Outcome.ofStatus (.ofReport r) (reportText o output r)
            (r.inputErrors ++ r.generationErrors ++ r.exportErrors) with report := some r }

/-! ## 4. The program -/

/-- Does what the options ask for. -/
def runOptions (o : Options) (timestamp : String) : Action Outcome := do
  let path ← Run.onDisk (FileAction.resolve (Pathname.ofText o.schema))
  if !(← Run.onDisk (FileAction.exists? path)) then
    return .ofStatus .badInput "" ["Schema path not found: " ++ path.text]
  else if o.validateOnly then validateOnly o path
  else
    match o.output with
    | none =>
      return .ofStatus .badInput ""
        ["Output directory is required for generation. Use -o/--output or --validate-only."]
    | some output => do
      let output ← Run.onDisk (FileAction.resolve (Pathname.ofText output))
      generate o timestamp path output

/-- The number with which the program ends when its arguments are misused. -/
def misuseCode : Nat := 2

/-- The line that names the version. -/
def versionText : String := "NexaFlow TypeGen v" ++ Output.generatorVersion ++ "\n"

/-- The help, laid out for a terminal of 80 columns. -/
def helpText : String := String.intercalate "\n" [
  "usage: typegen [-h] [--version] -s PATH [-o DIR] [--validate-only] [--dry-run]",
  "               [--layout \x7bflat,package\x7d] [--package-name NAME]",
  "               [--models-path PATH] [--js-extension] [--no-zod] [--rules]",
  "               [--locale LOCALE] [--enum-prefix PREFIX]",
  "               [--plugin-enum-prefix PREFIX] [--base-prefix PREFIX]",
  "               [--fail-on-warnings] [--manifest] [-v] [-q]",
  "",
  "NexaFlow TypeGen - TypeScript type and Zod schema generator.",
  "",
  "Turns schema definitions (YAML/JSON) into TypeScript interfaces, "
    ++ "enums, Zod validators and i18n metadata.",
  "",
  "options:",
  "  -h, --help            show this help message and exit",
  "  --version             show program's version number and exit",
  "  -s PATH, --schema PATH",
  "                        Schema file (YAML or JSON) or a directory with one",
  "                        schema per file.",
  "  -o DIR, --output DIR  Output root directory. Required unless --validate-only",
  "                        is set.",
  "",
  "operation modes:",
  "  --validate-only       Only validate the schemas; write nothing.",
  "  --dry-run             Plan every file and list where it would go, without",
  "                        writing.",
  "",
  "output layout:",
  "  --layout \x7bflat,package\x7d",
  "                        flat: everything under the models path; package: base",
  "                        files in node_modules/<package>.",
  "  --package-name NAME   Base package name (package layout).",
  "  --models-path PATH    User model directory, relative to the output root.",
  "  --js-extension        Append '.js' to relative import specifiers.",
  "",
  "configuration overrides:",
  "  --no-zod              Emit Create/Update utility types instead of Zod",
  "                        schemas.",
  "  --rules               Emit legacy rules/<Entity>.rules.ts files (only with",
  "                        --no-zod).",
  "  --locale LOCALE       Locale used for doc comments.",
  "  --enum-prefix PREFIX  Import prefix for schema enums.",
  "  --plugin-enum-prefix PREFIX",
  "                        Import prefix for plugin enums.",
  "  --base-prefix PREFIX  Import prefix for base files.",
  "",
  "behaviour flags:",
  "  --fail-on-warnings    Treat validation warnings as errors.",
  "  --manifest            Write a manifest of written files with SHA-256",
  "                        checksums.",
  "",
  "verbosity:",
  "  -v, --verbose         Increase verbosity (-v for INFO, -vv for DEBUG).",
  "  -q, --quiet           Suppress all output except errors.",
  "",
  "Examples:",
  "  typegen -s schemas.yaml -o ./web/src",
  "  typegen -s ./schemas -o ./web --layout package",
  "  typegen -s schemas.yaml --validate-only"] ++ "\n"

/-- The answer to arguments that ask for nothing to be done. -/
def Stop.outcome : Stop → Outcome
  | .help => { code := 0, output := helpText }
  | .version => { code := 0, output := versionText }
  | .misuse m => { code := misuseCode, messages := ["typegen: error: " ++ m.message] }

/-- Does what arguments ask for. -/
def run (args : List String) (timestamp : String) : Action Outcome :=
  match Options.ofArguments args with
  | .error s => pure s.outcome
  | .ok o => runOptions o timestamp

/-- Arguments that ask for the version are answered without looking at any file. -/
theorem run_version (timestamp : String) (d : Disk) :
    run ["--version"] timestamp d = .ok { code := 0, output := versionText } d := rfl

end SchemaTypes.CommandLine
