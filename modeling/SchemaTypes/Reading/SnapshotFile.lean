/-
# Files of a snapshot

A snapshot is one file, in JSON or YAML by its suffix, or a directory with one schema per file.
A file with another suffix is read as JSON and, if that fails, as YAML.  In a directory the files
count in the order of their names; a schema without a name is named after its file, and one
without a source has the path of its file as the source.
-/
import SchemaTypes.Data.Json.Reader
import SchemaTypes.Data.Yaml.Reader
import SchemaTypes.Files.Disk
import SchemaTypes.Reading.LoadError
import SchemaTypes.Reading.Record
import SchemaTypes.Text.Lines
import SchemaTypes.Text.Order
import SchemaTypes.Text.Utf8

namespace SchemaTypes.SnapshotFile

open Reading (Entries)

/-! ## 1. Contents -/

/-- The format that a suffix stands for, in any case. -/
def formatOf? (p : Pathname) : Option FileFormat :=
  let suffix := Text.lowerString p.suffix
  if suffix == ".json" then some .json
  else if suffix == ".yaml" || suffix == ".yml" then some .yaml
  else none

/-- The text of a file, with one spelling for all line breaks. -/
def textOf (path : String) (bytes : ByteArray) : Except ReadFailure (List Char) :=
  match Text.Utf8.decode bytes.data.toList with
  | .ok cs => .ok (Text.unifyLineBreaks cs)
  | .error f => .error (.load (.notUtf8 path f.message))

/-- The entries of a value that has to be a map. -/
def topLevel (format : FileFormat) (path : String) : Value → Except ReadFailure Entries
  | .map es => .ok es
  | v => .error (.load (.topLevelNotMap format path v.kindName))

section

variable [Nesting]

/-- The value of a JSON text. -/
def jsonValue (path : String) (cs : List Char) : Except ReadFailure Value :=
  match Json.readChars cs with
  | .ok v => .ok v
  | .error f =>
    match f.fault with
    | .tooManyDigits count => .error (.unusable (.unusable (Numeral.overlongText count)))
    | .tooDeep => .error (.unusable .tooDeep)
    | _ => .error (.load (.invalidJson path (f.message cs)))

/-- The value of a YAML text. -/
def yamlValue (path : String) (cs : List Char) : Except ReadFailure Value :=
  match Yaml.read cs with
  | .ok v => .ok v
  | .error .malformed => .error (.load (.invalidYaml path))
  | .error f => .error (.unusable f)

/-- The entries of a text in a format. -/
def entriesIn (format : FileFormat) (path : String) (cs : List Char) : Except ReadFailure Entries :=
  match format with
  | .json => jsonValue path cs >>= topLevel .json path
  | .yaml => yamlValue path cs >>= topLevel .yaml path

/-- The entries of a text; without a known format, those in JSON, or in YAML if the text is not
JSON. -/
def entriesOf (p : Pathname) (cs : List Char) : Except ReadFailure Entries :=
  match formatOf? p with
  | some format => entriesIn format p.text cs
  | none =>
    match entriesIn .json p.text cs with
    | .error (.load _) => entriesIn .yaml p.text cs
    | answer => answer

/-! ## 2. Files -/

/-- The entries of a file. -/
def readFile (p : Pathname) : FileAction (Except ReadFailure Entries) := do
  match ← FileAction.attempt (FileAction.readBytes p) with
  | .ok bytes => return textOf p.text bytes >>= entriesOf p
  | .error f =>
    if f.cause.isSystem then return .error (.load (.unreadable p.text f.text)) else throw f

/-- Adds an entry if its key is not there. -/
def withDefault (key : String) (v : Value) (es : Entries) : Entries :=
  if (Value.entry? key es).isSome then es else es ++ [(.text key, v)]

/-- The schema of a file in a directory. -/
def schemaOf (p : Pathname) (es : Entries) : Value :=
  .map (withDefault "source_path" (.text p.text) (withDefault "name" (.text p.stem) es))

/-- The schemas of files in order, up to the first failure. -/
def readFiles : List Pathname → FileAction (Except ReadFailure (List Value))
  | [] => return .ok []
  | p :: rest => do
    match ← readFile p with
    | .error f => return .error f
    | .ok es =>
      let others ← readFiles rest
      return others.map (schemaOf p es :: ·)

/-- The files of schemas in a directory, in the order of their names. -/
def schemaFiles (p : Pathname) : FileAction (List Pathname) := do
  let names ← FileAction.listNames p
  let children := (Text.sortNames names).map fun name => p.child ⟨"", [name]⟩
  children.filterM fun child => do
    return (← FileAction.isFile child) && (formatOf? child).isSome

/-- The snapshot of a directory. -/
def readDirectory (p : Pathname) : FileAction (Except ReadFailure Entries) := do
  let schemas ← readFiles (← schemaFiles p)
  return schemas.map fun vs => [(.text "schemas", .list vs)]

/-- The snapshot at a path. -/
def load (p : Pathname) : FileAction (Except ReadFailure Entries) := do
  if !(← FileAction.exists? p) then return .error (.load (.pathNotFound p.text))
  else if ← FileAction.isDirectory p then readDirectory p
  else readFile p

end

/-! ## 3. Small laws -/

/-- A schema that names itself keeps its name. -/
theorem withDefault_of_isSome {key : String} {es : Entries} (v : Value)
    (h : (Value.entry? key es).isSome) : withDefault key v es = es := by
  simp [withDefault, h]

end SchemaTypes.SnapshotFile
