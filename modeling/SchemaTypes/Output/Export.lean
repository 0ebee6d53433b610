/-
# Writing generated files

An export writes the files of a plan under an output directory, in order.  A file that belongs to
the user is written only where there is nothing yet; any other file replaces what was there.  A
file that cannot be written is a failure and does not keep the others from being written.  In the
package layout the description of the package follows, and on demand the manifest.
-/
import SchemaTypes.Files.Disk
import SchemaTypes.Output.Manifest

namespace SchemaTypes.Output

/-- The settings of an export; the directory is absolute. -/
structure ExportSettings where
  config : Config
  directory : Pathname
  atomic : Bool := true
  withManifest : Bool := false
  timestamp : String := ""
deriving Repr

/-- A file that could not be written. -/
structure WriteFailure where
  path : String
  fault : Fault
deriving DecidableEq, Repr

/-- The message of a failure up to the word for its cause. -/
def WriteFailure.headline (f : WriteFailure) : String :=
  "Failed to write " ++ f.path ++ ": " ++ f.fault.cause.name

/-- The message of a failure. -/
def WriteFailure.message (f : WriteFailure) : String := f.headline ++ ": " ++ f.fault.text

/-- What an export did so far. -/
structure Exported where
  records : List FileRecord := []
  skipped : List String := []
  failures : List WriteFailure := []
  warnings : List String := []
deriving DecidableEq, Repr

namespace Exported

/-- There was no failure. -/
def isSuccess (x : Exported) : Bool := x.failures.isEmpty

/-- One written file more. -/
def addRecord (x : Exported) (r : FileRecord) : Exported := { x with records := x.records ++ [r] }

/-- One skipped file more. -/
def addSkipped (x : Exported) (path : String) : Exported :=
  { x with skipped := x.skipped ++ [path] }

/-- One failure more. -/
def addFailure (x : Exported) (f : WriteFailure) : Exported :=
  { x with failures := x.failures ++ [f] }

/-- One warning more. -/
def addWarning (x : Exported) (w : String) : Exported := { x with warnings := x.warnings ++ [w] }

/-- The manifest of what was done. -/
def manifest (x : Exported) (s : ExportSettings) : Manifest :=
  Manifest.ofRecords s.directory.text s.timestamp s.config.layout x.records x.skipped

end Exported

namespace ExportSettings

/-- A path under the output directory. -/
def pathOf (s : ExportSettings) (path : String) : Pathname :=
  s.directory.child (Pathname.ofText path)

/-- Writes a content and notes it; a fault of the system is noted as `onFault` says. -/
def writeNoted (s : ExportSettings) (path content : String)
    (onFault : Exported → Fault → Exported) (x : Exported) : FileAction Exported := do
  match ← FileAction.attempt (FileAction.writeFile (s.pathOf path) content s.atomic) with
  | .ok _ => return x.addRecord (FileRecord.ofContent path content)
  | .error f => if f.cause.isSystem then return onFault x f else throw f

/-- Writes a content at a path. -/
def writeOne (s : ExportSettings) (path content : String) (x : Exported) : FileAction Exported :=
  s.writeNoted path content (fun x f => x.addFailure ⟨path, f⟩) x

/-- Exports one file. -/
def exportOne (s : ExportSettings) (f : GeneratedFile) (x : Exported) : FileAction Exported := do
  let path := outputPath f s.config
  if f.overwrite then s.writeOne path f.content x
  else if ← FileAction.exists? (s.pathOf path) then return x.addSkipped path
  else s.writeOne path f.content x

/-- Exports files in order. -/
def exportFiles (s : ExportSettings) : List GeneratedFile → Exported → FileAction Exported
  | [], x => pure x
  | f :: rest, x => do
    let x ← s.exportOne f x
    s.exportFiles rest x

/-- The export needs a description of the package. -/
def describesPackage (s : ExportSettings) (files : List GeneratedFile) : Bool :=
  s.config.layout == .package && needsPackageJson files

/-- Writes the description of the package where it is needed. -/
def exportPackageJson (s : ExportSettings) (files : List GeneratedFile) (x : Exported) :
    FileAction Exported :=
  if s.describesPackage files then
    s.writeOne (packageJsonPath s.config) (packageJson s.config) x
  else pure x

/-- Writes the manifest if it is asked for; a fault is no failure of the export. -/
def exportManifest (s : ExportSettings) (x : Exported) : FileAction Exported :=
  if s.withManifest then
    s.writeNoted manifestName ((x.manifest s).json (.indented 2))
      (fun x f => x.addWarning ("Could not write manifest: " ++ f.text)) x
  else pure x

/-- Exports the files of a plan, and notes it behind what was done before. -/
def exportFrom (s : ExportSettings) (files : List GeneratedFile) (x : Exported) :
    FileAction Exported := do
  let x ← s.exportFiles files x
  let x ← s.exportPackageJson files x
  s.exportManifest x

/-- Exports the files of a plan. -/
def exportAll (s : ExportSettings) (files : List GeneratedFile) : FileAction Exported :=
  s.exportFrom files {}

end ExportSettings

/-- One record more adds its bytes to the total of the manifest. -/
theorem totalBytes_addRecord (x : Exported) (s : ExportSettings) (r : FileRecord) :
    ((x.addRecord r).manifest s).totalBytes = (x.manifest s).totalBytes + r.sizeBytes :=
  List.foldl_append

end SchemaTypes.Output
