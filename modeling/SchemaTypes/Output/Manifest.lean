/-
# The manifest of an export

What an export wrote: one record for each file with its size, its lines and its digest, the files
that it left alone, and the totals.
-/
import SchemaTypes.Output.File

namespace SchemaTypes.Output

/-- The version of the generator. -/
def generatorVersion : String := "1.0.0"

/-- The name of the file that holds the manifest. -/
def manifestName : String := ".typegen-manifest.json"

/-- A written file. -/
structure FileRecord where
  path : String
  sizeBytes : Nat
  lineCount : Nat
  sha256 : String
deriving DecidableEq, Repr

/-- The record of a content at a path. -/
def FileRecord.ofContent (path content : String) : FileRecord :=
  ⟨path, content.utf8ByteSize, Text.countLines content, Text.sha256Hex content⟩

/-- What an export wrote. -/
structure Manifest where
  version : String := ""
  timestamp : String := ""
  directory : String := ""
  layout : String := ""
  totalFiles : Nat := 0
  totalBytes : Nat := 0
  totalLines : Nat := 0
  files : List FileRecord := []
  skipped : List String := []
deriving DecidableEq, Repr

namespace Manifest

/-- The manifest of some records, with their totals. -/
def ofRecords (directory timestamp : String) (layout : OutputLayout) (files : List FileRecord)
    (skipped : List String) : Manifest :=
  { version := generatorVersion
    timestamp := timestamp
    directory := directory
    layout := layout.text
    totalFiles := files.length
    totalBytes := files.foldl (fun n r => n + r.sizeBytes) 0
    totalLines := files.foldl (fun n r => n + r.lineCount) 0
    files := files
    skipped := skipped }

/-- A record as data. -/
def recordValue (r : FileRecord) : Value :=
  Value.ofFields
    [("relative_path", .text r.path), ("size_bytes", .int r.sizeBytes),
     ("line_count", .int r.lineCount), ("sha256", .text r.sha256)]

/-- A manifest as data. -/
def value (m : Manifest) : Value :=
  Value.ofFields
    [("generator_version", .text m.version), ("export_timestamp", .text m.timestamp),
     ("output_directory", .text m.directory), ("layout", .text m.layout),
     ("total_files", .int m.totalFiles), ("total_bytes", .int m.totalBytes),
     ("total_lines", .int m.totalLines), ("files", .list (m.files.map recordValue)),
     ("skipped", Value.ofTexts m.skipped)]

/-- The text of a manifest; three lists and maps stand inside each other. -/
def json (m : Manifest) (layout : Json.Layout) : String := (m.value.json 3 layout).toOption.getD ""

end Manifest

end SchemaTypes.Output
