/-
# Reading manifests

A manifest given as a record, as an export writes it.
-/
import SchemaTypes.Output.Manifest
import SchemaTypes.Reading.Record

namespace SchemaTypes.Reading

open Output (FileRecord Manifest)

/-- A number of things. -/
def count : Reader Nat := natFrom 0

/-- The record of a written file. -/
def fileRecord : Reader FileRecord := record fun es =>
  FileRecord.mk
    <$> field (word "relative_path") text es
    <*> fieldOr (word "size_bytes") 0 count es
    <*> fieldOr (word "line_count") 0 count es
    <*> fieldOr (word "sha256") "" text es

/-- A manifest. -/
def manifest : Reader Manifest := record fun es =>
  Manifest.mk
    <$> fieldOr (word "generator_version") "" text es
    <*> fieldOr (word "export_timestamp") "" text es
    <*> fieldOr (word "output_directory") "" text es
    <*> fieldOr (word "layout") "" text es
    <*> fieldOr (word "total_files") 0 count es
    <*> fieldOr (word "total_bytes") 0 count es
    <*> fieldOr (word "total_lines") 0 count es
    <*> fieldOr (word "files") [] (list fileRecord) es
    <*> fieldOr (word "skipped") [] (list text) es

end SchemaTypes.Reading
