/-
# Reading generated files

A generated file given as a record.
-/
import SchemaTypes.Reading.Record
import SchemaTypes.Output.File

namespace SchemaTypes.Reading

open Output (Category GeneratedFile)

/-- The category of a file. -/
def category : Reader Category
  | .text s =>
    if s == "schema" then .accepted .schema
    else if s == "base" then .accepted .base
    else if s == "enum" then .accepted .enum
    else if s == "plugin-enum" then .accepted .pluginEnum
    else .fail .notAChoice
  | _ => .fail .notAChoice

/-- A generated file. -/
def generatedFile : Reader GeneratedFile := record fun es =>
  GeneratedFile.mk
    <$> field (word "path") nonEmptyText es
    <*> field (word "content") text es
    <*> fieldOr (word "category") .schema category es
    <*> fieldOr (word "overwrite") true switch es
    <*> fieldOr (word "types") [] (list text) es

end SchemaTypes.Reading
