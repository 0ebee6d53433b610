/-
# Generated files

A generated file has a path in the generated tree, a content, a category that decides where it
goes, and a mark that tells whether an existing file is overwritten.  `outputPath` gives the place
of a file under the output directory for the layout of the run.
-/
import SchemaTypes.Schema.Config
import SchemaTypes.Data.Json.Printer
import SchemaTypes.Text.Digest
import SchemaTypes.Text.Lines
import SchemaTypes.Text.Path

namespace SchemaTypes.Output

/-- The category of a file. -/
inductive Category where
  | schema
  | base
  | enum
  | pluginEnum
deriving DecidableEq, Repr, Inhabited

/-- The word for a category. -/
def Category.text : Category → String
  | .schema => "schema"
  | .base => "base"
  | .enum => "enum"
  | .pluginEnum => "plugin-enum"

/-- A file before it is written. -/
structure GeneratedFile where
  path : String
  content : String
  category : Category := .schema
  overwrite : Bool := true
  types : List String := []
deriving DecidableEq, Repr

namespace GeneratedFile

/-- The number of lines. -/
def lineCount (f : GeneratedFile) : Nat := Text.countLines f.content

/-- The number of bytes. -/
def sizeBytes (f : GeneratedFile) : Nat := f.content.utf8ByteSize

/-- The digest of the content. -/
def checksum (f : GeneratedFile) : String := Text.sha256Hex f.content

/-- A file in one line. -/
def describe (f : GeneratedFile) : String :=
  "<GeneratedFile " ++ f.path ++ " [" ++ f.category.text ++ "] overwrite="
    ++ (if f.overwrite then "True" else "False") ++ ">"

end GeneratedFile

/-! ## Where files go -/

/-- The directory of the generated package. -/
def packageRoot (config : Config) : String := Path.join "node_modules" config.packageName

/-- The files that move into the package together with the entities. -/
def sharedFiles : List String := ["common.ts", "i18n.ts"]

/-- The place of a file under the output directory. -/
def outputPath (f : GeneratedFile) (config : Config) : String :=
  let name := Path.baseName f.path
  let models := config.modelsPath
  match config.layout, f.category with
  | .package, .enum => Path.join (Path.join (packageRoot config) "enum") name
  | .package, .pluginEnum => Path.join (Path.join (packageRoot config) "enum") name
  | .package, .base => Path.join (Path.join (packageRoot config) "schemas") name
  | .package, .schema =>
    if f.overwrite && sharedFiles.contains f.path then
      Path.join (Path.join (packageRoot config) "schemas") name
    else Path.join models f.path
  | .flat, .enum => Path.join (Path.join models "enum") name
  | .flat, .pluginEnum => Path.join (Path.join (Path.join models "enum") "plugin") name
  | .flat, _ => Path.join models f.path

/-- Some file goes into the package. -/
def needsPackageJson (files : List GeneratedFile) : Bool := files.any (·.category != .schema)

/-- The subpaths that the package offers, with the files behind them. -/
def packageExports : List (String × String) :=
  [("./enum/*", "./enum/*.ts"), ("./schemas/*", "./schemas/*.ts")]

/-- The description of the package. -/
def packageDocument (config : Config) : Value :=
  Value.ofFields
    [("name", .text config.packageName),
     ("version", .text "0.0.0"),
     ("private", .bool true),
     ("type", .text "module"),
     ("exports", Value.ofFields (packageExports.map fun e =>
        (e.1, Value.ofTextMap [("types", e.2), ("default", e.2)])))]

/-- The file that describes the package. -/
def packageJson (config : Config) : String :=
  ((packageDocument config).json 3 (.indented 2)).toOption.getD "" ++ "\n"

/-- The place of the file that describes the package. -/
def packageJsonPath (config : Config) : String := Path.join (packageRoot config) "package.json"

end SchemaTypes.Output
