/-
# Why a snapshot cannot be used

The causes for which loading or parsing a snapshot fails, and their messages.  A record whose
fields do not fit carries the list of its issues; a value of an unusable shape (`Breakage`) and a
scalar that stands for nothing are no causes of this kind and end the run by themselves.
-/
import SchemaTypes.Reading.Outcome
import SchemaTypes.Data.Value
import SchemaTypes.Data.Yaml.Cursor

namespace SchemaTypes

/-- The two formats of a snapshot file. -/
inductive FileFormat where
  | json
  | yaml
deriving DecidableEq, Repr

/-- Why a snapshot cannot be used. -/
inductive LoadError where
  | pathNotFound (path : String)
  | notUtf8 (path detail : String)
  | unreadable (path detail : String)
  | invalidJson (path detail : String)
  | invalidYaml (path : String)
  | topLevelNotMap (format : FileFormat) (path kind : String)
  | noSchemas
  | schemaNotMap (name kind : String)
  | schemasNotList (kind : String)
  | schemaIssues (issues : List Reading.Issue)
  | configIssues (issues : List Reading.Issue)
deriving DecidableEq, Repr

/-- What ends a reading: a cause with a message, a value of an unusable shape, or a scalar that
stands for nothing. -/
inductive ReadFailure where
  | load (e : LoadError)
  | broken (b : Reading.Breakage)
  | unusable (f : Yaml.Fault)
deriving DecidableEq, Repr

/-- The word for the kind of a value. -/
def Value.kindName : Value → String
  | .null => "NoneType"
  | .bool _ => "bool"
  | .int _ => "int"
  | .real _ => "float"
  | .text _ => "str"
  | .halfText => "str"
  | .stamp (.day ..) => "date"
  | .stamp (.moment ..) => "datetime"
  | .bytes _ => "bytes"
  | .list _ => "list"
  | .pair .. => "tuple"
  | .set _ => "set"
  | .map _ => "dict"
  | .endless => "dict"

/-- The top level that a format asks for. -/
def FileFormat.topLevel : FileFormat → String
  | .json => "JSON object"
  | .yaml => "YAML mapping"

/-- The message of a cause.  Issues and YAML faults have no text of their own. -/
def LoadError.message : LoadError → String
  | .pathNotFound path => "Schema path not found: " ++ path
  | .notUtf8 path detail => "Schema file " ++ path ++ " is not valid UTF-8: " ++ detail
  | .unreadable path detail => "Cannot read schema file " ++ path ++ ": " ++ detail
  | .invalidJson path detail => "Invalid JSON in " ++ path ++ ": " ++ detail
  | .invalidYaml path => "Invalid YAML in " ++ path
  | .topLevelNotMap format path kind =>
    "Expected a " ++ format.topLevel ++ " at top level of " ++ path ++ ", got " ++ kind ++ "."
  | .noSchemas => "Cannot find schemas in input. Expected top-level key: 'schemas'."
  | .schemaNotMap name kind => "Schema '" ++ name ++ "' must be a mapping, got " ++ kind ++ "."
  | .schemasNotList kind => "'schemas' must be a list or a mapping, got " ++ kind ++ "."
  | .schemaIssues _ => "Schema validation failed"
  | .configIssues _ => "Config validation failed"

end SchemaTypes
