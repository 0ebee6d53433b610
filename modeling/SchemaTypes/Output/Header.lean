/-
# Headers of generated files

Files that are overwritten say so in three languages; model files say that they belong to the
user.
-/
import SchemaTypes.TypeScript.Source

namespace SchemaTypes.Output

/-- The subject of most generated files. -/
def defaultSubject : String := "Auto-generated TypeScript types from TypeGen schemas."

/-- The header of a file that is overwritten. -/
def generatedHeader (subject : String) : String :=
  TypeScript.docComment
    ["⚠️ DO NOT EDIT THIS FILE! ⚠️",
     "このファイルを編集しないでください！",
     "KHÔNG ĐƯỢC SỬA FILE NÀY!",
     "",
     subject,
     "Any manual changes will be OVERWRITTEN on next generation.",
     "",
     "To modify: Edit the schema YAML file and run: typegen"]
    "" false

/-- The header of a model file. -/
def modelHeader (name : String) (zod : Bool) : String :=
  TypeScript.docComment
    [name ++ " Model",
     "",
     "This file extends the auto-generated base interface.",
     "You can add custom methods, computed properties, or override "
       ++ (if zod then "types/schemas" else "types") ++ " here.",
     "This file will NOT be overwritten by the generator."]
    "" false

end SchemaTypes.Output
