/-
# Findings

What a check of a snapshot finds: errors, warnings and remarks, each with a code, a message and
the data that it is about.  A list of findings is valid when it holds no error, however many
warnings it holds.
-/
import SchemaTypes.Data.Value
import SchemaTypes.Text.Case

namespace SchemaTypes

/-- How serious a finding is. -/
inductive Level where
  | error
  | warning
  | info
  | other (name : String)
deriving DecidableEq, Repr

namespace Level

/-- The word for a level. -/
def text : Level → String
  | .error => "error"
  | .warning => "warning"
  | .info => "info"
  | .other name => name

/-- The level of a word. -/
def ofText (s : String) : Level :=
  if s == "error" then .error
  else if s == "warning" then .warning
  else if s == "info" then .info
  else .other s

/-- The sign of a level in a report. -/
def icon : Level → String
  | .error => "❌"
  | .warning => "⚠️"
  | .info => "ℹ️"
  | .other _ => "•"

end Level

/-- One finding. -/
structure Finding where
  level : Level
  code : String
  message : String
  context : List (String × Value) := []
deriving Repr

/-- A finding in one line. -/
def Finding.text (f : Finding) : String :=
  "[" ++ String.ofList (Text.upper f.level.text.toList) ++ "] " ++ f.code ++ ": " ++ f.message

/-- The findings of a check, in order. -/
structure Findings where
  items : List Finding := []
deriving Repr

namespace Findings

/-- One finding more. -/
def add (fs : Findings) (f : Finding) : Findings := ⟨fs.items ++ [f]⟩

/-- The findings of two checks. -/
def append (fs gs : Findings) : Findings := ⟨fs.items ++ gs.items⟩

/-- The errors. -/
def errors (fs : Findings) : List Finding := fs.items.filter (·.level == .error)

/-- The warnings. -/
def warnings (fs : Findings) : List Finding := fs.items.filter (·.level == .warning)

/-- There is no error. -/
def isValid (fs : Findings) : Bool := fs.errors.isEmpty

/-- The codes. -/
def codes (fs : Findings) : List String := fs.items.map (·.code)

/-- The numbers of findings in one line. -/
def summary (fs : Findings) : String :=
  "Validation: " ++ toString fs.errors.length ++ " error(s), "
    ++ toString fs.warnings.length ++ " warning(s), "
    ++ toString fs.items.length ++ " total item(s)."

/-- The findings in one word. -/
def describe (fs : Findings) : String := "<ValidationResult " ++ fs.summary ++ ">"

/-- The line of a finding in a report. -/
def reportLine (f : Finding) : String := "  " ++ f.level.icon ++ " [" ++ f.code ++ "] " ++ f.message

/-- All findings, one a line; remarks only if they are asked for. -/
def report (fs : Findings) (withInfo : Bool) : String :=
  let shown := fs.items.filter fun f => withInfo || f.level != .info
  String.intercalate "\n" ([fs.summary, ""] ++ shown.map reportLine)

@[simp] theorem errors_append (fs gs : Findings) :
    (fs.append gs).errors = fs.errors ++ gs.errors := by
  simp [append, errors]

end Findings

end SchemaTypes
