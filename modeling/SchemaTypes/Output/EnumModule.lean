/-
# Files of enumerations

An enumeration becomes a file with the type, the list of its values, a type guard, and two functions
that give the label and the further data of a value (`enumModule`).  An alias becomes a file with
the same names (`aliasModule`).  Further data that have no form in JSON cannot be written, nor data
beyond the limits of writing; `room` is the number of lists and maps that may stand inside each
other.
-/
import SchemaTypes.Enumeration
import SchemaTypes.Zod.Expr
import SchemaTypes.Data.Json.Printer
import SchemaTypes.Output.Header

namespace SchemaTypes.Output

open TypeScript (Statement Block SourceFile quote escapeString bracedLines)

/-- What cannot be written: a value in the further data of a member, or a number of an entity with
too many digits. -/
inductive Unwritable where
  | extra (enumeration member : String) (obstacle : Json.Obstacle)
  | number (entity : String)
deriving DecidableEq, Repr

/-! ## 1. Functions on values -/

/-- A function of a value of the type that gives a text. -/
def labelFunction (name params doc : String) (body : List String) : Block :=
  .described (.function ("get" ++ name ++ "Label") params "string" body) doc

/-- The function for further data. -/
def extraFunction (name param doc : String) (body : List String) : Block :=
  .described
    (.function ("get" ++ name ++ "Extra") (param ++ ": " ++ name)
      "Record<string, unknown> | undefined" body)
    doc

/-- The label function of a type without labels. -/
def plainLabelFunction (name : String) : Block :=
  labelFunction name ("value: " ++ name)
    ("Get label for " ++ name ++ " value (returns value as-is)")
    ["return value;"]

/-- The type guard. -/
def typeGuard (name : String) : Block :=
  .described
    (.function ("is" ++ name) "value: unknown" ("value is " ++ name)
      ["return " ++ name ++ "Values.includes(value as " ++ name ++ ");"])
    ("Type guard for " ++ name)

/-! ## 2. Labels -/

/-- The key of a member in a table. -/
def memberKey (name : String) (m : EnumMember) : String := "[" ++ name ++ "." ++ m.name ++ "]"

/-- The line of a member in a table of labels by locale. -/
def localeLabelLine (name : String) (m : EnumMember) (label : Label) : String :=
  let texts :=
    match label with
    | .byLocale texts =>
      String.intercalate ", " (texts.map fun t => "'" ++ escapeString t.1 ++ "': " ++ quote t.2)
    | .plain t => "default: " ++ quote t
  "  " ++ memberKey name m ++ ": \x7b " ++ texts ++ " \x7d,"

/-- The line of a member in a table of plain labels. -/
def plainLabelLine (name : String) (m : EnumMember) (label : Label) : String :=
  let text :=
    match label with
    | .plain t => t
    | .byLocale _ => ""
  "  " ++ memberKey name m ++ ": " ++ quote text ++ ","

/-- The lines of the members that have a label. -/
def labelLines (line : EnumMember → Label → String) (e : Enumeration) : List String :=
  e.members.filterMap fun m => m.label.map (line m)

/-- The locales that the label function falls back to. -/
def labelChain (fallback : String) : List String := [fallback, "en"].eraseDups

/-- The label function of a type with labels by locale. -/
def localeLabelBlocks (e : Enumeration) (fallback : String) : List Block :=
  let table := Naming.lowerFirst e.name ++ "Labels"
  let chain := labelChain fallback
  let lookups := String.intercalate " ?? " (chain.map fun l => "labels[" ++ quote l ++ "]")
  [.declare
     (.const false table (some ("Partial<Record<" ++ e.name ++ ", Record<string, string>>>"))
       (bracedLines (labelLines (localeLabelLine e.name) e)))
     none false,
   labelFunction e.name ("value: " ++ e.name ++ ", locale?: string")
     ("Get label for " ++ e.name ++ " value with locale support")
     ["const labels = " ++ table ++ "[value];",
      "if (!labels) return value;",
      "if (locale && labels[locale]) return labels[locale];",
      "// Fallback: " ++ String.intercalate " → " chain ++ " → first available",
      "return " ++ lookups ++ " ?? Object.values(labels)[0] ?? value;"]]

/-- The label function of a type with plain labels. -/
def plainLabelBlocks (e : Enumeration) : List Block :=
  let table := Naming.lowerFirst e.name ++ "Labels"
  [.declare
     (.const false table (some ("Partial<Record<" ++ e.name ++ ", string>>"))
       (bracedLines (labelLines (plainLabelLine e.name) e)))
     none false,
   labelFunction e.name ("value: " ++ e.name)
     ("Get label for " ++ e.name ++ " value (fallback to value if no label)")
     ["return " ++ table ++ "[value] ?? value;"]]

/-- The label function of a type. -/
def labelBlocks (e : Enumeration) (fallback : String) : List Block :=
  if !e.hasLabels then [plainLabelFunction e.name]
  else if e.hasMultiLocaleLabels then localeLabelBlocks e fallback
  else plainLabelBlocks e

/-! ## 3. Further data -/

/-- The line of a member in the table of further data. -/
def extraLine (room : Nat) (name : String) (m : EnumMember) (extra : List (String × Value)) :
    Except Unwritable String :=
  match (Value.ofFields extra).json room .compact with
  | .ok text => .ok ("  " ++ memberKey name m ++ ": " ++ text ++ ",")
  | .error o => .error (.extra name m.name o)

/-- The lines of the members that have further data. -/
def extraLines (room : Nat) (name : String) : List EnumMember → Except Unwritable (List String)
  | [] => .ok []
  | m :: rest =>
    match m.extra with
    | none => extraLines room name rest
    | some extra => do
      let line ← extraLine room name m extra
      let lines ← extraLines room name rest
      return line :: lines

/-- The function for the further data of a type. -/
def extraBlocks (room : Nat) (e : Enumeration) : Except Unwritable (List Block) :=
  let doc := "Get extra metadata for " ++ e.name ++ " value (undefined if not defined)"
  if !e.hasExtra then .ok [extraFunction e.name "_value" doc ["return undefined;"]]
  else do
    let table := Naming.lowerFirst e.name ++ "Extra"
    let lines ← extraLines room e.name e.members
    return [
      .declare
        (.const false table (some ("Partial<Record<" ++ e.name ++ ", Record<string, unknown>>>"))
          (bracedLines lines))
        none false,
      extraFunction e.name "value" doc ["return " ++ table ++ "[value];"]]

/-! ## 4. Files -/

/-- The type of an enumeration. -/
def enumStatement (e : Enumeration) : Statement :=
  .enum e.name (e.members.map fun m => "  " ++ m.name ++ " = " ++ quote m.value ++ ",")

/-- The file of an enumeration. -/
def enumModule (room : Nat) (e : Enumeration) (fallback : String) :
    Except Unwritable SourceFile := do
  let extra ← extraBlocks room e
  return {
    header := some (generatedHeader defaultSubject)
    blocks :=
      [.declare (enumStatement e) (some [e.comment]) true,
       .described
         (.const true (e.name ++ "Values") none
           ("Object.values(" ++ e.name ++ ") as " ++ e.name ++ "[]"))
         ("All " ++ e.name ++ " values"),
       typeGuard e.name]
        ++ labelBlocks e fallback ++ extra }

/-- The file of an alias. -/
def aliasModule (a : TypeAlias) : SourceFile :=
  { header := some (generatedHeader defaultSubject)
    blocks :=
      [.declare (.typeAlias a.name a.typeExpr) (some [a.comment]) true,
       .described
         (.const true (a.name ++ "Values") (some (a.name ++ "[]"))
           ("[" ++ Zod.literals a.values ++ "]"))
         ("All " ++ a.name ++ " values"),
       typeGuard a.name,
       plainLabelFunction a.name,
       extraFunction a.name "_value"
         ("Get extra metadata for " ++ a.name ++ " value (always undefined for type aliases)")
         ["return undefined;"]] }

/-- Without further data the file of an enumeration can be written. -/
theorem enumModule_isOk_of_not_hasExtra {e : Enumeration} (h : e.hasExtra = false) (room : Nat)
    (fallback : String) : ∃ f, enumModule room e fallback = .ok f := by
  simp [enumModule, extraBlocks, h, bind, Except.bind, pure, Except.pure]

end SchemaTypes.Output
