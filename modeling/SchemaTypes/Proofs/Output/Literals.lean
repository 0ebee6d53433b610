/-
# The listed values of a property

The values that a property lists are written in four places: as a union in its interface, as the
union and as the list of values in the file of the alias, and as the argument of the validator.
Each of the four is read back as the values, in order, exactly if every value is on one line
(`listed_values_read_iff`): a quoted text escapes quotes and backslashes, and keeps line breaks.
-/
import Mathlib
import SchemaTypes.Output.EnumModule
import SchemaTypes.Zod.Property
import SchemaTypes.Proofs.TypeScript.Scanner

namespace SchemaTypes

namespace TypeScript

/-- The statements of a file. -/
def SourceFile.statements (f : SourceFile) : List Statement :=
  (Block.declarationsOf f.blocks).flatMap (·.statements)

/-- The expression of the type alias of a name. -/
def SourceFile.aliasExpr? (f : SourceFile) (name : String) : Option String :=
  f.statements.findSome? fun
    | .typeAlias n expr => if n = name then some expr else none
    | _ => none

/-- The value of the constant of a name. -/
def SourceFile.constant? (f : SourceFile) (name : String) : Option String :=
  f.statements.findSome? fun
    | .const _ n _ value => if n = name then some value else none
    | _ => none

end TypeScript

namespace Output

open TypeScript (OneLine literalsOf literalsFrom literalsFrom_skip literalsFrom_joined_iff)

/-- Quoted values between two texts without quotes. -/
theorem literalsOf_joined_iff (sep front back : String) (hsep : '\'' ∉ sep.toList)
    (hfront : '\'' ∉ front.toList) (hback : '\'' ∉ back.toList) (values : List String) :
    literalsOf (front ++ String.intercalate sep (values.map TypeScript.quote) ++ back) = values
      ↔ ∀ v ∈ values, OneLine v := by
  rw [literalsOf, String.toList_append, String.toList_append, List.append_assoc,
    literalsFrom_skip hfront]
  exact literalsFrom_joined_iff hsep hback values

theorem literalUnion_read_iff (values : List String) :
    literalsOf (TypeExpr.literalUnion values) = values ↔ ∀ v ∈ values, OneLine v := by
  have hiff := literalsOf_joined_iff " | " "" "" (by decide) (by decide) (by decide) values
  rwa [String.empty_append, String.append_empty] at hiff

/-- A text that is written where no values are listed. -/
theorem nil_read_iff {text : String} (h : '\'' ∉ text.toList) :
    literalsOf text = [] ↔ ∀ v ∈ ([] : List String), OneLine v := by
  have hskip := literalsFrom_skip h []
  rw [List.append_nil] at hskip
  exact iff_of_true hskip fun _ hv => nomatch hv

/-- The file of an alias holds its expression and the list of its values. -/
theorem aliasModule_holds (a : TypeAlias) :
    (aliasModule a).aliasExpr? a.name = some a.typeExpr ∧
      (aliasModule a).constant? (a.name ++ "Values")
        = some ("[" ++ Zod.literals a.values ++ "]") := by
  constructor <;> simp [aliasModule, TypeScript.SourceFile.aliasExpr?,
    TypeScript.SourceFile.constant?, TypeScript.SourceFile.statements,
    TypeScript.Block.declarationsOf, TypeScript.Block.declarations, TypeScript.Block.described,
    TypeScript.Block.declare, typeGuard, plainLabelFunction, labelFunction, extraFunction]

/-- **The listed values of a property** are read back from the type in the interface, from the
union and the list in the file of the alias, and from the validator, exactly if each of them is on
one line. -/
theorem listed_values_read_iff (values : List EnumValue) (name comment : String) :
    let raw := values.map (·.value)
    let a : TypeAlias := ⟨name, raw, comment⟩
    (literalsOf (TypeExpr.ofValues values).expr = raw ↔ ∀ v ∈ raw, OneLine v) ∧
      (∃ union, (aliasModule a).aliasExpr? name = some union ∧
        (literalsOf union = raw ↔ ∀ v ∈ raw, OneLine v)) ∧
      (∃ list, (aliasModule a).constant? (name ++ "Values") = some list ∧
        (literalsOf list = raw ↔ ∀ v ∈ raw, OneLine v)) ∧
      (literalsOf (Zod.ofValues values).text = raw ↔ ∀ v ∈ raw, OneLine v) := by
  intro raw a
  obtain ⟨hexpr, hconst⟩ := aliasModule_holds a
  refine ⟨?_, ⟨_, hexpr, literalUnion_read_iff raw⟩, ⟨_, hconst, ?_⟩, ?_⟩
  · cases values with
    | nil => exact nil_read_iff (by decide)
    | cons v rest => exact literalUnion_read_iff raw
  · exact literalsOf_joined_iff ", " "[" "]" (by decide) (by decide) (by decide) raw
  · cases values with
    | nil => exact nil_read_iff (by decide)
    | cons v rest =>
      have hiff := literalsOf_joined_iff ", " "z.enum([" "])" (by decide) (by decide)
        (by decide) raw
      simpa [Zod.ofValues, Zod.Expr.text, Zod.Base.text, Zod.literals, raw] using hiff

/-- A value on two lines is cut off in all four places. -/
theorem line_break_cuts_value :
    let values : List EnumValue := [⟨"a\nb", none, none⟩]
    let a : TypeAlias := ⟨"Note", ["a\nb"], "Note"⟩
    literalsOf (TypeExpr.ofValues values).expr = ["a", ""] ∧
      ((aliasModule a).aliasExpr? "Note").map literalsOf = some ["a", ""] ∧
      ((aliasModule a).constant? "NoteValues").map literalsOf = some ["a", "]"] ∧
      literalsOf (Zod.ofValues values).text = ["a", "])"] ∧
      ["a", ""] ≠ values.map (·.value) ∧ ["a", "]"] ≠ values.map (·.value) ∧
      ["a", "])"] ≠ values.map (·.value) := by
  decide +kernel

end Output

end SchemaTypes
