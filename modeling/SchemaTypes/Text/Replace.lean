/-
# Replacing a text inside a text

`replaceAll` goes from left to right, replaces every occurrence that does not overlap an earlier
one, and never looks at what it has put in.
-/
namespace SchemaTypes.Text

/-- Replaces the occurrences of a text that is not empty. -/
def replaceAll (needle into : List Char) (cs : List Char) : List Char :=
  match cs with
  | [] => []
  | c :: r =>
    if needle.isPrefixOf (c :: r) then into ++ replaceAll needle into (r.drop (needle.length - 1))
    else c :: replaceAll needle into r
termination_by cs.length

/-- Replaces the occurrences of a string that is not empty. -/
def replace (s needle into : String) : String :=
  String.ofList (replaceAll needle.toList into.toList s.toList)

@[simp] theorem replaceAll_nil (needle into : List Char) : replaceAll needle into [] = [] := by
  simp [replaceAll]

end SchemaTypes.Text
