/-
# Lines of a text

How many lines a text has, joining lines, and one spelling for all line breaks: a last line counts
whether or not a line break ends it, and the empty text has no line.
-/
namespace SchemaTypes.Text

/-- The number of lines of a text. -/
def countLinesOf (cs : List Char) : Nat :=
  if cs.isEmpty then 0
  else cs.count '\n' + (if cs.getLast? = some '\n' then 0 else 1)

/-- The number of lines of a string. -/
def countLines (s : String) : Nat := countLinesOf s.toList

/-- Strings one after the other with line breaks between them. -/
def joinLines (lines : List String) : String := String.intercalate "\n" lines

/-- Line feeds in place of carriage returns, with or without a line feed behind them. -/
def unifyLineBreaks : List Char → List Char
  | '\r' :: '\n' :: rest => '\n' :: unifyLineBreaks rest
  | '\r' :: rest => '\n' :: unifyLineBreaks rest
  | c :: rest => c :: unifyLineBreaks rest
  | [] => []

/-- No carriage return is left. -/
theorem not_mem_unifyLineBreaks (cs : List Char) : '\r' ∉ unifyLineBreaks cs := by
  fun_induction unifyLineBreaks cs with
  | case1 rest ih => simpa using ih
  | case2 rest _ ih => simpa using ih
  | case3 c rest _ hc ih =>
    have hne : '\r' ≠ c := fun e => hc e.symm
    simpa [hne] using ih
  | case4 => simp

@[simp] theorem countLinesOf_nil : countLinesOf [] = 0 := rfl

/-- A text that ends with a line break has as many lines as line breaks. -/
theorem countLinesOf_concat_newline (cs : List Char) :
    countLinesOf (cs ++ ['\n']) = cs.count '\n' + 1 := by
  simp [countLinesOf]

end SchemaTypes.Text
