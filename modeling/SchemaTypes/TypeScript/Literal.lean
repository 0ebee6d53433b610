/-
# Literals of TypeScript

Text inside single quotes (`quote`), and text inside a regular expression between slashes
(`escapeRegex`).  Both put a backslash in front of the characters that would otherwise end the
literal or mean something in it; every other character stands for itself.
-/
namespace SchemaTypes.TypeScript

/-- Puts a backslash in front of the characters of a class. -/
def escapeBy (special : Char → Bool) : List Char → List Char
  | [] => []
  | c :: r => if special c then '\\' :: c :: escapeBy special r else c :: escapeBy special r

/-- The characters that a quoted text escapes. -/
def isQuoteSpecial (c : Char) : Bool := c == '\\' || c == '\''

/-- The characters that mean something in a regular expression, and the slash that ends one. -/
def isRegexSpecial (c : Char) : Bool := ".*+?^$\x7b\x7d()|[]\\/".toList.contains c

/-- The escaped inside of a quoted text. -/
def escapeString (s : String) : String := String.ofList (escapeBy isQuoteSpecial s.toList)

/-- A text between single quotes. -/
def quote (s : String) : String := "'" ++ escapeString s ++ "'"

/-- A text that a regular expression between slashes matches literally. -/
def escapeRegex (s : String) : String := String.ofList (escapeBy isRegexSpecial s.toList)

/-! ## Reading escapes back -/

/-- Drops each backslash that escapes the character after it. -/
def unescape : List Char → List Char
  | '\\' :: c :: r => c :: unescape r
  | c :: r => c :: unescape r
  | [] => []

@[simp] theorem escapeBy_nil (p : Char → Bool) : escapeBy p [] = [] := rfl

/-- A class that holds the backslash is read back. -/
theorem unescape_escapeBy {p : Char → Bool} (hp : p '\\' = true) (cs : List Char) :
    unescape (escapeBy p cs) = cs := by
  induction cs with
  | nil => rfl
  | cons c r ih =>
    cases h : p c with
    | true => simp [escapeBy, h, unescape, ih]
    | false =>
      have hc : c ≠ '\\' := fun e => by simp [e, hp] at h
      simp [escapeBy, h, unescape, ih, hc]

end SchemaTypes.TypeScript
