/-
# Capital and small forms of a text

`lower` and `upper` change the case of a text by the full rules of Unicode: one character may
become several, and a capital sigma at the end of a word becomes the final form.  Text is a list
of characters, so that every law goes by recursion on it; ASCII letters are read off the code
point (`lower_ascii`, `upper_ascii`) and only the others consult the tables.
-/
import SchemaTypes.Text.CaseTable

namespace SchemaTypes.Text

/-! ## 1. Classes of characters -/

/-- An ASCII capital. -/
def isCapital (c : Char) : Bool := 'A' ≤ c && c ≤ 'Z'

/-- An ASCII small letter. -/
def isSmall (c : Char) : Bool := 'a' ≤ c && c ≤ 'z'

/-- An ASCII digit. -/
def isDigit (c : Char) : Bool := '0' ≤ c && c ≤ '9'

/-- An ASCII letter or digit. -/
def isAlphanumeric (c : Char) : Bool := isCapital c || isSmall c || isDigit c

/-- A code point inside one of the ranges. -/
def inRanges (ranges : List (Nat × Nat)) (c : Char) : Bool :=
  ranges.any fun r => r.1 ≤ c.toNat && c.toNat ≤ r.2

/-- A mark that a word boundary looks through. -/
def isCaseIgnorable (c : Char) : Bool := inRanges caseIgnorableRanges c

/-- A letter with a case that a word boundary does not look through. -/
def isCased (c : Char) : Bool :=
  if c.toNat < 0x80 then isCapital c || isSmall c else inRanges casedRanges c

/-! ## 2. One character -/

/-- The code point lies on the run. -/
def CaseRun.covers (r : CaseRun) (n : Nat) : Bool :=
  r.first ≤ n && n ≤ r.last && (n - r.first) % r.step == 0

/-- The image of a code point under the first run that covers it, itself if none does. -/
def shiftBy (runs : List CaseRun) (c : Char) : Char :=
  match runs.find? (·.covers c.toNat) with
  | some r => Char.ofNat (Int.ofNat c.toNat + r.shift).toNat
  | none => c

/-- The expansion of a code point, or else its image under the runs. -/
def mapCase (runs : List CaseRun) (expansions : List (Nat × List Nat)) (c : Char) : List Char :=
  match expansions.lookup c.toNat with
  | some cs => cs.map Char.ofNat
  | none => [shiftBy runs c]

/-- The small form of a character that stands alone. -/
def lowerChar (c : Char) : List Char :=
  if c.toNat < 0x80 then
    [if isCapital c then Char.ofNat (c.toNat + 32) else c]
  else mapCase lowerRuns lowerExpansions c

/-- The capital form of a character. -/
def upperChar (c : Char) : List Char :=
  if c.toNat < 0x80 then
    [if isSmall c then Char.ofNat (c.toNat - 32) else c]
  else mapCase upperRuns upperExpansions c

/-! ## 3. A text -/

/-- The first character that a word boundary does not look through has a case. -/
def startsCased (cs : List Char) : Bool :=
  match cs.find? (!isCaseIgnorable ·) with
  | some c => isCased c
  | none => false

/-- The small form of a character between the reversed text `before` and the text `rest`. -/
def lowerBetween (before : List Char) (c : Char) (rest : List Char) : List Char :=
  if c = 'Σ' then [if startsCased before && !startsCased rest then 'ς' else 'σ'] else lowerChar c

/-- The small form of the text `cs` that follows the reversed text `before`. -/
def lowerAfter (before : List Char) : List Char → List Char
  | [] => []
  | c :: r => lowerBetween before c r ++ lowerAfter (c :: before) r

/-- The small form of a text. -/
def lower (cs : List Char) : List Char := lowerAfter [] cs

/-- The capital form of a text. -/
def upper (cs : List Char) : List Char := cs.flatMap upperChar

/-- The small form of a string. -/
def lowerString (s : String) : String := String.ofList (lower s.toList)

/-- Small letters, digits and signs of ASCII are their own small form. -/
theorem lowerChar_ascii {c : Char} (h : c.toNat < 0x80) (hc : isCapital c = false) :
    lowerChar c = [c] := by
  simp [lowerChar, h, hc]

/-- Capitals, digits and signs of ASCII are their own capital form. -/
theorem upperChar_ascii {c : Char} (h : c.toNat < 0x80) (hc : isSmall c = false) :
    upperChar c = [c] := by
  simp [upperChar, h, hc]

@[simp] theorem lower_nil : lower [] = [] := rfl

@[simp] theorem upper_nil : upper [] = [] := rfl

theorem upper_append (a b : List Char) : upper (a ++ b) = upper a ++ upper b := by
  simp [upper]

end SchemaTypes.Text
