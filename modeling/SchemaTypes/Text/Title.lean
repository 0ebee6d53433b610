/-
# Words with a capital in front

`title` gives the first letter of each word its capital form and the others their small form.  At
the beginning of a word most characters have the form that they have among capitals; a character
that stands for two letters has only the first of them as a capital (`titleChar`).
-/
import SchemaTypes.Text.Case

namespace SchemaTypes.Text

/-- The code points whose form at the beginning of a word is one other character than among
capitals. -/
def titleRuns : List CaseRun := [
  ⟨0x1C4, 0x1C4, 1, 1⟩, ⟨0x1C5, 0x1C5, 1, 0⟩, ⟨0x1C6, 0x1C6, 1, -1⟩, ⟨0x1C7, 0x1C7, 1, 1⟩,
  ⟨0x1C8, 0x1C8, 1, 0⟩, ⟨0x1C9, 0x1C9, 1, -1⟩, ⟨0x1CA, 0x1CA, 1, 1⟩, ⟨0x1CB, 0x1CB, 1, 0⟩,
  ⟨0x1CC, 0x1CC, 1, -1⟩, ⟨0x1F1, 0x1F1, 1, 1⟩, ⟨0x1F2, 0x1F2, 1, 0⟩, ⟨0x1F3, 0x1F3, 1, -1⟩,
  ⟨0x10D0, 0x10FA, 1, 0⟩, ⟨0x10FD, 0x10FF, 1, 0⟩, ⟨0x1F80, 0x1F87, 1, 8⟩, ⟨0x1F88, 0x1F8F, 1, 0⟩,
  ⟨0x1F90, 0x1F97, 1, 8⟩, ⟨0x1F98, 0x1F9F, 1, 0⟩, ⟨0x1FA0, 0x1FA7, 1, 8⟩, ⟨0x1FA8, 0x1FAF, 1, 0⟩,
  ⟨0x1FB3, 0x1FB3, 1, 9⟩, ⟨0x1FBC, 0x1FBC, 1, 0⟩, ⟨0x1FC3, 0x1FC3, 1, 9⟩, ⟨0x1FCC, 0x1FCC, 1, 0⟩,
  ⟨0x1FF3, 0x1FF3, 1, 9⟩, ⟨0x1FFC, 0x1FFC, 1, 0⟩]

/-- The code points whose form at the beginning of a word is several other characters. -/
def titleExpansions : List (Nat × List Nat) := [
  (0xDF, [0x53, 0x73]), (0x587, [0x535, 0x582]), (0x1FB2, [0x1FBA, 0x345]),
  (0x1FB4, [0x386, 0x345]), (0x1FB7, [0x391, 0x342, 0x345]), (0x1FC2, [0x1FCA, 0x345]),
  (0x1FC4, [0x389, 0x345]), (0x1FC7, [0x397, 0x342, 0x345]), (0x1FF2, [0x1FFA, 0x345]),
  (0x1FF4, [0x38F, 0x345]), (0x1FF7, [0x3A9, 0x342, 0x345]), (0xFB00, [0x46, 0x66]),
  (0xFB01, [0x46, 0x69]), (0xFB02, [0x46, 0x6C]), (0xFB03, [0x46, 0x66, 0x69]),
  (0xFB04, [0x46, 0x66, 0x6C]), (0xFB05, [0x53, 0x74]), (0xFB06, [0x53, 0x74]),
  (0xFB13, [0x544, 0x576]), (0xFB14, [0x544, 0x565]), (0xFB15, [0x544, 0x56B]),
  (0xFB16, [0x54E, 0x576]), (0xFB17, [0x544, 0x56D])]

/-- Raised and lowered letters, which have a case, and which a word boundary looks through. -/
def casedMarkRanges : List (Nat × Nat) := [
  (0x2B0, 0x2B8), (0x2C0, 0x2C1), (0x2E0, 0x2E4), (0x345, 0x345), (0x37A, 0x37A), (0x1D2C, 0x1D6A),
  (0x1D78, 0x1D78), (0x1D9B, 0x1DBF), (0x2071, 0x2071), (0x207F, 0x207F), (0x2090, 0x209C),
  (0x2C7C, 0x2C7D), (0xA69C, 0xA69D), (0xA770, 0xA770), (0xA7F8, 0xA7F9), (0xAB5C, 0xAB5F),
  (0x10780, 0x10780), (0x10783, 0x10785), (0x10787, 0x107B0), (0x107B2, 0x107BA)]

/-- The character has a case. -/
def hasCase (c : Char) : Bool := isCased c || inRanges casedMarkRanges c

/-- The form of a character at the beginning of a word. -/
def titleChar (c : Char) : List Char :=
  if c.toNat < 0x80 then upperChar c
  else
    match titleRuns.find? (·.covers c.toNat), titleExpansions.lookup c.toNat with
    | none, none => upperChar c
    | _, _ => mapCase titleRuns titleExpansions c

/-- The words of the text that follows the reversed text `before`, inside a word or not. -/
def titleAfter (before : List Char) (inWord : Bool) : List Char → List Char
  | [] => []
  | c :: r =>
    (if inWord then lowerBetween before c r else titleChar c)
      ++ titleAfter (c :: before) (hasCase c) r

/-- The text with a capital in front of each word. -/
def title (cs : List Char) : List Char := titleAfter [] false cs

example : title "min_length".toList = "Min_Length".toList := by decide +kernel
example : title "ßx ﬁN".toList = "Ssx Fin".toList := by decide +kernel

/-- A character of ASCII has the same form at the beginning of a word as among capitals. -/
theorem titleChar_ascii {c : Char} (h : c.toNat < 0x80) : titleChar c = upperChar c := by
  simp [titleChar, h]

end SchemaTypes.Text
