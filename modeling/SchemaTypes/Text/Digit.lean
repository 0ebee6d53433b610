/-
# Decimal digits of all scripts

A decimal digit of Unicode 14 stands for zero to nine.  The ten digits of a script follow each
other, so that their zero alone is listed.
-/
import SchemaTypes.Text.Case

namespace SchemaTypes.Text

/-- The zeros of the scripts other than Latin. -/
def scriptZeros : List Nat := [
  0x660, 0x6F0, 0x7C0, 0x966, 0x9E6, 0xA66, 0xAE6, 0xB66, 0xBE6, 0xC66, 0xCE6, 0xD66, 0xDE6,
  0xE50, 0xED0, 0xF20, 0x1040, 0x1090, 0x17E0, 0x1810, 0x1946, 0x19D0, 0x1A80, 0x1A90, 0x1B50,
  0x1BB0, 0x1C40, 0x1C50, 0xA620, 0xA8D0, 0xA900, 0xA9D0, 0xA9F0, 0xAA50, 0xABF0, 0xFF10,
  0x104A0, 0x10D30, 0x11066, 0x110F0, 0x11136, 0x111D0, 0x112F0, 0x11450, 0x114D0, 0x11650,
  0x116C0, 0x11730, 0x118E0, 0x11950, 0x11C50, 0x11D50, 0x11DA0, 0x16A60, 0x16AC0, 0x16B50,
  0x1D7CE, 0x1D7D8, 0x1D7E2, 0x1D7EC, 0x1D7F6, 0x1E140, 0x1E2F0, 0x1E950, 0x1FBF0]

/-- A decimal digit of another script as an ASCII digit; other characters stay. -/
def asciiDigit (c : Char) : Char :=
  if c.toNat < 0x660 then c
  else
    match scriptZeros.find? fun z => z ≤ c.toNat && c.toNat ≤ z + 9 with
    | some z => Char.ofNat ('0'.toNat + (c.toNat - z))
    | none => c

example : scriptZeros.length = 65 := by decide
example : ['٣', '९', '３', 'x'].map asciiDigit = ['3', '9', '3', 'x'] := by decide

/-- ASCII digits stand for themselves. -/
theorem asciiDigit_of_isDigit {c : Char} (h : isDigit c = true) : asciiDigit c = c := by
  have hc : c.toNat < 0x660 := by
    simp only [isDigit, Bool.and_eq_true, decide_eq_true_eq] at h
    have := h.2
    have : c.toNat ≤ '9'.toNat := this
    have : '9'.toNat = 57 := by decide
    omega
  simp [asciiDigit, hc]

end SchemaTypes.Text
