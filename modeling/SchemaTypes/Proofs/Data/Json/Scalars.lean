/-
# Scalars read back

What the printer writes for a text or a whole number is read as the same text and the same number,
whatever follows: a text ends with its quote (`readText_textChars`), a number with the first
character that cannot go on with it (`Closed`, `readAtom_int`).  Numbers with more than
`Numeral.lengthLimit` digits are not read.
-/
import Mathlib
import SchemaTypes.Data.Json.Printer
import SchemaTypes.Data.Json.Reader

namespace SchemaTypes.Json

open SchemaTypes.Numeral (IsShort)
open SchemaTypes.Text (isDigit)

variable {c : Char} {cs rest : List Char} {start : Nat} {done : Spelled}

/-! ## 1. Texts -/

/-- The digits of a control character stand for it. -/
theorem hexValue4?_control {n : Nat} (h : n < 32) :
    hexValue4? '0' '0' (hexDigit (n / 16)) (hexDigit n) = some n := by
  have hall : ∀ n < 32, hexValue4? '0' '0' (hexDigit (n / 16)) (hexDigit n) = some n := by
    decide +kernel
  exact hall n h

theorem readText_quote (r : List Char) : readText start done ('"' :: r) = .ok (done, r) := by
  rw [readText]

/-- An escape of one letter. -/
theorem readText_letter {e : Char} (h : plainEscape? e = some c) (r : List Char) :
    readText start done ('\\' :: e :: r) = readText start (done.push c) r := by
  have hu : e ≠ 'u' := by
    rintro rfl
    cases h
  rw [readText]
  · rw [if_neg hu]
    simp only [h]
  · rintro a b c d e' r' rfl
    exact absurd rfl hu

/-- An escape of four digits that stands for a character, if anything follows. -/
theorem readText_hex {a b c d e : Char} {n : Nat} (h : hexValue4? a b c d = some n)
    (hn : n < 0xD800) (r : List Char) :
    readText start done ('\\' :: 'u' :: a :: b :: c :: d :: e :: r)
      = readText start (done.push (Char.ofNat n)) (e :: r) := by
  have hhigh : isHighSurrogate n = false := by
    simp [isHighSurrogate]
    omega
  have hlow : isLowSurrogate n = false := by
    simp [isLowSurrogate]
    omega
  rw [readText]
  simp only [h, hhigh, hlow, Bool.false_eq_true, if_false]

/-- A character that stands for itself. -/
theorem readText_self (hquote : c ≠ '"') (hbackslash : c ≠ '\\') (h : 0x20 ≤ c.toNat)
    (r : List Char) : readText start done (c :: r) = readText start (done.push c) r := by
  rw [readText]
  · rw [if_neg (by omega)]
  · exact fun heq => absurd heq hquote
  · rintro a b c' d e r' rfl
    exact absurd rfl hbackslash
  · rintro d r' rfl
    exact absurd rfl hbackslash
  · rintro rfl
    exact absurd rfl hbackslash

/-- **A character is read back**: its form is read as the character, if anything follows. -/
theorem readText_escapeChar (c d : Char) (r : List Char) :
    readText start done (escapeChar c ++ d :: r) = readText start (done.push c) (d :: r) := by
  unfold escapeChar
  -- The quote, the backslash and five controls have a letter.
  iterate 7
    split
    · next h =>
      subst h
      exact readText_letter rfl _
  split
  · next h =>
    have hchar : Char.ofNat c.toNat = c := Char.ofNat_toNat c
    exact (readText_hex (hexValue4?_control h) (by omega) r).trans (by rw [hchar])
  · next hquote hbackslash _ _ _ _ _ h => exact readText_self hquote hbackslash (by omega) _

/-- Characters are read one after the other. -/
theorem readText_flatMap (cs rest : List Char) :
    readText start done (cs.flatMap escapeChar ++ '"' :: rest)
      = .ok (⟨cs.reverse ++ done.chars, done.isHalf⟩, rest) := by
  induction cs generalizing done with
  | nil => exact readText_quote rest
  | cons c cs ih =>
    obtain ⟨d, r, hr⟩ : ∃ d r, cs.flatMap escapeChar ++ '"' :: rest = d :: r :=
      List.exists_cons_of_ne_nil (by simp)
    rw [List.flatMap_cons, List.append_assoc, hr, readText_escapeChar, ← hr, ih, Spelled.push,
      List.reverse_cons, List.append_assoc]
    rfl

/-- **A text is read back** behind its opening quote. -/
theorem readText_text (s : String) (rest : List Char) :
    ∃ r, (text s).toList ++ rest = '"' :: r ∧
      ∀ start, readText start {} r = .ok (⟨s.toList.reverse, false⟩, rest) := by
  refine ⟨s.toList.flatMap escapeChar ++ '"' :: rest, ?_, fun start => ?_⟩
  · rw [text, String.toList_ofList, textChars, List.cons_append, List.append_assoc]
    rfl
  · rw [readText_flatMap, List.append_nil]

@[simp] theorem Spelled.key_text (s : String) :
    (⟨s.toList.reverse, false⟩ : Spelled).key = .text s := by
  rw [Spelled.key, if_neg Bool.false_ne_true, List.reverse_reverse, String.ofList_toList]

/-! ## 2. Whole numbers -/

/-- The rest of a text cannot go on with a number. -/
def Closed (rest : List Char) : Prop :=
  ∀ c ∈ rest.head?, isDigit c = false ∧ c ≠ '.' ∧ c ≠ 'e' ∧ c ≠ 'E'

theorem closed_nil : Closed [] := fun _ h => by cases h

theorem closed_cons (h : isDigit c = false ∧ c ≠ '.' ∧ c ≠ 'e' ∧ c ≠ 'E') : Closed (c :: rest) := by
  intro d hd
  cases hd
  exact h

theorem decimalValue_toDigits (n : Nat) : decimalValue (Nat.toDigits 10 n) = n := by
  have hstep : ∀ ds : List Char, decimalValue ds = Nat.ofDigitChars 10 ds 0 := fun ds => by
    rw [decimalValue, Nat.ofDigitChars_eq_foldl]
    simp only [Nat.mul_comm, Char.reduceToNat]
  rw [hstep, Nat.ofDigitChars_ten_toDigits]

/-- The digits of a positive number do not begin with a zero. -/
theorem head?_toDigits_ne_zero {n : Nat} (h : n ≠ 0) : (Nat.toDigits 10 n).head? ≠ some '0' := by
  induction n using Nat.strong_induction_on with
  | _ n ih =>
    rcases Nat.lt_or_ge n 10 with hlt | hge
    · rw [Nat.toDigits_of_lt_base hlt, List.head?_singleton]
      simpa using h
    · rw [Nat.toDigits_of_base_le (by decide) hge,
        List.head?_append_of_ne_nil _ Nat.toDigits_ne_nil]
      exact ih _ (by omega) (by omega)

theorem isDigit_of_mem_toDigits {n : Nat} (h : c ∈ Nat.toDigits 10 n) : isDigit c = true := by
  have hdigit := Nat.isDigit_of_mem_toDigits (by decide) (by decide) h
  simp only [Char.isDigit, Bool.and_eq_true, decide_eq_true_eq] at hdigit
  simp only [isDigit, Bool.and_eq_true, decide_eq_true_eq]
  exact hdigit

theorem takeWhile_isDigit {ds : List Char} (hds : ∀ c ∈ ds, isDigit c = true) (h : Closed rest) :
    (ds ++ rest).takeWhile isDigit = ds ∧ (ds ++ rest).dropWhile isDigit = rest := by
  have hnone : rest.takeWhile isDigit = [] ∧ rest.dropWhile isDigit = rest := by
    cases rest with
    | nil => exact ⟨rfl, rfl⟩
    | cons c r => simp [(h c rfl).1]
  rw [List.takeWhile_append_of_pos hds, List.dropWhile_append_of_pos hds, hnone.1, hnone.2,
    List.append_nil]
  exact ⟨rfl, rfl⟩

/-- The digits of a number are split off. -/
theorem splitWhole_toDigits (n : Nat) (h : Closed rest) :
    splitWhole (Nat.toDigits 10 n ++ rest) = (Nat.toDigits 10 n, rest) := by
  by_cases hn : n = 0
  · subst hn
    rfl
  · rw [splitWhole]
    · obtain ⟨htake, hdrop⟩ := takeWhile_isDigit (fun _ hc => isDigit_of_mem_toDigits (n := n) hc) h
      rw [htake, hdrop]
    · intro r heq
      refine head?_toDigits_ne_zero hn ?_
      rw [← List.head?_append_of_ne_nil _ Nat.toDigits_ne_nil, heq]
      rfl

theorem splitFraction_of_closed (h : Closed rest) : splitFraction rest = ([], rest) := by
  rw [splitFraction]
  rintro c r rfl
  exact (h '.' rfl).2.1 rfl

theorem splitExponent_of_closed (h : Closed rest) : splitExponent rest = (none, rest) := by
  cases rest with
  | nil => rfl
  | cons c r =>
    obtain ⟨-, -, he, hE⟩ := h c rfl
    simp [splitExponent, he, hE]

/-- **The digits of a number** are read as the number. -/
theorem readUnsigned_toDigits (negative : Bool) (n : Nat) (h : Closed rest) :
    readUnsigned negative (Nat.toDigits 10 n ++ rest)
      = some (.int (if negative then -Int.ofNat n else Int.ofNat n), rest) := by
  have hne : (Nat.toDigits 10 n).isEmpty = false := by simp [Nat.toDigits_ne_nil]
  rw [readUnsigned, splitWhole_toDigits n h]
  simp only [hne, splitFraction_of_closed h, splitExponent_of_closed h, decimalValue_toDigits,
    Bool.false_eq_true, if_false, List.isEmpty_nil, Option.isNone_none, Bool.and_self, if_true]

theorem isShort_iff {i : Int} :
    IsShort i ↔ ¬Numeral.lengthLimit < (Nat.toDigits 10 i.natAbs).length := by
  rw [IsShort, Nat.pow_eq]
  exact (Nat.length_toDigits_le_iff (by decide) (by decide)).symm.trans Nat.not_lt.symm

/-- The text of a number: its digits, behind a minus if it is negative. -/
theorem toList_toString_int (i : Int) :
    (toString i).toList = (if i < 0 then ['-'] else []) ++ Nat.toDigits 10 i.natAbs := by
  cases i with
  | ofNat n =>
    have hpos : ¬Int.ofNat n < 0 := Int.not_lt.2 (Int.natCast_nonneg n)
    rw [if_neg hpos, List.nil_append]
    exact (congrArg String.toList Nat.toString_eq_repr).trans Nat.toList_repr
  | negSucc n =>
    have htext : toString (Int.negSucc n) = "-" ++ toString (n + 1) := rfl
    rw [if_pos (Int.negSucc_lt_zero n), htext, String.toList_append, Nat.toString_eq_repr,
      Nat.toList_repr]
    rfl

/-- No word begins with a digit. -/
theorem readWord_of_isDigit (h : isDigit c = true) (r : List Char) : readWord (c :: r) = none := by
  rw [readWord]
  all_goals
    rintro t htext
    obtain rfl := (List.cons.inj htext).1
    revert h
    decide

/-- No word begins with a minus and a digit. -/
theorem readWord_of_isDigit_behind (h : isDigit c = true) (r : List Char) :
    readWord ('-' :: c :: r) = none := by
  rw [readWord]
  all_goals
    rintro t htext
    injection htext with hfirst hrest
    first
    | exact absurd hfirst (by decide)
    | obtain rfl := (List.cons.inj hrest).1
      revert h
      decide

/-- **A whole number is read back** if it is short; else its digits are counted. -/
theorem readAtom_int (i : Int) (h : Closed rest) :
    readAtom ((toString i).toList ++ rest) =
      if IsShort i then .ok (.int i, rest)
      else .error ⟨.tooManyDigits (Nat.toDigits 10 i.natAbs).length,
        ((toString i).toList ++ rest).length⟩ := by
  obtain ⟨d, ds, hds⟩ := List.exists_cons_of_ne_nil (Nat.toDigits_ne_nil (n := i.natAbs) (b := 10))
  have hd : isDigit d = true := isDigit_of_mem_toDigits (n := i.natAbs) (hds ▸ List.mem_cons_self)
  have hwhole := splitWhole_toDigits i.natAbs h
  have hnumber (negative : Bool) := readUnsigned_toDigits negative i.natAbs h
  simp only [toList_toString_int, isShort_iff, ite_not, hds, List.cons_append]
    at hwhole hnumber ⊢
  rcases lt_or_ge i 0 with hneg | hpos
  · have hvalue : -Int.ofNat i.natAbs = i := by
      rw [Int.ofNat_eq_natCast]
      omega
    rw [if_pos hneg, List.singleton_append, List.cons_append, List.cons_append, readAtom,
      readWord_of_isDigit_behind hd]
    simp only [hnumber, if_true, hvalue, wholeLength, hwhole]
  · have hvalue : Int.ofNat i.natAbs = i := by
      rw [Int.ofNat_eq_natCast]
      omega
    have hminus : ∀ r, d :: (ds ++ rest) = '-' :: r → False := by
      intro r heq
      rw [(List.cons.inj heq).1] at hd
      revert hd
      decide
    rw [if_neg (not_lt.2 hpos), List.nil_append, List.cons_append, readAtom,
      readWord_of_isDigit hd]
    · simp only [hnumber, Bool.false_eq_true, if_false, hvalue, wholeLength.eq_2 _ hminus, hwhole]
    · exact hminus

end SchemaTypes.Json
