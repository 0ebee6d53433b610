/-
# The characters of numerals

A bound is printed with digits, signs, a point, the mark of an exponent, or as one of the two words
`inf` and `nan` (`Bound.isNumeral_literal`).  In particular a numeral holds none of the characters
by which expressions are put together.  And each has a digit, a sign, a point or an `n`
(`Bound.marked_text`), so it is no part of a word without these.
-/
import Mathlib
import SchemaTypes.Number.Bound

namespace SchemaTypes

/-! ## 1. Characters -/

/-- A character that occurs in numerals. -/
def isNumeralChar (c : Char) : Bool := c.isDigit || "+-.aefin".toList.contains c

/-- A text made of the characters of numerals. -/
def IsNumeral (s : String) : Prop := ∀ c ∈ s.toList, isNumeralChar c = true

instance : DecidablePred IsNumeral := fun s =>
  decidable_of_iff (s.toList.all isNumeralChar = true) List.all_eq_true

@[simp] theorem isNumeral_append {a b : String} :
    IsNumeral (a ++ b) ↔ IsNumeral a ∧ IsNumeral b := by
  simp only [IsNumeral, String.toList_append, List.mem_append, or_imp, forall_and]

@[simp] theorem isNumeral_ofList {cs : List Char} :
    IsNumeral (String.ofList cs) ↔ ∀ c ∈ cs, isNumeralChar c = true := by
  rw [IsNumeral, String.toList_ofList]

/-- No parenthesis occurs in a numeral. -/
theorem IsNumeral.paren_notMem {s : String} (h : IsNumeral s) : '(' ∉ s.toList := fun hm =>
  absurd (h _ hm) (by decide)

/-! ## 2. Whole numbers -/

theorem isNumeralChar_of_mem_toDigits {n : Nat} {c : Char} (h : c ∈ Nat.toDigits 10 n) :
    isNumeralChar c = true := by
  rw [isNumeralChar, Nat.isDigit_of_mem_toDigits (by decide) (by decide) h, Bool.true_or]

theorem isNumeral_toString_nat (n : Nat) : IsNumeral (toString n) := by
  rw [Nat.toString_eq_repr, Nat.repr, isNumeral_ofList]
  exact fun c hc => isNumeralChar_of_mem_toDigits hc

theorem isNumeral_toString (i : Int) : IsNumeral (toString i) := by
  cases i with
  | ofNat n => exact isNumeral_toString_nat n
  | negSucc n => exact isNumeral_append.2 ⟨by decide, isNumeral_toString_nat (n + 1)⟩

/-! ## 3. Doubles -/

namespace Double

theorem isNumeral_exponentText (e : Int) : IsNumeral (exponentText e) := by
  simp only [exponentText, isNumeral_append, isNumeral_ofList]
  refine ⟨⟨?_, ?_⟩, fun c hc => isNumeralChar_of_mem_toDigits hc⟩
  · split <;> decide
  · split <;> decide

theorem isNumeral_layOut {ds : List Char} (h : ∀ c ∈ ds, isNumeralChar c = true) (top : Int) :
    IsNumeral (layOut ds top) := by
  have hzeros : ∀ n, ∀ c ∈ List.replicate n '0', isNumeralChar c = true := by
    intro n c hc
    rw [List.eq_of_mem_replicate hc]
    decide
  have hjoin {as bs : List Char} (ha : ∀ c ∈ as, isNumeralChar c = true)
      (hb : ∀ c ∈ bs, isNumeralChar c = true) : ∀ c ∈ as ++ bs, isNumeralChar c = true :=
    fun c hc => (List.mem_append.1 hc).elim (ha c) (hb c)
  unfold layOut
  split
  · cases ds with
    | nil => exact (by decide : IsNumeral "0.0")
    | cons d r =>
      cases r with
      | nil => exact isNumeral_append.2 ⟨isNumeral_ofList.2 h, isNumeral_exponentText top⟩
      | cons d' r =>
        obtain ⟨hd, hr⟩ := List.forall_mem_cons.1 h
        refine isNumeral_append.2 ⟨isNumeral_ofList.2 ?_, isNumeral_exponentText top⟩
        exact List.forall_mem_cons.2 ⟨hd, List.forall_mem_cons.2 ⟨by decide, hr⟩⟩
  · split
    · exact isNumeral_append.2 ⟨by decide, isNumeral_ofList.2 (hjoin (hzeros _) h)⟩
    · simp only [isNumeral_append, isNumeral_ofList]
      refine ⟨⟨hjoin (fun c hc => h c (List.mem_of_mem_take hc)) (hzeros _), by decide⟩, ?_⟩
      split
      · decide
      · exact isNumeral_ofList.2 fun c hc => h c (List.mem_of_mem_drop hc)

theorem isNumeral_text (d : Double) : IsNumeral d.text := by
  cases d with
  | notANumber => decide
  | infinite negative => cases negative <;> decide
  | finite negative m q =>
    simp only [text, isNumeral_append]
    refine ⟨by split <;> decide, ?_⟩
    split
    · decide
    · refine isNumeral_layOut (fun c hc => ?_) _
      rw [dropZeros, List.mem_reverse] at hc
      exact isNumeralChar_of_mem_toDigits
        (List.mem_reverse.1 ((List.dropWhile_sublist _).subset hc))

end Double

/-! ## 4. Bounds -/

/-- **A bound is printed as a numeral**, whatever number it is. -/
theorem Bound.isNumeral_literal (b : Bound) : IsNumeral b.literal := by
  cases b with
  | whole i => exact isNumeral_toString i
  | real d =>
    cases hd : d.toInt? with
    | some i => simpa only [Bound.literal, hd] using isNumeral_toString i
    | none => simpa only [Bound.literal, hd] using d.isNumeral_text

theorem Bound.isNumeral_text (b : Bound) : IsNumeral b.text := by
  cases b with
  | whole i => exact isNumeral_toString i
  | real d => exact d.isNumeral_text

/-! ## 5. Marks of numerals -/

/-- A digit, a sign, a point or the letter of the two words. -/
def isMark (c : Char) : Bool := c.isDigit || "+-.n".toList.contains c

/-- A text with such a character. -/
def Marked (s : String) : Prop := ∃ c ∈ s.toList, isMark c = true

instance : DecidablePred Marked := fun s =>
  decidable_of_iff (s.toList.any isMark = true) List.any_eq_true

theorem marked_append {a b : String} : Marked (a ++ b) ↔ Marked a ∨ Marked b := by
  simp only [Marked, String.toList_append, List.mem_append, or_and_right, exists_or]

theorem marked_toString_nat (n : Nat) : Marked (toString n) := by
  obtain ⟨c, hc⟩ := List.exists_mem_of_ne_nil _ (Nat.toDigits_ne_nil (n := n) (b := 10))
  refine ⟨c, by rwa [Nat.toString_eq_repr, Nat.repr, String.toList_ofList], ?_⟩
  rw [isMark, Nat.isDigit_of_mem_toDigits (by decide) (by decide) hc, Bool.true_or]

theorem Double.marked_exponentText (e : Int) : Marked (exponentText e) := by
  refine marked_append.2 (.inl (marked_append.2 (.inl ?_)))
  split <;> decide

theorem Double.marked_layOut (ds : List Char) (top : Int) : Marked (layOut ds top) := by
  unfold layOut
  split
  · split
    · decide
    · exact marked_append.2 (.inr (marked_exponentText top))
    · exact marked_append.2 (.inl ⟨'.', by simp, by decide⟩)
  · split
    · exact marked_append.2 (.inl (by decide))
    · exact marked_append.2 (.inl (marked_append.2 (.inr (by decide))))

/-- **A bound is printed with a mark of numerals**, whatever number it is. -/
theorem Bound.marked_text (b : Bound) : Marked b.text := by
  cases b with
  | whole i =>
    cases i with
    | ofNat n => exact marked_toString_nat n
    | negSucc n => exact marked_append.2 (.inl (by decide))
  | real d =>
    cases d with
    | notANumber => decide
    | infinite negative => cases negative <;> decide
    | finite negative m q =>
      refine marked_append.2 (.inr ?_)
      split
      · decide
      · exact Double.marked_layOut _ _

end SchemaTypes
