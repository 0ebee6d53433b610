/-
# What a replacement leaves alone

A replacement finds nothing where a character of the needle is missing (`replaceAll_of_notMem`), and
it never reaches over a character that the needle does not hold (`replaceAll_append_cons`).
`replaceAll_induction` goes along a replacement; to replace a text by itself changes nothing
(`replaceAll_self`).
-/
import Mathlib
import SchemaTypes.Text.Replace

namespace SchemaTypes.Text

/-- Nothing is replaced up to where the first character of the needle occurs. -/
theorem replaceAll_append_of_notMem {c : Char} {needle into cs : List Char} (h : c ∉ cs)
    (rest : List Char) :
    replaceAll (c :: needle) into (cs ++ rest) = cs ++ replaceAll (c :: needle) into rest := by
  induction cs with
  | nil => rfl
  | cons d r ih =>
    have hd : c ≠ d := fun e => h (e ▸ List.mem_cons_self)
    have hr : c ∉ r := fun hm => h (List.mem_cons_of_mem _ hm)
    rw [List.cons_append, replaceAll, if_neg (by simp [hd]), ih hr, List.cons_append]

/-- Where the first character of the needle does not occur, nothing is replaced. -/
theorem replaceAll_of_notMem {c : Char} {needle into cs : List Char} (h : c ∉ cs) :
    replaceAll (c :: needle) into cs = cs := by
  have happend :
      replaceAll (c :: needle) into (cs ++ []) = cs ++ replaceAll (c :: needle) into [] :=
    replaceAll_append_of_notMem h []
  rwa [replaceAll_nil, List.append_nil] at happend

/-- A text that does not begin with the first character of the needle keeps its own. -/
theorem head?_replaceAll {c d : Char} {needle into r : List Char} (h : c ≠ d) :
    (replaceAll (c :: needle) into (d :: r)).head? = some d := by
  rw [replaceAll, if_neg (by simp [h]), List.head?_cons]

/-- What begins a text does not reach over a character that it does not hold. -/
theorem prefix_append_cons_iff {c : Char} {needle a b : List Char} (h : c ∉ needle) :
    needle <+: a ++ c :: b ↔ needle <+: a := by
  refine ⟨fun hn => ?_, fun hn => hn.trans (List.prefix_append _ _)⟩
  have ha : a <+: a ++ c :: b := List.prefix_append _ _
  rcases Nat.lt_or_ge a.length needle.length with hlt | hle
  · have hac : a ++ [c] <+: a ++ c :: b := ⟨b, by simp⟩
    have hlonger : a ++ [c] <+: needle :=
      List.prefix_of_prefix_length_le hac hn (by simpa using hlt)
    exact absurd (hlonger.subset (by simp)) h
  · exact List.prefix_of_prefix_length_le hn ha hle

/-- What occurs in a text occurs on one side of a character that it does not hold. -/
theorem infix_append_cons {c : Char} {needle a b : List Char} (h : c ∉ needle)
    (hin : needle <:+: a ++ c :: b) : needle <:+: a ∨ needle <:+: b := by
  induction a with
  | nil =>
    rcases List.infix_cons_iff.1 hin with hpre | hb
    · exact .inl ((prefix_append_cons_iff (a := []) h).1 hpre).isInfix
    · exact .inr hb
  | cons d a ih =>
    rcases List.infix_cons_iff.1 hin with hpre | hin
    · exact .inl ((prefix_append_cons_iff (a := d :: a) h).1 hpre).isInfix
    · exact (ih hin).imp_left fun ha => ha.trans (List.suffix_cons _ _).isInfix

/-- **A replacement works on both sides** of a character that the needle does not hold. -/
theorem replaceAll_append_cons {c : Char} {needle into : List Char} (hne : needle ≠ [])
    (h : c ∉ needle) (a b : List Char) :
    replaceAll needle into (a ++ c :: b)
      = replaceAll needle into a ++ c :: replaceAll needle into b := by
  induction ha : a.length using Nat.strong_induction_on generalizing a with
  | _ n ih =>
    cases a with
    | nil =>
      have hpre : ¬ needle <+: [] ++ c :: b := by
        rw [prefix_append_cons_iff h, List.prefix_nil]
        exact hne
      rw [List.nil_append, ← List.isPrefixOf_iff_prefix] at hpre
      rw [replaceAll_nil, List.nil_append, List.nil_append, replaceAll, if_neg hpre]
    | cons x a =>
      have hiff := prefix_append_cons_iff (a := x :: a) (b := b) h
      rw [← List.isPrefixOf_iff_prefix, ← List.isPrefixOf_iff_prefix] at hiff
      rw [List.cons_append] at hiff ⊢
      rw [replaceAll, replaceAll]
      by_cases hx : needle.isPrefixOf (x :: a) = true
      · have hlength : needle.length - 1 ≤ a.length := by
          have := (List.isPrefixOf_iff_prefix.1 hx).length_le
          rw [List.length_cons] at this
          omega
        have hshort : (a.drop (needle.length - 1)).length < n := by
          rw [← ha, List.length_drop, List.length_cons]
          omega
        rw [if_pos (hiff.2 hx), if_pos hx, List.drop_append_of_le_length hlength,
          ih _ hshort _ rfl, List.append_assoc]
      · rw [if_neg fun hx' => hx (hiff.1 hx'), if_neg hx,
          ih a.length (by rw [← ha]; exact Nat.lt_succ_self _) a rfl, List.cons_append]

/-! ## Along a replacement -/

theorem replaceAll_append {needle into : List Char} (hne : needle ≠ []) (rest : List Char) :
    replaceAll needle into (needle ++ rest) = into ++ replaceAll needle into rest := by
  obtain ⟨c, n, rfl⟩ := List.exists_cons_of_ne_nil hne
  have hpre : (c :: n).isPrefixOf (c :: (n ++ rest)) = true :=
    List.isPrefixOf_iff_prefix.2 (List.prefix_append _ rest)
  rw [List.cons_append, replaceAll, if_pos hpre]
  simp

theorem replaceAll_cons_of_not {needle into : List Char} {c : Char} {r : List Char}
    (h : ¬needle <+: c :: r) : replaceAll needle into (c :: r) = c :: replaceAll needle into r := by
  rw [replaceAll, if_neg (by rwa [List.isPrefixOf_iff_prefix])]

/-- Going along a replacement: the needle stands in front, or a character that is kept. -/
theorem replaceAll_induction {needle : List Char} (hne : needle ≠ []) {motive : List Char → Prop}
    (nil : motive []) (found : ∀ rest, motive rest → motive (needle ++ rest))
    (kept : ∀ c r, ¬needle <+: c :: r → motive r → motive (c :: r)) (cs : List Char) :
    motive cs := by
  induction hn : cs.length using Nat.strong_induction_on generalizing cs with
  | _ n ih =>
    cases cs with
    | nil => exact nil
    | cons c r =>
      by_cases hpre : needle <+: c :: r
      · obtain ⟨rest, hrest⟩ := hpre
        rw [← hrest]
        have hlength : rest.length < n := by
          have := List.length_pos_iff.2 hne
          rw [← hn, ← hrest, List.length_append]
          omega
        exact found rest (ih _ hlength rest rfl)
      · exact kept c r hpre (ih r.length (by rw [← hn]; exact Nat.lt_succ_self _) r rfl)

/-- To replace a text by itself changes nothing. -/
theorem replaceAll_self {needle : List Char} (hne : needle ≠ []) (cs : List Char) :
    replaceAll needle needle cs = cs := by
  induction cs using replaceAll_induction hne with
  | nil => exact replaceAll_nil _ _
  | found rest ih => rw [replaceAll_append hne, ih]
  | kept c r hnot ih => rw [replaceAll_cons_of_not hnot, ih]

/-- Where something is put in, only the empty text becomes empty. -/
theorem replaceAll_eq_nil {needle into cs : List Char} (hinto : into ≠ []) :
    replaceAll needle into cs = [] ↔ cs = [] := by
  cases cs with
  | nil => simp
  | cons c r =>
    rw [replaceAll]
    split <;> simp [hinto]

end SchemaTypes.Text
