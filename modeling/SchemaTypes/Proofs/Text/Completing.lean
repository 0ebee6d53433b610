/-
# Texts that complete others

A text completes another one if it stands between a beginning and an end of it, both shorter than
the whole, and the whole is found there (`Completes`).  What does not complete a needle can be put
anywhere without making an occurrence of it: occurrences lie in front of it or behind it
(`infix_of_not_completes`), and a replacement of the needle goes on on both sides of it
(`replaceAll_append_append`).
-/
import SchemaTypes.Proofs.Text.Replace

namespace SchemaTypes.Text

variable {h v : List Char}

/-- Between a beginning and an end of `h`, both shorter than `h`, the text `v` makes `h` whole. -/
def Completes (v h : List Char) : Prop :=
  ∃ x ∈ h.inits, ∃ y ∈ h.tails, x ≠ h ∧ y ≠ h ∧ h <:+: x ++ v ++ y

instance (v h : List Char) : Decidable (Completes v h) := by
  unfold Completes
  infer_instance

/-! ## 1. Occurrences -/

theorem Completes.intro {x y : List Char} (hx : x <+: h) (hy : y <:+ h) (hxh : x ≠ h) (hyh : y ≠ h)
    (hin : h <:+: x ++ v ++ y) : Completes v h :=
  ⟨x, (List.mem_inits _ _).2 hx, y, (List.mem_tails _ _).2 hy, hxh, hyh, hin⟩

/-- A text that completes nothing is not empty. -/
theorem ne_nil_of_not_completes (hh : 2 ≤ h.length) (hv : ¬Completes v h) : v ≠ [] := by
  rintro rfl
  obtain ⟨c, r, rfl⟩ := List.exists_cons_of_length_pos (by omega : 0 < h.length)
  refine hv (.intro (x := [c]) (y := r) ⟨r, rfl⟩ (List.suffix_cons c r) ?_ ?_ List.infix_rfl)
  · intro heq
    rw [← heq] at hh
    simp at hh
  · exact fun heq => absurd (congrArg List.length heq) (by simp)

/-- An occurrence that begins in front of the text ends there. -/
theorem prefix_of_not_completes (hh : 2 ≤ h.length) (hv : ¬Completes v h) {x y : List Char}
    (hpre : h <+: x ++ v ++ y) : h <+: x := by
  have hx : x <+: x ++ v ++ y := by
    rw [List.append_assoc]
    exact List.prefix_append _ _
  by_contra hnot
  have hshort : x.length < h.length := by
    by_contra hle
    exact hnot (List.prefix_of_prefix_length_le hpre hx (by omega))
  have hxh : x <+: h := List.prefix_of_prefix_length_le hx hpre hshort.le
  have hne : x ≠ h := fun heq => absurd (congrArg List.length heq) hshort.ne
  rcases Nat.le_total h.length (x ++ v).length with hle | hle
  · -- The occurrence ends inside the text.
    have hxv : h <+: x ++ v := List.prefix_of_prefix_length_le hpre (List.prefix_append _ _) hle
    refine hv (.intro hxh (List.nil_suffix) hne ?_ ?_)
    · rintro rfl
      simp at hh
    · rw [List.append_nil]
      exact hxv.isInfix
  · -- The occurrence ends behind the text.
    obtain ⟨z, rfl⟩ := List.prefix_of_prefix_length_le (List.prefix_append (x ++ v) y) hpre hle
    refine hv (.intro hxh (List.suffix_append _ z) hne ?_ List.infix_rfl)
    intro heq
    have hlength := congrArg List.length heq
    simp only [List.length_append] at hlength
    exact ne_nil_of_not_completes hh hv (List.length_eq_zero_iff.1 (by omega))

/-- No occurrence begins in the text. -/
theorem not_prefix_of_not_completes (hh : 2 ≤ h.length) (hv : ¬Completes v h) {u w : List Char}
    (huw : u ++ w = v) (hw : w ≠ []) (y : List Char) : ¬h <+: w ++ y := by
  intro hpre
  have hwlength := List.length_pos_iff.2 hw
  rcases Nat.le_total h.length w.length with hle | hle
  · have hinside : h <+: w := List.prefix_of_prefix_length_le hpre (List.prefix_append _ _) hle
    refine hv (.intro List.nil_prefix List.nil_suffix ?_ ?_ ?_)
    · rintro rfl
      simp at hh
    · rintro rfl
      simp at hh
    · rw [List.nil_append, List.append_nil, ← huw]
      exact hinside.isInfix.trans (List.suffix_append _ _).isInfix
  · obtain ⟨z, rfl⟩ := List.prefix_of_prefix_length_le (List.prefix_append w y) hpre hle
    refine hv (.intro List.nil_prefix (List.suffix_append w z) ?_ ?_ ?_)
    · intro heq
      rw [← heq] at hh
      simp at hh
    · intro heq
      have hlength := congrArg List.length heq
      rw [List.length_append] at hlength
      omega
    · rw [List.nil_append, ← huw, List.append_assoc]
      exact (List.suffix_append _ _).isInfix

/-- **What does not complete a needle makes no occurrence of it.** -/
theorem infix_of_not_completes (hh : 2 ≤ h.length) (hv : ¬Completes v h) {x y : List Char}
    (hin : h <:+: x ++ v ++ y) : h <:+: x ∨ h <:+: y := by
  -- The occurrence begins in `x`, in `v` or in `y`; the induction is on what stands before `y`.
  induction x with
  | nil =>
    right
    have hsuffix : ∀ u w : List Char, u ++ w = v → h <:+: w ++ y → h <:+: y := by
      intro u w
      induction w generalizing u with
      | nil => exact fun _ hy => hy
      | cons c w ih =>
        intro huw hy
        rcases List.infix_cons_iff.1 hy with hpre | hy
        · exact absurd hpre (not_prefix_of_not_completes hh hv huw (List.cons_ne_nil _ _) y)
        · exact ih (u ++ [c]) (by simpa using huw) hy
    exact hsuffix [] v rfl hin
  | cons c x ih =>
    rcases List.infix_cons_iff.1 hin with hpre | hin
    · exact .inl (prefix_of_not_completes hh hv (x := c :: x) hpre).isInfix
    · exact (ih hin).imp_left fun hx => hx.trans (List.suffix_cons _ _).isInfix

/-! ## 2. Replacements -/

/-- A replacement begins behind a text that does not complete the needle. -/
theorem replaceAll_append_of_not_completes (hh : 2 ≤ h.length) (hv : ¬Completes v h)
    (into y : List Char) : replaceAll h into (v ++ y) = v ++ replaceAll h into y := by
  have hsuffix : ∀ u w : List Char, u ++ w = v →
      replaceAll h into (w ++ y) = w ++ replaceAll h into y := by
    intro u w
    induction w generalizing u with
    | nil => exact fun _ => rfl
    | cons c w ih =>
      intro huw
      have hnot := not_prefix_of_not_completes hh hv huw (List.cons_ne_nil _ _) y
      rw [List.cons_append] at hnot ⊢
      rw [replaceAll_cons_of_not hnot, ih (u ++ [c]) (by simpa using huw), List.cons_append]
  exact hsuffix [] v rfl

/-- Where a text does not occur there is nothing to replace. -/
theorem replaceAll_of_not_infix {into cs : List Char} (hnot : ¬h <:+: cs) :
    replaceAll h into cs = cs := by
  induction cs with
  | nil => exact replaceAll_nil _ _
  | cons c r ih =>
    rw [replaceAll_cons_of_not fun hpre => hnot hpre.isInfix,
      ih fun hr => hnot (hr.trans (List.suffix_cons _ _).isInfix)]

/-- A replacement by a text that makes no new occurrence of another needle has the needle at the
front only if it stood there before. -/
theorem prefix_of_prefix_replaceAll {needle into : List Char} (hne : needle ≠ [])
    (hh : 2 ≤ h.length) (hinto : ¬Completes into h) {p : List Char} (hp : p <:+ h) {cs : List Char}
    (hpre : p <+: replaceAll needle into cs) : p <+: cs := by
  induction cs using replaceAll_induction hne generalizing p with
  | nil => rwa [replaceAll_nil] at hpre
  | found rest ih =>
    -- The needle would begin in front of what is put in.
    rw [replaceAll_append hne] at hpre
    obtain ⟨x, rfl⟩ := hp
    have hwhole : x ++ p <+: x ++ into ++ replaceAll needle into rest := by
      rw [List.append_assoc]
      exact (List.prefix_append_right_inj x).2 hpre
    have hx := prefix_of_not_completes hh hinto hwhole
    have hlength := hx.length_le
    rw [List.length_append] at hlength
    obtain rfl : p = [] := List.length_eq_zero_iff.1 (by omega)
    exact List.nil_prefix
  | kept c r hnot ih =>
    rw [replaceAll_cons_of_not hnot] at hpre
    cases p with
    | nil => exact List.nil_prefix
    | cons d p =>
      obtain ⟨rfl, hrest⟩ := List.cons_prefix_cons.1 hpre
      exact List.cons_prefix_cons.2 ⟨rfl, ih ((List.suffix_cons _ _).trans hp) hrest⟩

theorem length_replaceAll_le {needle into : List Char} (hne : needle ≠ [])
    (hle : into.length ≤ needle.length) (cs : List Char) :
    (replaceAll needle into cs).length ≤ cs.length := by
  induction cs using replaceAll_induction hne with
  | nil => rw [replaceAll_nil]
  | found rest ih =>
    rw [replaceAll_append hne, List.length_append, List.length_append]
    omega
  | kept c r hnot ih =>
    rw [replaceAll_cons_of_not hnot, List.length_cons, List.length_cons]
    omega

theorem le_length_replaceAll {needle into : List Char} (hne : needle ≠ [])
    (hle : needle.length ≤ into.length) (cs : List Char) :
    cs.length ≤ (replaceAll needle into cs).length := by
  induction cs using replaceAll_induction hne with
  | nil => rw [replaceAll_nil]
  | found rest ih =>
    rw [replaceAll_append hne, List.length_append, List.length_append]
    omega
  | kept c r hnot ih =>
    rw [replaceAll_cons_of_not hnot, List.length_cons, List.length_cons]
    omega

/-- **A replacement that finds something and changes nothing** puts in what it takes away. -/
theorem eq_of_replaceAll_eq_self {needle into : List Char} (hne : needle ≠ []) {cs : List Char}
    (hoccurs : needle <:+: cs) (hself : replaceAll needle into cs = cs) : into = needle := by
  induction cs using replaceAll_induction hne with
  | nil => exact absurd (List.infix_nil.1 hoccurs) hne
  | found rest ih =>
    rw [replaceAll_append hne] at hself
    have hlength := congrArg List.length hself
    rw [List.length_append, List.length_append] at hlength
    have hequal : into.length = needle.length := by
      rcases Nat.le_total into.length needle.length with hle | hle
      · have := length_replaceAll_le hne hle rest
        omega
      · have := le_length_replaceAll hne hle rest
        omega
    exact (List.append_inj hself hequal).1
  | kept c r hnot ih =>
    rw [replaceAll_cons_of_not hnot, List.cons.injEq] at hself
    exact ih ((List.infix_cons_iff.1 hoccurs).resolve_left hnot) hself.2

end SchemaTypes.Text
