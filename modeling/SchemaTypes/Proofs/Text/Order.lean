/-
# The order of a sorted set

Sorting puts names in the order of their code points, and a sorted set holds each name once.  So the
names of a sorted set rise strictly (`pairwise_sortedSet`).
-/
import Mathlib
import SchemaTypes.Text.Order

namespace SchemaTypes.Text

theorem nameLe_iff {a b : String} : nameLe a b = true ↔ a ≤ b := by
  rw [nameLe, Bool.not_eq_true', decide_eq_false_iff_not, not_lt]

theorem pairwise_insertSorted (x : String) {xs : List String} (h : xs.Pairwise (· ≤ ·)) :
    (insertSorted nameLe x xs).Pairwise (· ≤ ·) := by
  induction xs with
  | nil => exact List.pairwise_singleton _ _
  | cons y r ih =>
    obtain ⟨hy, hr⟩ := List.pairwise_cons.1 h
    rw [insertSorted]
    split
    · rename_i hle
      have hxy : x ≤ y := nameLe_iff.1 hle
      refine List.pairwise_cons.2 ⟨fun z hz => ?_, h⟩
      rcases List.mem_cons.1 hz with rfl | hz
      · exact hxy
      · exact hxy.trans (hy z hz)
    · rename_i hle
      have hyx : y ≤ x := le_of_not_ge fun hxy => hle (nameLe_iff.2 hxy)
      refine List.pairwise_cons.2 ⟨fun z hz => ?_, ih hr⟩
      rcases mem_insertSorted.1 hz with rfl | hz
      · exact hyx
      · exact hy z hz

theorem pairwise_sortNames (xs : List String) : (sortNames xs).Pairwise (· ≤ ·) := by
  unfold sortNames
  induction xs with
  | nil => exact List.Pairwise.nil
  | cons x r ih => exact pairwise_insertSorted x ih

theorem perm_insertSorted (x : String) (xs : List String) :
    (insertSorted nameLe x xs).Perm (x :: xs) := by
  induction xs with
  | nil => exact .refl _
  | cons y r ih =>
    rw [insertSorted]
    split
    · exact .refl _
    · exact (ih.cons y).trans (.swap x y r)

theorem perm_sortNames (xs : List String) : (sortNames xs).Perm xs := by
  unfold sortNames
  induction xs with
  | nil => exact .refl _
  | cons x r ih => exact (perm_insertSorted x _).trans (ih.cons x)

/-- **The names of a sorted set rise strictly.** -/
theorem pairwise_sortedSet (xs : List String) : (sortedSet xs).Pairwise (· < ·) := by
  have hnodup : (sortedSet xs).Nodup :=
    (perm_sortNames xs.eraseDups).nodup_iff.2 (nodup_eraseDups xs)
  exact (pairwise_sortNames xs.eraseDups).imp₂ (fun _ _ hle hne => lt_of_le_of_ne hle hne) hnodup

end SchemaTypes.Text
