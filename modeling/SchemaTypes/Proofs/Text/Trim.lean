/-
# Blanks at the ends of a text

Trimming takes off the blanks around a text (`trim_blank_append`, `trim_append_blank`) and nothing
else (`trim_of_ends`, `trim_eq_self`).
-/
import Mathlib
import SchemaTypes.Text.Blank

namespace SchemaTypes.Text

/-- All of the characters are blank. -/
def Blank (cs : List Char) : Prop := ∀ c ∈ cs, isBlank c = true

theorem blank_nil : Blank [] := List.forall_mem_nil _

theorem blank_space : Blank [' '] := by
  simp only [Blank, List.mem_singleton, forall_eq]
  decide

theorem Blank.reverse {cs : List Char} (h : Blank cs) : Blank cs.reverse :=
  fun c hc => h c (List.mem_reverse.1 hc)

theorem trim_blank_append {x : List Char} (hx : Blank x) (core : List Char) :
    trim (x ++ core) = trim core := by
  unfold trim trimBy
  rw [List.dropWhile_append_of_pos hx]

theorem trim_append_blank {x : List Char} (hx : Blank x) (core : List Char) :
    trim (core ++ x) = trim core := by
  have hnone : x.dropWhile isBlank = [] := List.dropWhile_eq_nil_iff.2 hx
  unfold trim trimBy
  rw [List.dropWhile_append]
  split
  · rename_i hempty
    rw [hnone, List.isEmpty_iff.1 hempty]
  · rw [List.reverse_append, List.dropWhile_append_of_pos hx.reverse]

/-- Between two characters that are not blank nothing is taken off. -/
theorem trim_of_ends {a b : Char} (ha : isBlank a = false) (hb : isBlank b = false)
    (cs : List Char) : trim (a :: (cs ++ [b])) = a :: (cs ++ [b]) := by
  have hreverse : (a :: (cs ++ [b])).reverse = b :: (cs.reverse ++ [a]) := by simp
  unfold trim trimBy
  rw [List.dropWhile_cons_of_neg (by simp [ha]), hreverse,
    List.dropWhile_cons_of_neg (by simp [hb])]
  simp

theorem trim_eq_self {cs : List Char} (h : ∀ c ∈ cs, isBlank c = false) : trim cs = cs := by
  have hkept {l : List Char} (hl : ∀ c ∈ l, isBlank c = false) : l.dropWhile isBlank = l := by
    cases l with
    | nil => rfl
    | cons c r => rw [List.dropWhile_cons_of_neg (by simp [hl c List.mem_cons_self])]
  unfold trim trimBy
  rw [hkept h, hkept fun c hc => h c (List.mem_reverse.1 hc), List.reverse_reverse]

end SchemaTypes.Text
