/-
# Sorted names

Names are compared by code point.  `sortBy` is insertion sort, which keeps equal items in the
order in which they came; `sortedSet` sorts names and drops repetitions.
-/
namespace SchemaTypes.Text

/-- Puts an item behind all items that are not greater. -/
def insertSorted (le : α → α → Bool) (x : α) : List α → List α
  | [] => [x]
  | y :: r => if le x y then x :: y :: r else y :: insertSorted le x r

/-- Sorts a list; equal items keep their order. -/
def sortBy (le : α → α → Bool) : List α → List α
  | [] => []
  | x :: r => insertSorted le x (sortBy le r)

/-- Not greater, by code point. -/
def nameLe (a b : String) : Bool := !(b < a)

/-- The names in order. -/
def sortNames (xs : List String) : List String := sortBy nameLe xs

/-- The names in order, each once. -/
def sortedSet (xs : List String) : List String := sortNames xs.eraseDups

/-- Sorting changes only the order. -/
theorem mem_insertSorted {le : α → α → Bool} {x y : α} {xs : List α} :
    y ∈ insertSorted le x xs ↔ y = x ∨ y ∈ xs := by
  induction xs with
  | nil => simp [insertSorted]
  | cons z r ih =>
    cases h : le x z with
    | true => simp [insertSorted, h]
    | false =>
      simp only [insertSorted, h, Bool.false_eq_true, if_false, List.mem_cons, ih]
      exact or_left_comm

theorem mem_sortBy {le : α → α → Bool} {y : α} {xs : List α} : y ∈ sortBy le xs ↔ y ∈ xs := by
  induction xs with
  | nil => simp [sortBy]
  | cons x r ih => simp [sortBy, mem_insertSorted, ih]

/-- The sorted set has the members of the list. -/
theorem mem_sortedSet {y : String} {xs : List String} : y ∈ sortedSet xs ↔ y ∈ xs := by
  simp [sortedSet, sortNames, mem_sortBy]

/-- Without repetitions each name is there once. -/
theorem nodup_eraseDups : ∀ names : List String, names.eraseDups.Nodup
  | [] => List.nodup_nil
  | name :: rest => by
    rw [List.eraseDups_cons, List.nodup_cons]
    refine ⟨fun h => ?_, nodup_eraseDups _⟩
    have := List.mem_filter.1 (List.mem_eraseDups.1 h)
    simp at this
termination_by names => names.length
decreasing_by exact Nat.lt_succ_of_le (List.length_filter_le _ _)

end SchemaTypes.Text
