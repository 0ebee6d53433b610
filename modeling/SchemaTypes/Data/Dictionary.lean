/-
# Dictionaries in order

A dictionary is a list of pairs with distinct keys in the order in which the keys first came.
`put` replaces the value of a key in place or adds the key at the end, `erase` drops a key, and
`merge` puts all pairs of another dictionary.
-/
namespace SchemaTypes.Dictionary

/-- Sets the value of a key. -/
def put (key : String) (v : α) : List (String × α) → List (String × α)
  | [] => [(key, v)]
  | (k, w) :: r => if k = key then (k, v) :: r else (k, w) :: put key v r

/-- Drops a key. -/
def erase (key : String) (d : List (String × α)) : List (String × α) := d.filter (·.1 != key)

/-- Sets the value of a key, or drops the key. -/
def assign (key : String) : Option α → List (String × α) → List (String × α)
  | some v, d => put key v d
  | none, d => erase key d

/-- Puts all pairs of another dictionary. -/
def merge (d others : List (String × α)) : List (String × α) :=
  others.foldl (fun d e => put e.1 e.2 d) d

/-- The dictionary of a list of pairs: first positions, last values. -/
def ofList (xs : List (String × α)) : List (String × α) := merge [] xs

/-- The keys. -/
def keys (d : List (String × α)) : List String := d.map (·.1)

/-- The dictionary that gives each of some keys what `f` says, and leaves out the others. -/
def tabulate (names : List String) (f : String → Option α) : List (String × α) :=
  names.eraseDups.filterMap fun n => (f n).map fun a => (n, a)

/-! ## Small laws -/

@[simp] theorem put_nil (key : String) (v : α) : put key v [] = [(key, v)] := rfl

/-- What was put is found. -/
theorem lookup_put_self (key : String) (v : α) (d : List (String × α)) :
    (put key v d).lookup key = some v := by
  induction d with
  | nil => simp [put]
  | cons e r ih =>
    obtain ⟨k, w⟩ := e
    by_cases h : k = key
    · subst h; simp [put]
    · have h' : (key == k) = false := by simpa using fun e => h e.symm
      simp [put, h, List.lookup_cons, h', ih]

/-- Other keys keep their values. -/
theorem lookup_put_of_ne {key other : String} (h : other ≠ key) (v : α)
    (d : List (String × α)) : (put key v d).lookup other = d.lookup other := by
  induction d with
  | nil =>
    have h' : (other == key) = false := by simpa using h
    simp [put, List.lookup_cons, h']
  | cons e r ih =>
    obtain ⟨k, w⟩ := e
    by_cases hk : k = key
    · subst hk
      have h' : (other == k) = false := by simpa using h
      simp [put, List.lookup_cons, h']
    · simp only [put, hk, if_false, List.lookup_cons]
      split <;> simp_all

/-- What was dropped is not found. -/
theorem lookup_erase_self (key : String) (d : List (String × α)) :
    (erase key d).lookup key = none := by
  rw [List.lookup_eq_none_iff]
  intro e he
  have hne : e.1 ≠ key := by simpa using (List.mem_filter.1 he).2
  simpa using fun h : key = e.1 => hne h.symm

/-- Other keys are not dropped. -/
theorem lookup_erase_of_ne {key other : String} (h : other ≠ key) (d : List (String × α)) :
    (erase key d).lookup other = d.lookup other := by
  induction d with
  | nil => rfl
  | cons e r ih =>
    obtain ⟨k, w⟩ := e
    rw [erase] at ih ⊢
    by_cases hk : k = key
    · subst hk
      have h' : (other == k) = false := by simpa using h
      rw [List.filter_cons_of_neg (by simp), ih, List.lookup_cons, h']
    · rw [List.filter_cons_of_pos (by simpa using hk), List.lookup_cons, List.lookup_cons, ih]

/-- The value that was set is found, and after dropping there is none. -/
theorem lookup_assign_self (key : String) (v : Option α) (d : List (String × α)) :
    (assign key v d).lookup key = v := by
  cases v with
  | none => exact lookup_erase_self key d
  | some v => exact lookup_put_self key v d

theorem lookup_assign_of_ne {key other : String} (h : other ≠ key) (v : Option α)
    (d : List (String × α)) : (assign key v d).lookup other = d.lookup other := by
  cases v with
  | none => exact lookup_erase_of_ne h d
  | some v => exact lookup_put_of_ne h v d

/-- Putting changes the keys only by adding the key at the end if it is new. -/
theorem keys_put (key : String) (v : α) (d : List (String × α)) :
    keys (put key v d) = if key ∈ keys d then keys d else keys d ++ [key] := by
  induction d with
  | nil => simp [put, keys]
  | cons e r ih =>
    obtain ⟨k, w⟩ := e
    by_cases h : k = key
    · subst h; simp [put, keys]
    · have h' : key ≠ k := fun e => h e.symm
      simp only [put, h, if_false, keys, List.map_cons, List.mem_cons, h', false_or] at ih ⊢
      rw [ih]
      split <;> simp_all

end SchemaTypes.Dictionary
