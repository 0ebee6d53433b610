/-
# Keys and values of dictionaries

What is found in a dictionary and which keys it has, after single values were put
(`lookup_put_self` and `lookup_put_of_ne` stand beside the definition), after a merge
(`lookup_merge`), and in a dictionary that was tabulated from a function (`lookup_tabulate`).
-/
import Mathlib
import SchemaTypes.Data.Dictionary

namespace SchemaTypes.Dictionary

variable {α β : Type} {d others : List (String × α)}

/-! ## 1. Keys -/

theorem mem_of_lookup {key : String} {v : α} (h : d.lookup key = some v) : (key, v) ∈ d := by
  obtain ⟨before, after, rfl, -⟩ := List.lookup_eq_some_iff.1 h
  simp

/-- A table has the names as keys for which the function gives something, each once. -/
theorem keys_tabulate_eq_filter (names : List String) (f : String → Option α) :
    keys (tabulate names f) = names.eraseDups.filter fun n => (f n).isSome := by
  have hall : ∀ ns : List String,
      (ns.filterMap fun n => (f n).map fun a => (n, a)).map (·.1)
        = ns.filter fun n => (f n).isSome := by
    intro ns
    induction ns with
    | nil => rfl
    | cons n r ih =>
      cases hf : f n with
      | none => simpa [hf] using ih
      | some a => simpa [hf] using ih
  exact hall _

/-- A table without gaps has all of its names as keys, each once. -/
theorem keys_tabulate {names : List String} {f : String → Option α}
    (h : ∀ n ∈ names, (f n).isSome = true) : keys (tabulate names f) = names.eraseDups := by
  rw [keys_tabulate_eq_filter, List.filter_eq_self]
  exact fun n hn => h n (List.mem_eraseDups.1 hn)

theorem keys_map (f : String × α → β) (d : List (String × α)) :
    keys (d.map fun e => (e.1, f e)) = keys d := by
  rw [keys, List.map_map]
  rfl

theorem mem_keys_put {key name : String} {v : α} :
    name ∈ keys (put key v d) ↔ name = key ∨ name ∈ keys d := by
  rw [keys_put]
  split
  · rename_i hkey
    constructor
    · exact .inr
    · rintro (rfl | h)
      · exact hkey
      · exact h
  · rw [List.mem_append, List.mem_singleton, or_comm]

/-- Every entry after putting is the new one or an old one. -/
theorem mem_put {key : String} {v : α} {e : String × α} (h : e ∈ put key v d) :
    e = (key, v) ∨ e ∈ d := by
  induction d with
  | nil => exact .inl (List.mem_singleton.1 h)
  | cons x r ih =>
    obtain ⟨k, w⟩ := x
    unfold put at h
    split at h
    · rename_i hk
      rw [hk] at h
      exact (List.mem_cons.1 h).imp_right (List.mem_cons_of_mem _)
    · rcases List.mem_cons.1 h with rfl | h
      · exact .inr List.mem_cons_self
      · exact (ih h).imp_right (List.mem_cons_of_mem _)

theorem nodup_keys_put {key : String} {v : α} (h : (keys d).Nodup) :
    (keys (put key v d)).Nodup := by
  rw [keys_put]
  split
  · exact h
  · rename_i hkey
    exact List.nodup_append.2 ⟨h, List.nodup_singleton key, by
      rintro a ha b hb rfl
      exact hkey (List.mem_singleton.1 hb ▸ ha)⟩

theorem lookup_eq_none {key : String} (h : key ∉ keys d) : d.lookup key = none := by
  rw [List.lookup_eq_none_iff]
  intro e he
  simpa using fun heq : key = e.1 => h (heq ▸ List.mem_map_of_mem (f := Prod.fst) he)

/-- Something is found under a key exactly if there is an entry with it. -/
theorem mem_keys_iff_isSome_lookup {key : String} :
    key ∈ d.map (·.1) ↔ (d.lookup key).isSome = true := by
  rw [List.lookup_isSome_iff, List.mem_map]
  constructor
  · rintro ⟨e, he, rfl⟩
    exact ⟨e, he, BEq.rfl⟩
  · rintro ⟨e, he, hkey⟩
    exact ⟨e, he, (beq_iff_eq.1 hkey).symm⟩

/-- Where keys are distinct, every entry is the one that is found. -/
theorem lookup_of_mem (hd : (keys d).Nodup) {e : String × α} (he : e ∈ d) :
    d.lookup e.1 = some e.2 := by
  induction d with
  | nil => exact nomatch he
  | cons x r ih =>
    obtain ⟨k, w⟩ := x
    obtain ⟨hk, hr⟩ := List.nodup_cons.1 hd
    rcases List.mem_cons.1 he with rfl | he
    · exact List.lookup_cons_self
    · have hmem : e.1 ∈ keys r := List.mem_map_of_mem he
      have hne : (e.1 == k) = false := beq_eq_false_iff_ne.2 fun heq => hk (heq ▸ hmem)
      rw [List.lookup_cons, hne]
      exact ih hr he

/-! ## 2. Tabulated values -/

/-- In a table a name has the value that the function gives. -/
theorem lookup_tabulate (names : List String) (f : String → Option α) (name : String) :
    (tabulate names f).lookup name = if name ∈ names then f name else none := by
  have hall : ∀ ns : List String, (ns.filterMap fun n => (f n).map fun a => (n, a)).lookup name
      = if name ∈ ns then f name else none := by
    intro ns
    induction ns with
    | nil => rfl
    | cons n r ih =>
      by_cases hn : name = n
      · subst hn
        cases hf : f name with
        | none => simp [hf, ih]
        | some a => simp [hf]
      · have hbeq : (name == n) = false := beq_false_of_ne hn
        cases hf : f n with
        | none => simp [hf, ih, hn]
        | some a => simp [hf, ih, hn, List.lookup_cons, hbeq]
  rw [tabulate, hall]
  simp only [List.mem_eraseDups]

/-- To drop values of a table and to change the others gives a table. -/
theorem map_filter_tabulate (names : List String) (f : String → Option α) (keep : α → Bool)
    (g : String × α → β) :
    ((tabulate names f).filter fun e => keep e.2).map (fun e => (e.1, g e))
      = tabulate names fun n => ((f n).filter keep).map fun a => g (n, a) := by
  have hall : ∀ ns : List String,
      ((ns.filterMap fun n => (f n).map fun a => (n, a)).filter fun e => keep e.2).map
          (fun e => (e.1, g e))
        = ns.filterMap fun n =>
            (((f n).filter keep).map fun a => g (n, a)).map fun b => (n, b) := by
    intro ns
    induction ns with
    | nil => rfl
    | cons n r ih =>
      cases hf : f n with
      | none => simpa [hf] using ih
      | some a => cases hk : keep a <;> simpa [hf, hk, Option.filter] using ih
  exact hall _

/-- Values changed with their keys are found under their keys. -/
theorem lookup_map (f : String × α → β) (d : List (String × α)) (key : String) :
    (d.map fun e => (e.1, f e)).lookup key = (d.lookup key).map fun a => f (key, a) := by
  induction d with
  | nil => rfl
  | cons e r ih =>
    obtain ⟨k, v⟩ := e
    rw [List.map_cons, List.lookup_cons, List.lookup_cons, ih]
    cases hk : key == k with
    | true => rw [beq_iff_eq.1 hk]; rfl
    | false => rfl

/-! ## 3. Merges -/

/-- After a merge the values of the second dictionary count first, of several the last. -/
theorem lookup_merge_ofList (d others : List (String × α)) (key : String) :
    (merge d others).lookup key = ((ofList others).lookup key).or (d.lookup key) := by
  induction others using List.reverseRecOn with
  | nil => rfl
  | append_singleton rest e ih =>
    have hstep (d : List (String × α)) : merge d (rest ++ [e]) = put e.1 e.2 (merge d rest) := by
      rw [merge, List.foldl_append]
      rfl
    rw [ofList, hstep, hstep]
    by_cases hkey : key = e.1
    · rw [hkey, lookup_put_self, lookup_put_self]
      rfl
    · rw [lookup_put_of_ne hkey, lookup_put_of_ne hkey, ih, ofList]

/-- After a merge the values of the second dictionary count first. -/
theorem lookup_merge (h : (keys others).Nodup) (key : String) :
    (merge d others).lookup key = (others.lookup key).or (d.lookup key) := by
  induction others generalizing d with
  | nil => rfl
  | cons e rest ih =>
    obtain ⟨k, v⟩ := e
    obtain ⟨hk, hrest⟩ := List.nodup_cons.1 h
    have hstep : merge d ((k, v) :: rest) = merge (put k v d) rest := rfl
    rw [hstep, ih hrest, List.lookup_cons]
    by_cases heq : key = k
    · subst heq
      rw [lookup_eq_none hk, lookup_put_self, beq_self_eq_true]
      rfl
    · rw [lookup_put_of_ne heq, beq_false_of_ne heq]

theorem nodup_keys_merge (h : (keys d).Nodup) : (keys (merge d others)).Nodup := by
  induction others generalizing d with
  | nil => exact h
  | cons e rest ih => exact ih (nodup_keys_put h)

theorem mem_keys_merge {name : String} :
    name ∈ keys (merge d others) ↔ name ∈ keys d ∨ name ∈ keys others := by
  induction others generalizing d with
  | nil => simp [merge, keys]
  | cons e rest ih =>
    have hstep : merge d (e :: rest) = merge (put e.1 e.2 d) rest := rfl
    rw [hstep, ih, mem_keys_put, show keys (e :: rest) = e.1 :: keys rest from rfl, List.mem_cons]
    tauto

end SchemaTypes.Dictionary
