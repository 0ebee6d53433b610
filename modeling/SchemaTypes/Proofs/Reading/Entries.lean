/-
# Entries of a map

What is found in the entries of a map by its text after an entry was set (`entry?_putEntry`),
after some were left out (`entry?_without`) or after one was added behind the others.
-/
import Mathlib
import SchemaTypes.Reading.Schema

namespace SchemaTypes.Reading

theorem entry?_cons (name : String) (k : Key) (v : Value) (es : Entries) :
    Value.entry? name ((k, v) :: es) = if k = .text name then some v else Value.entry? name es := by
  unfold Value.entry?
  by_cases h : k = .text name <;> simp [h]

/-- Two texts are compared as keys. -/
theorem ite_text (key name : String) (a b : Option Value) :
    (if Key.text key = .text name then a else b) = if name = key then a else b :=
  if_congr ⟨fun h => (Key.text.inj h).symm, fun h => h ▸ rfl⟩ rfl rfl

theorem entry?_append (name : String) (es es' : Entries) :
    Value.entry? name (es ++ es') = (Value.entry? name es).or (Value.entry? name es') := by
  rw [Value.entry?, List.find?_append, Option.map_or]
  rfl

/-- A text is the same key as another one only if it is that text. -/
theorem same_text (k : Key) (name : String) : k.same (.text name) = (k == .text name) := by
  unfold Key.same
  cases k.scaled? <;> rfl

theorem eq_text_iff_of_same {k key : Key} (h : k.same key = true) (name : String) :
    k = .text name ↔ key = .text name := by
  constructor
  · rintro rfl
    exact (eq_of_beq (h : (Key.text name == key) = true)).symm
  · rintro rfl
    exact eq_of_beq ((same_text k name).symm.trans h)

/-- A set entry is found under its key, and all others as before. -/
theorem entry?_putEntry (key : Key) (name : String) (v : Value) (es : Entries) :
    Value.entry? name (putEntry key v es)
      = if key = .text name then some v else Value.entry? name es := by
  induction es with
  | nil => rw [putEntry, entry?_cons]
  | cons e rest ih =>
    obtain ⟨k, w⟩ := e
    rw [putEntry]
    by_cases hk : k.same key = true
    · have hname := eq_text_iff_of_same hk name
      rw [if_pos hk, entry?_cons, entry?_cons]
      by_cases hkey : key = .text name
      · rw [if_pos (hname.2 hkey), if_pos hkey]
      · rw [if_neg fun h => hkey (hname.1 h), if_neg hkey, if_neg fun h => hkey (hname.1 h)]
    · rw [if_neg hk, entry?_cons, ih, entry?_cons]
      by_cases hname : k = .text name
      · have hne : key ≠ .text name := fun h => hk (by rw [hname, h]; exact beq_self_eq_true _)
        rw [if_pos hname, if_neg hne, if_pos hname]
      · rw [if_neg hname, if_neg hname]

theorem entry?_putEntry_text (key name : String) (v : Value) (es : Entries) :
    Value.entry? name (putEntry (.text key) v es)
      = if name = key then some v else Value.entry? name es := by
  rw [entry?_putEntry, ite_text]

/-- Without a key, its entry is gone and all others are found as before. -/
theorem entry?_without (name other : String) (es : Entries) :
    Value.entry? other (without name es)
      = if other = name then none else Value.entry? other es := by
  induction es with
  | nil => simp [without, Value.entry?]
  | cons e rest ih =>
    obtain ⟨k, v⟩ := e
    rw [without] at ih ⊢
    rw [entry?_cons]
    by_cases hk : k = .text name
    · rw [List.filter_cons_of_neg (by simpa using hk), ih, hk]
      by_cases hname : other = name
      · rw [if_pos hname, if_pos hname]
      · rw [if_neg hname, if_neg hname, if_neg fun h => hname (Key.text.inj h).symm]
    · rw [List.filter_cons_of_pos (by simpa using hk), entry?_cons, ih]
      by_cases hname : other = name
      · rw [if_pos hname, if_pos hname, if_neg (hname ▸ hk)]
      · rw [if_neg hname, if_neg hname]

/-- An entry that is added unless it is there is found where there was none. -/
theorem entry?_withDefault (name other : String) (v : Value) (es : Entries) :
    Value.entry? other (withDefault name v es)
      = (Value.entry? other es).or (if other = name then some v else none) := by
  rw [withDefault]
  by_cases hthere : (Value.entry? name es).isSome
  · rw [if_pos hthere]
    by_cases hname : other = name
    · obtain ⟨w, hw⟩ := Option.isSome_iff_exists.1 hthere
      rw [hname, hw]
      rfl
    · rw [if_neg hname, Option.or_none]
  · rw [if_neg hthere, entry?_append, entry?_cons, ite_text]
    rfl

end SchemaTypes.Reading
