/-
# Values with a form in JSON

`Value.hasJson` tells which values can be written where there is room enough: those without stamps,
bytes, sets, halves of surrogate pairs, values that contain themselves and whole numbers that are
too long, anywhere in them and in the keys of their maps.  `isOk_json` shows that the printer writes
exactly these, in every layout, if no more collections stand inside each other than there is room
for (`Value.isWritable`).
-/
import SchemaTypes.Data.Json.Printer
import SchemaTypes.Proofs.Fallible

namespace SchemaTypes

/-! ## 1. Values that can be written -/

/-- The key has a form in JSON that can be written. -/
def Key.hasJson : Key → Bool
  | .int i => Numeral.IsShort i
  | .halfText => false
  | .stamp _ => false
  | .bytes _ => false
  | _ => true

mutual

/-- The value has a form in JSON that can be written. -/
def Value.hasJson : Value → Bool
  | .int i => Numeral.IsShort i
  | .halfText => false
  | .stamp _ => false
  | .bytes _ => false
  | .set _ => false
  | .endless => false
  | .list items => Value.allHaveJson items
  | .pair a b => a.hasJson && b.hasJson
  | .map entries => Value.entriesHaveJson entries
  | _ => true

/-- The items of a list have a form. -/
def Value.allHaveJson : List Value → Bool
  | [] => true
  | v :: rest => v.hasJson && Value.allHaveJson rest

/-- The entries of a map have a form. -/
def Value.entriesHaveJson : List (Key × Value) → Bool
  | [] => true
  | (k, v) :: rest => k.hasJson && v.hasJson && Value.entriesHaveJson rest

end

namespace Value

theorem allHaveJson_iff {items : List Value} :
    allHaveJson items = true ↔ ∀ v ∈ items, v.hasJson = true := by
  induction items with
  | nil => simp [allHaveJson]
  | cons v rest ih => simp [allHaveJson, ih]

theorem entriesHaveJson_iff {entries : List (Key × Value)} :
    entriesHaveJson entries = true ↔
      ∀ e ∈ entries, e.1.hasJson = true ∧ e.2.hasJson = true := by
  induction entries with
  | nil => simp [entriesHaveJson]
  | cons e rest ih =>
    obtain ⟨k, v⟩ := e
    simp [entriesHaveJson, ih, and_assoc]

theorem allFit_iff {n : Nat} {items : List Value} :
    allFit n items = true ↔ ∀ v ∈ items, v.fits n = true := by
  induction items with
  | nil => simp [allFit]
  | cons v rest ih => simp [allFit, ih]

theorem entriesFit_iff {n : Nat} {entries : List (Key × Value)} :
    entriesFit n entries = true ↔ ∀ e ∈ entries, e.2.fits n = true := by
  induction entries with
  | nil => simp [entriesFit]
  | cons e rest ih => simp [entriesFit, ih]

/-- Where there is more room, a value fits as well. -/
theorem fits_mono {m n : Nat} (h : m ≤ n) {v : Value} (hv : v.fits m = true) :
    v.fits n = true := by
  induction m generalizing n v with
  | zero => cases v <;> simp_all [fits]
  | succ m ih =>
    obtain ⟨n, rfl⟩ := Nat.exists_eq_add_of_le' (Nat.le_trans (Nat.le_add_left 1 m) h)
    have hmn : m ≤ n := Nat.le_of_succ_le_succ h
    cases v with
    | list items => exact allFit_iff.2 fun w hw => ih hmn (allFit_iff.1 hv w hw)
    | map entries => exact entriesFit_iff.2 fun e he => ih hmn (entriesFit_iff.1 hv e he)
    | pair a b =>
      rw [fits, Bool.and_eq_true] at hv ⊢
      exact ⟨ih hmn hv.1, ih hmn hv.2⟩
    | endless => simp [fits] at hv
    | _ => simp [fits]

/-- The value can be written where at most `room` collections may stand inside each other. -/
def isWritable (room : Nat) (v : Value) : Bool := v.hasJson && v.fits room

theorem isWritable_iff {room : Nat} {v : Value} :
    v.isWritable room = true ↔ v.hasJson = true ∧ v.fits room = true :=
  Bool.and_eq_true_iff

theorem isWritable_mono {m n : Nat} (h : m ≤ n) {v : Value} (hv : v.isWritable m = true) :
    v.isWritable n = true := by
  rw [isWritable_iff] at hv ⊢
  exact ⟨hv.1, fits_mono h hv.2⟩

/-- A list takes one place, and its items can be written in the room that is left. -/
theorem isWritable_list_iff {room : Nat} {items : List Value} :
    (Value.list items).isWritable room = true ↔
      ∃ n, room = n + 1 ∧ ∀ v ∈ items, v.isWritable n = true := by
  cases room with
  | zero => simp [isWritable, fits]
  | succ n =>
    simp [isWritable_iff, hasJson, fits, allHaveJson_iff, allFit_iff, forall₂_and]

/-- A map takes one place, and its values can be written in the room that is left. -/
theorem isWritable_map_iff {room : Nat} {entries : List (Key × Value)} :
    (Value.map entries).isWritable room = true ↔
      ∃ n, room = n + 1 ∧ ∀ e ∈ entries, e.1.hasJson = true ∧ e.2.isWritable n = true := by
  cases room with
  | zero => simp [isWritable, fits]
  | succ n =>
    rw [isWritable_iff, hasJson, fits, entriesHaveJson_iff, entriesFit_iff, ← forall₂_and]
    simp only [isWritable_iff, and_assoc, Nat.add_left_inj, exists_eq_left']

end Value

/-! ## 2. The printer -/

theorem Json.isOk_whole (i : Int) : (Json.whole i).isOk = decide (Numeral.IsShort i) := by
  unfold Json.whole Numeral.text?
  split_ifs with h <;> simp [h, Except.isOk, Except.toBool]

theorem Json.isOk_key (k : Key) : (Json.key k).isOk = k.hasJson := by
  cases k with
  | int i => exact Json.isOk_whole i
  | _ => rfl

/-- What needs room is written if there is some. -/
theorem isOk_ite_tooDeep {room level : Nat} (x : Except Json.Obstacle String) :
    (if room ≤ level then .error .tooDeep else x).isOk = (decide (level < room) && x.isOk) := by
  split_ifs with h
  · rw [decide_eq_false (Nat.not_lt.2 h)]
    rfl
  · rw [decide_eq_true (Nat.not_le.1 h), Bool.true_and]

theorem Json.eq_of_whole {i : Int} {s : String} (h : Json.whole i = .ok s) :
    Numeral.IsShort i ∧ s = toString i := by
  unfold Json.whole Numeral.text? at h
  split_ifs at h with hshort
  exact ⟨hshort, (Except.ok.inj h).symm⟩

theorem Json.whole_of_not_isShort {i : Int} (h : ¬Numeral.IsShort i) :
    Json.whole i = .error .overlong := by
  have htext : Numeral.text? i = none := if_neg h
  unfold Json.whole
  rw [htext]

/-- What needs room is written only if there is some. -/
theorem ite_tooDeep_eq_ok_iff {room level : Nat} {x : Except Json.Obstacle String} {s : String} :
    (if room ≤ level then .error .tooDeep else x) = .ok s ↔ level < room ∧ x = .ok s := by
  split_ifs with h
  · simp [Nat.not_lt.2 h]
  · simp [Nat.lt_of_not_le h]

/-- A collection takes one place, and the room that is left is for what is in it. -/
theorem Value.fits_sub (v : Value) (inside : Nat → Bool) (hnone : v.fits 0 = false)
    (hsome : ∀ n, v.fits (n + 1) = inside n) (room level : Nat) :
    v.fits (room - level) = (decide (level < room) && inside (room - (level + 1))) := by
  rcases Nat.lt_or_ge level room with h | h
  · rw [show room - level = room - (level + 1) + 1 by omega, hsome, decide_eq_true h, Bool.true_and]
  · rw [Nat.sub_eq_zero_of_le h, hnone, decide_eq_false (Nat.not_lt.2 h), Bool.false_and]

mutual

/-- **A value is written exactly if it can be** and there is room for it.  The induction is on the
value together with the items and the entries in it. -/
theorem Value.isOk_jsonAt (room : Nat) (l : Json.Layout) (level : Nat) :
    ∀ v : Value, (v.jsonAt room l level).isOk = (v.hasJson && v.fits (room - level))
  | .null => by simp [Value.jsonAt, Value.hasJson, Value.fits, Except.isOk, Except.toBool]
  | .bool _ => by simp [Value.jsonAt, Value.hasJson, Value.fits, Except.isOk, Except.toBool]
  | .int i => by
    rw [Value.jsonAt, Json.isOk_whole, Value.hasJson]
    simp [Value.fits]
  | .real _ => by simp [Value.jsonAt, Value.hasJson, Value.fits, Except.isOk, Except.toBool]
  | .text _ => by simp [Value.jsonAt, Value.hasJson, Value.fits, Except.isOk, Except.toBool]
  | .halfText => rfl
  | .stamp _ => rfl
  | .bytes _ => rfl
  | .set _ => rfl
  | .endless => rfl
  | .list items => by
    rw [Value.jsonAt, isOk_ite_tooDeep, isOk_map, Value.isOk_jsonItems room l (level + 1) items,
      Value.fits_sub (.list items) (Value.allFit · items) rfl fun _ => rfl, Value.hasJson]
    ac_rfl
  | .pair a b => by
    rw [Value.jsonAt, isOk_ite_tooDeep, isOk_bind_of_isOk fun _ => isOk_bind_pure _ _,
      Value.isOk_jsonAt room l (level + 1) a, Value.isOk_jsonAt room l (level + 1) b,
      Value.fits_sub (.pair a b) (fun n => a.fits n && b.fits n) rfl fun _ => rfl, Value.hasJson]
    ac_rfl
  | .map entries => by
    rw [Value.jsonAt, isOk_ite_tooDeep, isOk_map,
      Value.isOk_jsonEntries room l (level + 1) entries,
      Value.fits_sub (.map entries) (Value.entriesFit · entries) rfl fun _ => rfl, Value.hasJson]
    ac_rfl

theorem Value.isOk_jsonItems (room : Nat) (l : Json.Layout) (level : Nat) :
    ∀ items : List Value, (Value.jsonItems room l level items).isOk
      = (Value.allHaveJson items && Value.allFit (room - level) items)
  | [] => rfl
  | v :: rest => by
    rw [Value.jsonItems, Value.allHaveJson, Value.allFit,
      isOk_bind_of_isOk fun _ => isOk_bind_pure _ _, Value.isOk_jsonAt room l level v,
      Value.isOk_jsonItems room l level rest]
    ac_rfl

theorem Value.isOk_jsonEntries (room : Nat) (l : Json.Layout) (level : Nat) :
    ∀ entries : List (Key × Value), (Value.jsonEntries room l level entries).isOk
      = (Value.entriesHaveJson entries && Value.entriesFit (room - level) entries)
  | [] => rfl
  | (k, v) :: rest => by
    rw [Value.jsonEntries, Value.entriesHaveJson, Value.entriesFit,
      isOk_bind_of_isOk fun _ => isOk_bind_of_isOk fun _ => isOk_bind_pure _ _,
      Json.isOk_key, Value.isOk_jsonAt room l level v, Value.isOk_jsonEntries room l level rest]
    ac_rfl

end

/-- **The printer writes exactly the values that can be written**, in every layout. -/
theorem Value.isOk_json (v : Value) (room : Nat) (l : Json.Layout) :
    (v.json room l).isOk = v.isWritable room :=
  Value.isOk_jsonAt room l 0 v

end SchemaTypes
