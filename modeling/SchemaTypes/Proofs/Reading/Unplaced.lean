/-
# Outcomes without places

An issue names the place of a fault, and a place names the spelling under which a field was found.
`Outcome.unplaced` forgets the places and keeps everything else: what was accepted, which faults
there are in which order, which breakage stopped the reading.  It goes through every way in which
readings are put together, so that the outcome of a record is, up to places, made of what its
fields hold (`unplaced_fieldOr`) and not of how they are spelled.
-/
import Mathlib
import SchemaTypes.Proofs.Reading.Entries

namespace SchemaTypes.Reading

/-- The fault without its place. -/
def Issue.unplaced (x : Issue) : Issue := ⟨x.cause, []⟩

@[simp] theorem Issue.unplaced_under (step : Step) (x : Issue) :
    (x.under step).unplaced = x.unplaced := rfl

/-! ## 1. Outcomes -/

namespace Outcome

variable {α β : Type}

/-- The outcome without the places of faults. -/
def unplaced : Outcome α → Outcome α
  | .accepted a => .accepted a
  | .rejected xs => .rejected (xs.map Issue.unplaced)
  | .broken b => .broken b

@[simp] theorem unplaced_accepted (a : α) : (accepted a).unplaced = accepted a := rfl

@[simp] theorem unplaced_rejected (xs : List Issue) :
    (rejected xs : Outcome α).unplaced = rejected (xs.map Issue.unplaced) := rfl

@[simp] theorem unplaced_broken (b : Breakage) : (broken b : Outcome α).unplaced = broken b := rfl

@[simp] theorem unplaced_fail (c : Cause) : (fail c : Outcome α).unplaced = fail c := rfl

@[simp] theorem unplaced_under (step : Step) (x : Outcome α) :
    (x.under step).unplaced = x.unplaced := by
  cases x with
  | rejected xs => simp [under, Function.comp_def]
  | accepted a => rfl
  | broken b => rfl

@[simp] theorem unplaced_both (f : Outcome (α → β)) (x : Outcome α) :
    (both f x).unplaced = both f.unplaced x.unplaced := by
  cases f <;> cases x <;> simp [both]

@[simp] theorem unplaced_map (f : α → β) (x : Outcome α) :
    (x.map f).unplaced = x.unplaced.map f := by
  cases x <;> rfl

@[simp] theorem unplaced_seq (f : Outcome (α → β)) (x : Outcome α) :
    (f <*> x).unplaced = f.unplaced <*> x.unplaced := unplaced_both f x

@[simp] theorem unplaced_fmap (f : α → β) (x : Outcome α) :
    (f <$> x).unplaced = f <$> x.unplaced := unplaced_map f x

@[simp] theorem unplaced_andThen (x : Outcome α) (f : α → Outcome β) :
    (x.andThen f).unplaced = x.unplaced.andThen fun a => (f a).unplaced := by
  cases x <;> rfl

/-- Up to places, what follows an accepted value counts only up to places. -/
theorem unplaced_andThen_congr {x : Outcome α} {f g : α → Outcome β}
    (h : ∀ a, (f a).unplaced = (g a).unplaced) :
    (x.andThen f).unplaced = (x.andThen g).unplaced := by
  rw [unplaced_andThen, unplaced_andThen, funext h]

@[simp] theorem unplaced_all (xs : List (Outcome α)) :
    (all xs).unplaced = all (xs.map unplaced) := by
  induction xs with
  | nil => rfl
  | cons x rest ih => simp [all, ih]

end Outcome

/-! ## 2. Fields -/

namespace FieldName

/-- What a field holds. -/
def value? (f : FieldName) (es : Entries) : Option Value :=
  (Value.entry? f.first es).or (Value.entry? f.second es)

theorem map_snd_find? (f : FieldName) (es : Entries) : (f.find? es).map (·.2) = f.value? es := by
  unfold find? value?
  cases Value.entry? f.first es <;> cases Value.entry? f.second es <;> rfl

/-- A field of one word is one entry. -/
@[simp] theorem value?_word (s : String) (es : Entries) :
    (word s).value? es = Value.entry? s es := by
  simp [value?, word]

end FieldName

variable {α : Type}

theorem unplaced_fieldOr (f : FieldName) (absent : α) (r : Reader α) (es : Entries) :
    (fieldOr f absent r es).unplaced
      = ((f.value? es).map fun v => (r v).unplaced).getD (.accepted absent) := by
  rw [fieldOr, ← f.map_snd_find? es]
  cases f.find? es with
  | none => rfl
  | some found => exact Outcome.unplaced_under _ _

theorem unplaced_field (f : FieldName) (r : Reader α) (es : Entries) :
    (field f r es).unplaced
      = ((f.value? es).map fun v => (r v).unplaced).getD (.fail .missing) := by
  rw [field, ← f.map_snd_find? es]
  cases f.find? es with
  | none => rfl
  | some found => exact Outcome.unplaced_under _ _

/-! ## 3. Lists and maps -/

theorem map_unplaced_itemsFrom (r : Reader α) (start : Nat) (items : List Value) :
    (itemsFrom r start items).map Outcome.unplaced = items.map fun v => (r v).unplaced := by
  induction items generalizing start with
  | nil => rfl
  | cons v rest ih => simp [itemsFrom, ih]

theorem unplaced_list_list (r : Reader α) (items : List Value) :
    (list r (.list items)).unplaced = Outcome.all (items.map fun v => (r v).unplaced) := by
  show (Outcome.all (itemsFrom r 0 items)).unplaced = _
  rw [Outcome.unplaced_all, map_unplaced_itemsFrom]

/-- The entry of a map, its key and its value read up to places. -/
def unplacedEntry (r : Reader α) (e : Key × Value) : Outcome (String × α) :=
  Outcome.both ((text e.1.value).unplaced.map Prod.mk) (r e.2).unplaced

theorem unplaced_map_map (r : Reader α) (es : Entries) :
    (map r (.map es)).unplaced = Outcome.all (es.map (unplacedEntry r)) := by
  show (Outcome.all (entryOutcomes r es)).unplaced = _
  rw [Outcome.unplaced_all]
  congr 1
  induction es with
  | nil => rfl
  | cons e rest ih => simp [entryOutcomes, unplacedEntry, ih]

end SchemaTypes.Reading
