/-
# Fields of a record

A record is read from a map.  Each field has two spellings, and the first one that the map holds
is used (`FieldName`); keys that name no field are ignored.  A field may have a value for the
case that it is absent (`fieldOr`) or be required (`field`).
-/
import SchemaTypes.Reading.Scalar

namespace SchemaTypes.Reading

/-- The two spellings of a field; the first is preferred. -/
structure FieldName where
  first : String
  second : String
deriving DecidableEq, Repr

/-- The entries of the map that a record is read from. -/
abbrev Entries := List (Key × Value)

/-- The spelling under which a field is present, with its value. -/
def FieldName.find? (f : FieldName) (es : Entries) : Option (String × Value) :=
  match Value.entry? f.first es with
  | some v => some (f.first, v)
  | none => (Value.entry? f.second es).map fun v => (f.second, v)

/-- A field with a value for its absence. -/
def fieldOr (f : FieldName) (absent : α) (r : Reader α) (es : Entries) : Outcome α :=
  match f.find? es with
  | some (spelling, v) => (r v).under (.name spelling)
  | none => .accepted absent

/-- A required field. -/
def field (f : FieldName) (r : Reader α) (es : Entries) : Outcome α :=
  match f.find? es with
  | some (spelling, v) => (r v).under (.name spelling)
  | none => Outcome.under (.name f.first) (.fail .missing)

/-- A field that may be null or absent. -/
def fieldOpt (f : FieldName) (r : Reader α) (es : Entries) : Outcome (Option α) :=
  fieldOr f none (optional r) es

/-- A record read from its entries. -/
def record (r : Entries → Outcome α) : Reader α
  | .map es => r es
  | _ => .fail .notRecord

/-- A field of one word, which has one spelling. -/
def word (s : String) : FieldName := ⟨s, s⟩

/-! ## Small laws -/

/-- The value of a field does not depend on which of the two spellings holds it. -/
theorem fieldOr_isAccepted_congr {f : FieldName} {absent : α} {r : Reader α} {es es' : Entries}
    (h : (f.find? es).map (·.2) = (f.find? es').map (·.2)) (a : α) :
    fieldOr f absent r es = .accepted a ↔ fieldOr f absent r es' = .accepted a := by
  unfold fieldOr
  cases h₁ : f.find? es <;> cases h₂ : f.find? es' <;> simp_all [Outcome.under_eq_accepted]

end SchemaTypes.Reading
