/-
# Outcomes of reading

A value of a snapshot is read into a record field by field.  All faults of a record are collected
in the order of its fields, each with the path to its place (`Issue`); a value of an impossible
shape in a few places stops the reading at once instead (`Breakage`).

`Outcome` is applicative: two readings are both tried, the first breakage stops, and the issues
of the left one come first.
-/
namespace SchemaTypes.Reading

/-- One step of a path into a value. -/
inductive Step where
  | name (s : String)
  | index (i : Int)
deriving DecidableEq, Repr

/-- Why a value does not fit. -/
inductive Cause where
  | missing
  | notText
  | notUnicode
  | textTooShort
  | notBool
  | unreadableBool
  | notInt
  | unreadableInt
  | fractionalInt
  | hugeInt
  | unboundedInt
  | notReal
  | unreadableReal
  | notList
  | listTooShort
  | notMap
  | notRecord
  | notPair
  | pairTooLong
  | notAChoice
  | belowMinimum
  | invalidEntry
deriving DecidableEq, Repr

/-- The word for a cause. -/
def Cause.code : Cause → String
  | .missing => "missing"
  | .notText => "string_type"
  | .notUnicode => "string_unicode"
  | .textTooShort => "string_too_short"
  | .notBool => "bool_type"
  | .unreadableBool => "bool_parsing"
  | .notInt => "int_type"
  | .unreadableInt => "int_parsing"
  | .fractionalInt => "int_from_float"
  | .hugeInt => "int_parsing_size"
  | .unboundedInt => "finite_number"
  | .notReal => "float_type"
  | .unreadableReal => "float_parsing"
  | .notList => "list_type"
  | .listTooShort => "too_short"
  | .notMap => "dict_type"
  | .notRecord => "model_type"
  | .notPair => "tuple_type"
  | .pairTooLong => "too_long"
  | .notAChoice => "enum"
  | .belowMinimum => "greater_than_equal"
  | .invalidEntry => "value_error"

/-- A fault and the path to it. -/
structure Issue where
  cause : Cause
  path : List Step
deriving DecidableEq, Repr

/-- The same fault seen from one step further out. -/
def Issue.under (step : Step) (x : Issue) : Issue := ⟨x.cause, step :: x.path⟩

/-- A value of a shape that stops the reading. -/
inductive Breakage where
  | unusableKey
  | missingName
deriving DecidableEq, Repr

/-- What reading a value gives. -/
inductive Outcome (α : Type) where
  | accepted (a : α)
  | rejected (issues : List Issue)
  | broken (b : Breakage)
deriving Repr

namespace Outcome

/-- Applies a read function to a read value. -/
def both : Outcome (α → β) → Outcome α → Outcome β
  | .broken b, _ => .broken b
  | _, .broken b => .broken b
  | .rejected xs, .rejected ys => .rejected (xs ++ ys)
  | .rejected xs, .accepted _ => .rejected xs
  | .accepted _, .rejected ys => .rejected ys
  | .accepted f, .accepted a => .accepted (f a)

/-- Changes the value that was read. -/
def map (f : α → β) : Outcome α → Outcome β
  | .accepted a => .accepted (f a)
  | .rejected xs => .rejected xs
  | .broken b => .broken b

instance : Functor Outcome where
  map := map

instance : Applicative Outcome where
  pure := accepted
  seq f x := both f (x ())

/-- Goes on with the value that was read. -/
def andThen (x : Outcome α) (f : α → Outcome β) : Outcome β :=
  match x with
  | .accepted a => f a
  | .rejected xs => .rejected xs
  | .broken b => .broken b

/-- One fault right here. -/
def fail (c : Cause) : Outcome α := .rejected [⟨c, []⟩]

/-- Puts a step in front of the paths of all faults. -/
def under (step : Step) : Outcome α → Outcome α
  | .rejected xs => .rejected (xs.map (Issue.under step))
  | x => x

/-- All outcomes of a list. -/
def all : List (Outcome α) → Outcome (List α)
  | [] => .accepted []
  | x :: r => both (map List.cons x) (all r)

/-! ## Small laws -/

@[simp] theorem under_accepted (s : Step) (a : α) : (accepted a).under s = accepted a := rfl

@[simp] theorem map_accepted (f : α → β) (a : α) : (accepted a).map f = accepted (f a) := rfl

/-- Both parts of an accepted pair of readings were accepted. -/
theorem both_eq_accepted {f : Outcome (α → β)} {x : Outcome α} {b : β}
    (h : both f x = accepted b) : ∃ g a, f = accepted g ∧ x = accepted a ∧ b = g a := by
  cases f <;> cases x <;> simp_all [both]

theorem under_eq_accepted {s : Step} {x : Outcome α} {a : α} :
    x.under s = accepted a ↔ x = accepted a := by
  cases x <;> simp [under]

end Outcome

end SchemaTypes.Reading
