/-
# Reading single values

Texts, switches, whole numbers, bounds, lists and maps.  A value of a neighbouring kind is
accepted where it says the same thing: the words for yes and no, whole numbers written as text
or as doubles without a fraction, numerals with underscores between digits.
-/
import SchemaTypes.Reading.Outcome
import SchemaTypes.Data.Value
import SchemaTypes.Number.Numeral
import SchemaTypes.Number.Shortest
import SchemaTypes.Schema.Label
import SchemaTypes.Text.Case
import SchemaTypes.Text.Blank
import SchemaTypes.Text.Quoted
import SchemaTypes.Text.Utf8

namespace SchemaTypes.Reading

open SchemaTypes.Text (isDigit trimBy isWhiteSpace)
open SchemaTypes.Numeral (asciiLower digitsValue lengthLimit plainReal?)

/-- A way to read a value. -/
abbrev Reader (α : Type) := Value → Outcome α

/-! ## 1. Texts -/

/-- The text that bytes spell. -/
def textOfBytes? (bytes : List UInt8) : Option String :=
  match Text.Utf8.decode bytes with
  | .ok cs => some (String.ofList cs)
  | .error _ => none

/-- A text, which may be given as its bytes. -/
def text : Reader String
  | .text s => .accepted s
  | .halfText => .fail .notUnicode
  | .bytes bs =>
    match textOfBytes? bs with
    | some s => .accepted s
    | none => .fail .notUnicode
  | _ => .fail .notText

/-- A text that is not empty. -/
def nonEmptyText : Reader String := fun v =>
  (text v).andThen fun s => if s.isEmpty then .fail .textTooShort else .accepted s

/-- Reads what a text stands for; bytes that spell no text are no numeral or word either. -/
def fromText (unreadable other : Cause) (r : String → Outcome α) : Reader α
  | .text s => r s
  | .halfText => .fail .notUnicode
  | .bytes bs =>
    match textOfBytes? bs with
    | some s => r s
    | none => .fail unreadable
  | _ => .fail other

/-- A value that may be null. -/
def optional (r : Reader α) : Reader (Option α)
  | .null => .accepted none
  | v => (r v).map some

/-- One of some words. -/
def choice (words : List (String × α)) : Reader α := fun v =>
  match text v with
  | .accepted s =>
    match words.find? fun w => w.1 == s with
    | some w => .accepted w.2
    | none => .fail .notAChoice
  | _ => .fail .notAChoice

/-! ## 2. Switches -/

/-- The words for no. -/
def noWords : List String := ["0", "off", "f", "false", "n", "no"]

/-- The words for yes. -/
def yesWords : List String := ["1", "on", "t", "true", "y", "yes"]

/-- The truth value of a word. -/
def switchOfText (s : String) : Outcome Bool :=
  let w := asciiLower s
  if noWords.contains w then .accepted false
  else if yesWords.contains w then .accepted true
  else .fail .unreadableBool

/-- A switch: a truth value, a zero or one, or a word for yes or no in any case. -/
def switch : Reader Bool
  | .bool b => .accepted b
  | .int i => if i = 0 then .accepted false else if i = 1 then .accepted true
      else .fail .unreadableBool
  | .real d =>
    match d.toInt? with
    | some i => if i = 0 then .accepted false else if i = 1 then .accepted true
        else .fail .unreadableBool
    | none => .fail .notBool
  | v => fromText .unreadableBool .notBool switchOfText v

/-! ## 3. Numerals in texts -/

/-- Takes a minus off the front. -/
def takeMinus : List Char → Bool × List Char
  | '-' :: r => (true, r)
  | cs => (false, cs)

/-- A text begins with a whole numeral that has too many characters; no zero stands in front. -/
def exceedsLimit (cs : List Char) : Bool :=
  let (negative, ds) := takeMinus cs
  ds.head? != some '0'
    && lengthLimit < (if negative then 1 else 0) + (ds.takeWhile isDigit).length

/-- The whole number of a plain numeral: digits with an optional minus.  Zeros in front do not count
for the limit. -/
def plainInt? (cs : List Char) : Option Int :=
  let (negative, ds) := takeMinus cs
  let length := (if negative then 1 else 0) + (ds.dropWhile (· == '0')).length
  if !ds.isEmpty && ds.all isDigit && length ≤ lengthLimit then
    let n := Int.ofNat (digitsValue ds)
    some (if negative then -n else n)
  else none

/-- Drops the zeros and underscores that follow a zero; the last of them stays at the end and before
a point. -/
def dropZerosAfter (last : Char) : List Char → Option (List Char)
  | [] => some [last]
  | c :: r =>
    if c = '0' || c = '_' then dropZerosAfter c r
    else if isDigit c || c = '-' then some (c :: r)
    else if c = '.' then some (last :: c :: r)
    else none

/-- Drops zeros from the front of a numeral, also zeros in front of a minus. -/
def dropLeadingZeros : List Char → Option (List Char)
  | [] => none
  | c :: r =>
    if c = '0' then dropZerosAfter c r
    else if isDigit c || c = '-' then some (c :: r)
    else none

/-- Drops a tail of a point and zeros only. -/
def dropZeroTail (cs : List Char) : List Char :=
  let whole := cs.takeWhile (· != '.')
  let tail := cs.drop (whole.length + 1)
  if whole.length < cs.length && !tail.isEmpty && tail.all (· == '0') then whole else cs

/-- Two underscores stand side by side. -/
def hasDoubleUnderscore : List Char → Bool
  | '_' :: '_' :: _ => true
  | _ :: r => hasDoubleUnderscore r
  | [] => false

/-- Drops underscores, if none of them stands at an end or beside another. -/
def dropUnderscores (cs : List Char) : List Char :=
  if cs.head? = some '_' || cs.getLast? = some '_' || hasDoubleUnderscore cs then cs
  else cs.filter (· != '_')

/-- Drops a plus, unless a minus follows it. -/
def dropPlus : List Char → Option (List Char)
  | '+' :: '-' :: _ => none
  | '+' :: r => some r
  | cs => some cs

/-- A whole numeral without its ornaments: white space around it, a plus, leading zeros, a tail of
zeros and underscores. -/
def plainForm (cs : List Char) : Option (List Char) :=
  ((dropPlus (trimBy isWhiteSpace cs)).bind dropLeadingZeros).map fun ds =>
    dropUnderscores (dropZeroTail ds)

/-- The whole number that a text stands for.  Only the length of a numeral without ornaments is
a cause of its own. -/
def intOfText (s : String) : Outcome Int :=
  match plainInt? s.toList with
  | some i => .accepted i
  | none =>
    if exceedsLimit s.toList then .fail .hugeInt
    else
      match (plainForm s.toList).bind plainInt? with
      | some i => .accepted i
      | none => .fail .unreadableInt

example : (plainInt? "-01".toList, plainInt? "+1".toList) = (some (-1), none) := by
  decide +kernel

example : (plainForm " +00_1_0.0".toList).bind plainInt? = some 10 := by decide +kernel

/-- The double that a text stands for.  White space around it and underscores inside it do not
count, but a text with underscores has no white space around it. -/
def realOfText? (s : String) : Option Double :=
  plainReal? (trimBy isWhiteSpace s.toList) <|> plainReal? (dropUnderscores s.toList)

/-! ## 4. Numbers -/

/-- A whole number. -/
def int : Reader Int
  | .int i => .accepted i
  | .bool b => .accepted (if b then 1 else 0)
  | .real d =>
    match d.toInt? with
    | some i => if i.natAbs < Nat.pow 2 63 then .accepted i else .fail .hugeInt
    | none =>
      match d with
      | .finite .. => .fail .fractionalInt
      | _ => .fail .unboundedInt
  | v => fromText .unreadableInt .notInt intOfText v

/-- A whole number that is not below `least`. -/
def natFrom (least : Nat) : Reader Nat := fun v =>
  (int v).andThen fun i =>
    if (least : Int) ≤ i then .accepted i.toNat else .fail .belowMinimum

/-- The double of a text. -/
def realOfText (s : String) : Outcome Double :=
  match realOfText? s with
  | some d => .accepted d
  | none => .fail .unreadableReal

/-- A double. -/
def real : Reader Double
  | .real d => .accepted d
  | .int i => .accepted (Double.ofInt i)
  | .bool b => .accepted (Double.ofInt (if b then 1 else 0))
  | v => fromText .unreadableReal .notReal realOfText v

/-- The first reading that accepts; if none does, the faults of both under their names. -/
def either (leftName : String) (left : Reader α) (rightName : String) (right : Reader α) :
    Reader α := fun v =>
  match left v with
  | .rejected xs =>
    match right v with
    | .rejected ys =>
      .rejected (xs.map (Issue.under (.name leftName)) ++ ys.map (Issue.under (.name rightName)))
    | x => x
  | x => x

/-- A bound: whole numbers and doubles stay what they are, anything else is read as a whole
number if it can be. -/
def bound : Reader Bound
  | .int i => .accepted (.whole i)
  | .real d => .accepted (.real d)
  | v => either "int" (fun v => (int v).map .whole) "float" (fun v => (real v).map .real) v

/-! ## 5. Lists and maps -/

/-- The readings of the items, each under its position from `start` on. -/
def itemsFrom (r : Reader α) (start : Nat) : List Value → List (Outcome α)
  | [] => []
  | v :: rest => (r v).under (.index (Int.ofNat start)) :: itemsFrom r (start + 1) rest

/-- The items of a list, a pair or a set. -/
def itemsOf? : Value → Option (List Value)
  | .list items => some items
  | .pair a b => some [a, b]
  | .set members => some (members.map Key.value)
  | _ => none

/-- A list. -/
def list (r : Reader α) : Reader (List α) := fun v =>
  match itemsOf? v with
  | some items => Outcome.all (itemsFrom r 0 items)
  | none => .fail .notList

/-- A list with at least one item. -/
def nonEmptyList (r : Reader α) : Reader (List α) := fun v =>
  match itemsOf? v with
  | some [] => .fail .listTooShort
  | _ => list r v

/-- A list of exactly two items. -/
def pair (r : Reader α) : Reader (α × α) := fun v =>
  match itemsOf? v with
  | some [] => .rejected [⟨.missing, [.index 0]⟩, ⟨.missing, [.index 1]⟩]
  | some [a] =>
    Outcome.both (((r a).under (.index 0)).map fun x (y : α) => (x, y))
      (Outcome.under (.index 1) (.fail .missing))
  | some [a, b] =>
    Outcome.both (((r a).under (.index 0)).map Prod.mk) ((r b).under (.index 1))
  | some (_ :: _ :: _ :: _) => .fail .pairTooLong
  | none => .fail .notPair

/-- The name of a key that cannot be shown. -/
def unprintable : String := "<unprintable int object>"

/-- The step into an entry of a map.  A number that fills more than 64 bits is named. -/
def keyStep : Key → Step
  | .text s => .name s
  | .int i =>
    if -Int.ofNat (Nat.pow 2 63) ≤ i && i < Int.ofNat (Nat.pow 2 63) then .index i
    else .name ((Numeral.text? i).getD unprintable)
  | .bool b => .index (if b then 1 else 0)
  | .halfText => .name "\uFFFD\uFFFD\uFFFD"
  | k => .name (k.shown?.getD unprintable)

/-- The readings of the entries of a map whose keys have to be texts. -/
def entryOutcomes (r : Reader α) : List (Key × Value) → List (Outcome (String × α))
  | [] => []
  | (k, v) :: rest =>
    let name := ((text k.value).under (.name "[key]")).under (keyStep k)
    Outcome.both (name.map Prod.mk) ((r v).under (keyStep k)) :: entryOutcomes r rest

/-- A map with text keys. -/
def map (r : Reader α) : Reader (List (String × α))
  | .map entries => Outcome.all (entryOutcomes r entries)
  | _ => .fail .notMap

/-- Any value. -/
def anything : Reader Value := .accepted

/-- A label: a text, or texts by locale. -/
def label : Reader Label :=
  either "str" (fun v => (text v).map .plain) "dict[str,str]" fun v => (map text v).map .byLocale

/-! ## 6. Small laws -/

@[simp] theorem text_text (s : String) : text (.text s) = .accepted s := rfl

@[simp] theorem optional_null (r : Reader α) : optional r .null = .accepted none := rfl

@[simp] theorem bound_int (i : Int) : bound (.int i) = .accepted (.whole i) := rfl

@[simp] theorem bound_real (d : Double) : bound (.real d) = .accepted (.real d) := rfl

/-- A number that was read is not below the least one allowed. -/
theorem le_of_natFrom {least n : Nat} {v : Value} (h : natFrom least v = .accepted n) :
    least ≤ n := by
  unfold natFrom Outcome.andThen at h
  split at h
  · dsimp only at h
    split at h
    · injection h with h
      subst h
      omega
    · simp [Outcome.fail] at h
  · simp at h
  · simp at h

end SchemaTypes.Reading
