/-
# Values of a snapshot

A snapshot is read into a `Value`: the values of JSON, with whole numbers apart from doubles and
maps in the order in which they were written, and what YAML adds: calendar stamps, bytes, sets,
pairs, keys of other kinds, and lists and maps that contain themselves.  A map keeps the first
position and the last value of a repeated key (`putEntry`); keys are the same by value, so that
`true`, `1` and `1.0` are one key (`Key.same`).

An escape can name one half of a surrogate pair, which is no character.  A text with such a half
is a value of its own; nothing depends on what else it holds.
-/
import SchemaTypes.Number.Bound
import SchemaTypes.Data.Stamp

namespace SchemaTypes

/-- A key of a map. -/
inductive Key where
  | null
  | bool (b : Bool)
  | int (i : Int)
  | real (d : Double)
  | text (s : String)
  | halfText
  | stamp (t : Stamp)
  | bytes (bs : List UInt8)
deriving DecidableEq, Repr, Inhabited

/-- A value as it was written.  A value that contains itself is spread out a few levels deep, and
`endless` stands where it would go on. -/
inductive Value where
  | null
  | bool (b : Bool)
  | int (i : Int)
  | real (d : Double)
  | text (s : String)
  | halfText
  | stamp (t : Stamp)
  | bytes (bs : List UInt8)
  | list (items : List Value)
  | pair (first second : Value)
  | set (members : List Key)
  | map (entries : List (Key × Value))
  | endless
deriving Repr, Inhabited

/-! ## 1. Keys -/

namespace Key

/-- The number that a key stands for, in units of the smallest positive double. -/
def scaled? : Key → Option Int
  | .bool b => some (if b then Int.ofNat Double.unitsPerOne else 0)
  | .int i => some (i * Int.ofNat Double.unitsPerOne)
  | .real d => d.scaled?
  | _ => none

/-- Two keys name one entry. -/
def same (a b : Key) : Bool :=
  match a.scaled?, b.scaled? with
  | some x, some y => x == y
  | _, _ => a == b

/-- The text of a key that is a text. -/
def text? : Key → Option String
  | .text s => some s
  | _ => none

/-- The value that is the key. -/
def value : Key → Value
  | .null => .null
  | .bool b => .bool b
  | .int i => .int i
  | .real d => .real d
  | .text s => .text s
  | .halfText => .halfText
  | .stamp t => .stamp t
  | .bytes bs => .bytes bs

end Key

/-! ## 2. Entries -/

/-- Sets the value of a key: in place when the key is there, else at the end. -/
def putEntry (key : Key) (v : α) : List (Key × α) → List (Key × α)
  | [] => [(key, v)]
  | (k, w) :: r => if k.same key then (k, v) :: r else (k, w) :: putEntry key v r

namespace Value

/-- The value under a text key. -/
def entry? (name : String) (entries : List (Key × α)) : Option α :=
  (entries.find? fun e => e.1 == .text name).map (·.2)

/-- A map with text keys. -/
def ofFields (fields : List (String × Value)) : Value :=
  .map (fields.map fun f => (.text f.1, f.2))

/-- A list of texts. -/
def ofTexts (xs : List String) : Value := .list (xs.map .text)

/-- A map from texts to texts. -/
def ofTextMap (xs : List (String × String)) : Value :=
  ofFields (xs.map fun x => (x.1, .text x.2))

/-- The value is a map. -/
def isMap : Value → Bool
  | .map _ => true
  | _ => false

/-- The key that the value can be used as; collections are none. -/
def key? : Value → Option Key
  | .null => some .null
  | .bool b => some (.bool b)
  | .int i => some (.int i)
  | .real d => some (.real d)
  | .text s => some (.text s)
  | .halfText => some .halfText
  | .stamp t => some (.stamp t)
  | .bytes bs => some (.bytes bs)
  | _ => none

end Value

/-! ## 3. Nesting -/

/-- How many lists and maps may stand inside each other: in a JSON text that is read, in the further
data of an enumeration with a name of its own, and in those of a property.  Each of them takes an
open call, of which a thousand are allowed at a time, so the room depends on how many calls the
caller has open itself. -/
class Nesting where
  read : Nat
  named : Nat
  inline : Nat

/-- The command line has 15 calls open where it reads a text, and 23 or 21 where it writes further
data. -/
instance Nesting.commandLine : Nesting := ⟨985, 977, 979⟩

mutual

/-- At most some collections stand inside each other; what contains itself has no such number. -/
def Value.fits : Nat → Value → Bool
  | 0, .list _ => false
  | n + 1, .list items => Value.allFit n items
  | 0, .pair .. => false
  | n + 1, .pair a b => a.fits n && b.fits n
  | 0, .map _ => false
  | n + 1, .map entries => Value.entriesFit n entries
  | _, .endless => false
  | _, _ => true

/-- The items of a list fit. -/
def Value.allFit : Nat → List Value → Bool
  | _, [] => true
  | n, v :: rest => v.fits n && Value.allFit n rest

/-- The values of a map fit. -/
def Value.entriesFit : Nat → List (Key × Value) → Bool
  | _, [] => true
  | n, (_, v) :: rest => v.fits n && Value.entriesFit n rest

end

/-! ## 4. Small laws -/

/-- A key is the key of its own value. -/
@[simp] theorem Key.key?_value (k : Key) : k.value.key? = some k := by cases k <;> rfl

/-- After setting a key there are at most one more entries. -/
theorem length_putEntry_le (key : Key) (v : α) (es : List (Key × α)) :
    (putEntry key v es).length ≤ es.length + 1 := by
  induction es with
  | nil => simp [putEntry]
  | cons e r ih =>
    obtain ⟨k, w⟩ := e
    by_cases h : k.same key <;> simp [putEntry, h]
    omega

/-- Setting a text key makes its value the entry. -/
theorem entry?_putEntry_nil (name : String) (v : α) :
    Value.entry? name (putEntry (.text name) v []) = some v := by
  simp [putEntry, Value.entry?]

end SchemaTypes
