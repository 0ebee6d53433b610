/-
# Reading YAML

`Yaml.read` gives the value of a text: the one document in it, or null for an empty text.  Keys
are the same by value, and the last value of a repeated key counts.  A key with two angles stands
for the entries of another map or of several ones; they come first, and the entries of the map
itself replace them (`Node.merged`).

Of several faults the one in the outermost collection counts: the scalars of a collection are read
with it, and the collections in it afterwards, level by level (`checkLevels`).
-/
import SchemaTypes.Data.Value
import SchemaTypes.Data.Yaml.Meaning
import SchemaTypes.Data.Yaml.Node

namespace SchemaTypes.Yaml

/-! ## 1. Entries of other maps -/

/-- The entries of a map; one that is not complete has none yet. -/
def Node.entries? : Node → Option (List (Node × Node))
  | .scalar .. => none
  | .within _ => some []
  | .map _ entries => some entries
  | .list .. => none

/-- The entries of a map, or of several maps, those of the last one first. -/
def Node.sources? : Node → Option (List (Node × Node))
  | .list _ items => (items.mapM Node.entries?).map fun es => es.reverse.flatten
  | n => n.entries?

/-- Puts the entries of an entry with two angles in its place; one that names no maps stays. -/
def spreadEntry (entry : Node × Node) (others : List (Node × Node) × List (Node × Node)) :
    List (Node × Node) × List (Node × Node) :=
  if entry.1.tag = .merge then
    match entry.2.sources? with
    | some es => (es ++ others.1, others.2)
    | none => (entry :: others.1, others.2)
  else (others.1, entry :: others.2)

/-- The entries of a map: those from other maps, and its own. -/
def spreadEntries (entries : List (Node × Node)) : List (Node × Node) :=
  let es := entries.foldr spreadEntry ([], [])
  es.1 ++ es.2

/-- Entries without such a key stay as they are. -/
theorem spreadEntries_eq_self {entries : List (Node × Node)}
    (h : ∀ e ∈ entries, e.1.tag ≠ .merge) : spreadEntries entries = entries := by
  have split : entries.foldr spreadEntry ([], []) = ([], entries) := by
    induction entries with
    | nil => rfl
    | cons e rest ih =>
      rw [List.foldr_cons, ih fun x hx => h x (by simp [hx])]
      simp [spreadEntry, h e (by simp)]
  simp [spreadEntries, split]

mutual

/-- The node with the entries of other maps in the place of keys with two angles.  A map that
stands for a scalar keeps such keys. -/
def Node.merged : Node → Node
  | .scalar tag text => .scalar tag text
  | .within name => .within name
  | .list tag items => .list tag (mergedItems items)
  | .map tag entries =>
    let es := mergedEntries entries
    .map tag (if tag.isCollection then spreadEntries es else es)

/-- The items of a list, merged. -/
def mergedItems : List Node → List Node
  | [] => []
  | n :: rest => n.merged :: mergedItems rest

/-- The keys and values of a map, merged. -/
def mergedEntries : List (Node × Node) → List (Node × Node)
  | [] => []
  | (k, v) :: rest => (k.merged, v.merged) :: mergedEntries rest

end

/-! ## 2. The first fault -/

mutual

/-- The text of a node that stands for a scalar: of a scalar, or of what a map has under an equals
sign. -/
def Node.spelling : Node → Except Fault Spelling
  | .scalar _ text => .ok text
  | .map _ entries => spellingIn entries
  | .list .. => .error .malformed
  | .within _ => .error .tooDeep

/-- The text under an equals sign. -/
def spellingIn : List (Node × Node) → Except Fault Spelling
  | [] => .error .malformed
  | (k, v) :: rest => if k.tag = .value then v.spelling else spellingIn rest

end

/-- The value of a node with the tag of a scalar.  A tag without a meaning is the first fault. -/
def Node.scalarValue (n : Node) (tag : Tag) : Except Fault Value :=
  if tag.isScalar then n.spelling >>= Yaml.scalarValue tag else .error .malformed

/-- Begins a node: a scalar is read, and a collection is put off. -/
def Node.begin (n : Node) : Except Fault (List Node) :=
  if n.tag.isCollection then .ok [n]
  else
    match n.scalarValue n.tag with
    | .ok _ => .ok []
    | .error f => .error f

/-- The key that a node is; an equals sign is a text here. -/
def Node.key (n : Node) : Except Fault Key := do
  let v ← n.scalarValue (if n.tag = .value then .text else n.tag)
  match v.key? with
  | some k => return k
  | none => .error .malformed

/-- Begins the key and the value of an entry. -/
def beginEntry (entry : Node × Node) : Except Fault (List Node) := do
  let _ ← entry.1.key
  entry.2.begin

/-- Begins the one entry of a map; its key may be a collection. -/
def beginPair : Node → Except Fault (List Node)
  | .map _ [(k, v)] => do return (← k.begin) ++ (← v.begin)
  | _ => .error .malformed

/-- Begins the insides of a collection, and gives the collections in it. -/
def Node.unfold : Node → Except Fault (List Node)
  | .scalar .. => .error .malformed
  | .within _ => .ok []
  | .list tag items =>
    match tag with
    | .list => List.flatten <$> items.mapM Node.begin
    | .orderedMap | .pairs => List.flatten <$> items.mapM beginPair
    | _ => .error .malformed
  | .map tag entries =>
    if tag = .map || tag = .set then
      if entries.any fun e => e.1.tag = .merge then .error .malformed
      else List.flatten <$> entries.mapM beginEntry
    else .error .malformed

/-- Looks for the first fault in collections of one level, and then in those of the next one. -/
def checkLevels : Nat → List Node → Except Fault Unit
  | 0, _ => .ok ()
  | fuel + 1, ns => do
    if ns.isEmpty then return ()
    checkLevels fuel (← ns.mapM Node.unfold).flatten

/-! ## 3. Values -/

/-- The map of some entries. -/
def mapOf (entries : List (Key × Value)) : Value :=
  .map (entries.foldl (fun es e => putEntry e.1 e.2 es) [])

/-- The set of the keys of some entries. -/
def setOf (entries : List (Key × Value)) : Value :=
  .set ((entries.foldl (fun es e => putEntry e.1 e.2 es) []).map (·.1))

mutual

/-- The value of a node. -/
def Node.value : Node → Except Fault Value
  | .scalar tag text => Yaml.scalarValue tag text
  | .within _ => .ok .endless
  | .list tag items =>
    match tag with
    | .list => .list <$> valuesOf items
    | .orderedMap | .pairs => .list <$> pairsOf items
    | _ => .error .malformed
  | .map tag entries =>
    match tag with
    | .map => mapOf <$> entriesOf entries
    | .set => setOf <$> entriesOf entries
    | _ => Node.scalarValue (.map tag entries) tag

/-- The values of nodes. -/
def valuesOf : List Node → Except Fault (List Value)
  | [] => .ok []
  | n :: rest => do
    let v ← n.value
    return v :: (← valuesOf rest)

/-- The pairs that maps with one entry are. -/
def pairsOf : List Node → Except Fault (List Value)
  | [] => .ok []
  | n :: rest =>
    match n with
    | .map _ [(k, v)] => do
      let a ← k.value
      let b ← v.value
      return .pair a b :: (← pairsOf rest)
    | _ => .error .malformed

/-- The entries of a map. -/
def entriesOf : List (Node × Node) → Except Fault (List (Key × Value))
  | [] => .ok []
  | (k, v) :: rest => do
    let key ← k.key
    let value ← v.value
    return (key, value) :: (← entriesOf rest)

end

/-- How many levels a document can have, with what is spread out in it. -/
def levelLimit : Nat := (spreads + 1) * (nestingLimit + 1)

/-- The value of a text. -/
def read (cs : List Char) : Except Fault Value := do
  let n := (← Node.ofTokens (← tokens cs)).merged
  checkLevels levelLimit (← n.begin)
  n.value

end SchemaTypes.Yaml
