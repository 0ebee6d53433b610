/-
# Nodes of a YAML text

A document is a tree of scalars, lists and maps, each with its tag (`Node`).  `Node.ofTokens`
reads the one document of a text along its tokens.  An alias is replaced by the node that it
names; inside that node it stays a name (`Node.within`), and such names are replaced a few times
at the end, so that what contains itself is spread out a few levels deep.  A name is given once.

The reading functions call each other along the grammar.  Each call of one that leads back to the
same function takes at least one token, so that the fuel, a multiple of the number of tokens,
does not run out.
-/
import SchemaTypes.Data.Yaml.Tag
import SchemaTypes.Data.Yaml.Token

namespace SchemaTypes.Yaml

/-- A value of a document with its tag. -/
inductive Node where
  | scalar (tag : Tag) (text : Spelling)
  | list (tag : Tag) (items : List Node)
  | map (tag : Tag) (entries : List (Node × Node))
  | within (name : String)
deriving Repr, Inhabited

namespace Node

/-- The tag. -/
def tag : Node → Tag
  | .scalar t _ => t
  | .list t _ => t
  | .map t _ => t
  | .within _ => .map

/-- What stands where nothing is written. -/
def empty : Node := .scalar .null ⟨"", false⟩

end Node

/-! ## 1. The state of the reading -/

/-- The tokens that are left, the names that were given, and the number of collections around the
next node; a name of a node that is not complete stands for nothing yet. -/
structure Remaining where
  tokens : List Token
  anchors : List (String × Option Node) := []
  level : Nat := 0

/-- A part of the reading. -/
abbrev NodeReader := StateT Remaining (Except Fault)

/-- The handles of a document and what they stand for. -/
abbrev Handles := List (String × String)

/-- The handles that need no line of their own. -/
def defaultHandles : Handles := [("!", "!"), ("!!", tagStart)]

/-- The next token. -/
def next? : NodeReader (Option Token) := fun s => .ok (s.tokens.head?, s)

/-- Drops the next token. -/
def skip : NodeReader Unit := fun s => .ok ((), { s with tokens := s.tokens.drop 1 })

/-- The text breaks a rule. -/
def refuse : NodeReader α := fun _ => .error .malformed

/-- The next token is one of some. -/
def nextIsOneOf (ts : List Token) : NodeReader Bool := do
  return (← next?).any ts.contains

/-- Takes a token if it is the next one. -/
def accept (t : Token) : NodeReader Bool := do
  if (← next?) == some t then
    skip
    return true
  else return false

/-- Takes a token that has to be the next one. -/
def expect (t : Token) : NodeReader Unit := do
  unless ← accept t do refuse

/-- The node that a name stands for. -/
def aliased (name : String) : NodeReader Node := fun s =>
  match s.anchors.lookup name with
  | some (some n) => .ok (n, s)
  | some none => .ok (.within name, s)
  | none => .error .malformed

/-- How many collections may stand around a node. -/
def nestingLimit : Nat := 480

/-- Reads the inside of a collection. -/
def inside (x : NodeReader α) : NodeReader α := fun s =>
  if nestingLimit ≤ s.level then .error .tooDeep
  else
    match x { s with level := s.level + 1 } with
    | .ok (a, t) => .ok (a, { t with level := s.level })
    | .error f => .error f

/-- Gives a name, which has to be new. -/
def openAnchor (name : String) : NodeReader Unit := fun s =>
  if (s.anchors.lookup name).isSome then .error .malformed
  else .ok ((), { s with anchors := (name, none) :: s.anchors })

/-- Lets a name stand for a complete node. -/
def closeAnchor (name : String) (n : Node) : NodeReader Unit := fun s =>
  .ok ((), { s with anchors := (name, some n) :: s.anchors })

/-! ## 2. What stands in front of a node -/

/-- A written tag. -/
inductive WrittenTag where
  | none
  | open
  | named (name : String)
deriving DecidableEq, Repr

/-- A name and a tag in front of a node. -/
structure Properties where
  anchor : Option String := none
  tag : WrittenTag := .none
deriving DecidableEq, Repr

namespace WrittenTag

/-- The tag of a token: its handle has to be known. -/
def ofToken (handles : Handles) (handle : Option String) (suffix : String) :
    NodeReader WrittenTag :=
  let named (name : String) : WrittenTag := if name == "!" then .open else .named name
  match handle with
  | Option.none => return named suffix
  | some h =>
    match handles.lookup h with
    | some start => return named (start ++ suffix)
    | Option.none => refuse

/-- The tag of a collection. -/
def collection (t : WrittenTag) (usual : Tag) : Tag :=
  match t with
  | .named name => .ofName name
  | _ => usual

/-- The tag of a scalar: a plain one, or one with an open tag, has the tag of its text. -/
def scalar (t : WrittenTag) (text : String) (plain : Bool) : Tag :=
  match t with
  | .named name => .ofName name
  | .open => .ofPlain text
  | .none => if plain then .ofPlain text else .text

end WrittenTag

/-- Takes the name in front of a node. -/
def takeAnchor : NodeReader (Option String) := do
  match ← next? with
  | some (.anchor name) =>
    skip
    return some name
  | _ => return none

/-- Takes the tag in front of a node. -/
def takeTag (handles : Handles) : NodeReader WrittenTag := do
  match ← next? with
  | some (.tag handle suffix) =>
    skip
    WrittenTag.ofToken handles handle suffix
  | _ => return .none

/-- Takes a name and a tag, in either order. -/
def takeProperties (handles : Handles) : NodeReader Properties := do
  match ← takeAnchor with
  | some name => return ⟨some name, ← takeTag handles⟩
  | none =>
    let tag ← takeTag handles
    if tag == .none then return {} else return ⟨← takeAnchor, tag⟩

/-! ## 3. Nodes -/

/-- The tokens behind a dash that belong to no item, in a list that is not indented. -/
def behindBareDash : List Token := [.blockEntry, .key, .value, .blockEnd]

/-- The tokens behind a key or a colon that begin nothing, outside brackets. -/
def behindBlockKey : List Token := [.key, .value, .blockEnd]

mutual

/-- Reads a node.  Block collections count only where `block` says so, and lists that are not
indented only where `bare` does. -/
def readNode (handles : Handles) : Nat → Bool → Bool → NodeReader Node
  | 0, _, _ => refuse
  | fuel + 1, block, bare => do
    match ← next? with
    | some (.alias name) =>
      skip
      aliased name
    | _ => do
      let p ← takeProperties handles
      match p.anchor with
      | none => readContent handles fuel block bare p
      | some name =>
        openAnchor name
        let n ← readContent handles fuel block bare p
        closeAnchor name n
        return n

/-- Reads a node behind its name and its tag. -/
def readContent (handles : Handles) : Nat → Bool → Bool → Properties → NodeReader Node
  | 0, _, _, _ => refuse
  | fuel + 1, block, bare, p => do
    let list (items : List Node) : Node := .list (p.tag.collection .list) items
    let map (entries : List (Node × Node)) : Node := .map (p.tag.collection .map) entries
    match ← next?, block, bare with
    | some .blockEntry, _, true => list <$> inside (readBareItems handles fuel)
    | some (.scalar text plain), _, _ =>
      skip
      return .scalar (p.tag.scalar text.text plain) text
    | some .flowSequenceStart, _, _ =>
      skip
      list <$> inside (readFlowItems handles fuel true)
    | some .flowMappingStart, _, _ =>
      skip
      map <$> inside (readFlowEntries handles fuel true)
    | some .blockSequenceStart, true, _ =>
      skip
      list <$> inside (readBlockItems handles fuel)
    | some .blockMappingStart, true, _ =>
      skip
      map <$> inside (readBlockEntries handles fuel)
    | _, _, _ =>
      if p == {} then refuse else return .scalar (p.tag.scalar "" (p.tag == .none)) ⟨"", false⟩

/-- Reads the items of a list with dashes. -/
def readBlockItems (handles : Handles) : Nat → NodeReader (List Node)
  | 0 => refuse
  | fuel + 1 => do
    if ← accept .blockEntry then
      let n ←
        if ← nextIsOneOf [.blockEntry, .blockEnd] then pure Node.empty
        else readNode handles fuel true false
      return n :: (← readBlockItems handles fuel)
    else
      expect .blockEnd
      return []

/-- Reads the items of a list with dashes that is not indented. -/
def readBareItems (handles : Handles) : Nat → NodeReader (List Node)
  | 0 => refuse
  | fuel + 1 => do
    if ← accept .blockEntry then
      let n ←
        if ← nextIsOneOf behindBareDash then pure Node.empty else readNode handles fuel true false
      return n :: (← readBareItems handles fuel)
    else return []

/-- Reads the entries of a map outside brackets. -/
def readBlockEntries (handles : Handles) : Nat → NodeReader (List (Node × Node))
  | 0 => refuse
  | fuel + 1 => do
    if ← accept .key then
      let k ← readBlockSide handles fuel
      let v ← if ← accept .value then readBlockSide handles fuel else pure Node.empty
      return (k, v) :: (← readBlockEntries handles fuel)
    else
      expect .blockEnd
      return []

/-- Reads a key or a value of a map outside brackets. -/
def readBlockSide (handles : Handles) : Nat → NodeReader Node
  | 0 => refuse
  | fuel + 1 => do
    if ← nextIsOneOf behindBlockKey then return Node.empty else readNode handles fuel true true

/-- Reads the items of a list between brackets; `first` tells that there is none yet. -/
def readFlowItems (handles : Handles) : Nat → Bool → NodeReader (List Node)
  | 0, _ => refuse
  | fuel + 1, first => do
    if ← accept .flowSequenceEnd then return []
    else
      unless first do expect .flowEntry
      if ← accept .flowSequenceEnd then return []
      else
        let n ←
          if ← accept .key then
            (fun e => Node.map .map [e]) <$> readFlowEntry handles fuel .flowSequenceEnd
          else readNode handles fuel false false
        return n :: (← readFlowItems handles fuel false)

/-- Reads the entries of a map between brackets; `first` tells that there is none yet. -/
def readFlowEntries (handles : Handles) : Nat → Bool → NodeReader (List (Node × Node))
  | 0, _ => refuse
  | fuel + 1, first => do
    if ← accept .flowMappingEnd then return []
    else
      unless first do expect .flowEntry
      if ← accept .flowMappingEnd then return []
      else
        let e ←
          if ← accept .key then readFlowEntry handles fuel .flowMappingEnd
          else (·, Node.empty) <$> readNode handles fuel false false
        return e :: (← readFlowEntries handles fuel false)

/-- Reads a key and its value between brackets that `close` closes. -/
def readFlowEntry (handles : Handles) : Nat → Token → NodeReader (Node × Node)
  | 0, _ => refuse
  | fuel + 1, close => do
    let k ←
      if ← nextIsOneOf [.value, .flowEntry, close] then pure Node.empty
      else readNode handles fuel false false
    let v ←
      if ← accept .value then
        if ← nextIsOneOf [.flowEntry, close] then pure Node.empty
        else readNode handles fuel false false
      else pure Node.empty
    return (k, v)

end

/-! ## 4. Documents -/

/-- Takes the lines with percent signs; `versioned` tells whether one gave the version. -/
def readDirectives (versioned : Bool) (handles : Handles) :
    List Token → Except Fault (Handles × List Token)
  | .directive d :: rest =>
    match d with
    | .version major _ =>
      if versioned || major != 1 then .error .malformed else readDirectives true handles rest
    | .tag handle start =>
      if (handles.lookup handle).isSome then .error .malformed
      else readDirectives versioned (handles ++ [(handle, start)]) rest
    | .other => readDirectives versioned handles rest
  | rest => .ok (handles, rest)

/-- Nothing stands behind the mark of a document. -/
def isEmptyDocument : List Token → Bool
  | [] => true
  | .directive _ :: _ => true
  | .documentStart :: _ => true
  | .documentEnd :: _ => true
  | _ => false

mutual

/-- Replaces the names inside a node by the nodes that they stand for. -/
def Node.replaceNames (anchors : List (String × Option Node)) : Node → Node
  | .scalar tag text => .scalar tag text
  | .list tag items => .list tag (replaceNamesIn anchors items)
  | .map tag entries => .map tag (replaceNamesOf anchors entries)
  | .within name => ((anchors.lookup name).getD none).getD (.within name)

/-- Replaces the names inside the items of a list. -/
def replaceNamesIn (anchors : List (String × Option Node)) : List Node → List Node
  | [] => []
  | n :: rest => n.replaceNames anchors :: replaceNamesIn anchors rest

/-- Replaces the names inside the entries of a map. -/
def replaceNamesOf (anchors : List (String × Option Node)) :
    List (Node × Node) → List (Node × Node)
  | [] => []
  | (k, v) :: rest =>
    (k.replaceNames anchors, v.replaceNames anchors) :: replaceNamesOf anchors rest

end

/-- How many times names are replaced. -/
def spreads : Nat := 3

/-- Reads a node behind which only ends of documents may stand. -/
def readWhole (handles : Handles) (ts : List Token) : Except Fault Node :=
  match (readNode handles (4 * ts.length + 8) true false).run { tokens := ts } with
  | .error f => .error f
  | .ok (n, s) =>
    if s.tokens.all (· == .documentEnd) then
      .ok (spreads.repeat (Node.replaceNames s.anchors) n)
    else .error .malformed

/-- Reads a document behind its mark. -/
def readDocument (handles : Handles) (ts : List Token) : Except Fault Node :=
  if isEmptyDocument ts then
    if ts.all (· == .documentEnd) then .ok Node.empty else .error .malformed
  else readWhole handles ts

/-- The document that tokens form. -/
def Node.ofTokens (ts : List Token) : Except Fault Node :=
  match ts with
  | [] => .ok Node.empty
  | .directive _ :: _ | .documentStart :: _ => do
    let (handles, rest) ← readDirectives false [] ts
    match rest with
    | .documentStart :: rest => readDocument (handles ++ defaultHandles) rest
    | _ => .error .malformed
  | _ => readWhole defaultHandles ts

/-- A single scalar is a document. -/
theorem Node.ofTokens_scalar (text : Spelling) (plain : Bool) :
    Node.ofTokens [.scalar text plain]
      = .ok (.scalar (WrittenTag.scalar .none text.text plain) text) := by
  rfl

end SchemaTypes.Yaml
