/-
# The files of the host

A `Disk` is a value.  This module joins it to the files that are really there: `observe` reads
what stands at the places of a tree, and `store` writes where two trees differ.  Nothing is
decided here; what a program does to its files it does to the disk in between.

* `Entry.graft` puts an entry at a location and makes the directories above it
  (`Entry.at?_graft`).
-/
import SchemaTypes.Files.Disk

namespace SchemaTypes

/-! ## 1. Trees of few entries -/

/-- The tree with an entry at a location; a file that is in the way gives place to a directory. -/
def Entry.graft (new : Entry) : Location → Entry → Entry
  | [], _ => new
  | name :: rest, .directory entries =>
    let inner := (entries.lookup name).getD (.directory [])
    .directory (Dictionary.put name (graft new rest inner) entries)
  | name :: rest, .file _ => .directory [(name, graft new rest (.directory []))]

/-- A grafted entry is at its location. -/
theorem Entry.at?_graft (new : Entry) (l : Location) (e : Entry) :
    (Entry.graft new l e).at? l = some new := by
  induction l generalizing e with
  | nil => simp [Entry.graft, Entry.at?]
  | cons name rest ih =>
    cases e with
    | file bytes => simp [Entry.graft, Entry.at?, ih]
    | directory entries =>
      simp [Entry.graft, Entry.at?, Dictionary.lookup_put_self, ih]

namespace Host

/-- The path of a location. -/
def pathOf (l : Location) : String := (Pathname.mk "/" l).text

/-! ## 2. Reading -/

/-- What stands at a location, with nothing in it if it is a directory. -/
def peek (l : Location) : IO (Option Entry) := do
  match ← (IO.FS.realPath (pathOf l)).toBaseIO with
  | .error _ => return none
  | .ok p =>
    if ← p.isDir then return some (.directory [])
    else return some (.file (← IO.FS.readBinFile p))

/-- What stands at a location and, if it is a directory, directly in it. -/
def peekInside (l : Location) : IO (Option Entry) := do
  match ← peek l with
  | some (.directory _) =>
    let p ← IO.FS.realPath (pathOf l)
    let names := (← p.readDir).toList.map (·.fileName)
    let inside ← names.filterMapM fun name => do
      return (← peek (l ++ [name])).map (name, ·)
    return some (.directory inside)
  | found => return found

mutual

/-- What stands at the location of an entry and, for a directory, at the places of its entries. -/
def observe (l : Location) : Entry → IO (Option Entry)
  | .file _ => peek l
  | .directory entries => do
    match ← peek l with
    | some (.directory _) => return some (.directory (← observeAll l entries))
    | found => return found

/-- What stands at the places of entries of the directory at a location. -/
def observeAll (l : Location) : List (String × Entry) → IO (List (String × Entry))
  | [] => return []
  | (name, e) :: rest => do
    let found ← observe (l ++ [name]) e
    let others ← observeAll l rest
    return (found.map (name, ·)).toList ++ others

end

/-! ## 3. Writing -/

/-- Writes a file beside its place and moves it there. -/
def replace (l : Location) (bytes : ByteArray) : IO Unit := do
  let beside := pathOf (l.dropLast ++ [FileAction.temporaryName (l.getLastD "") 0])
  IO.FS.writeBinFile beside bytes
  IO.FS.rename beside (pathOf l)

mutual

/-- Writes an entry at a location where `old` stands. -/
def store (l : Location) (old : Option Entry) : Entry → IO Unit
  | .file bytes =>
    match old with
    | some (.file before) => if before.data == bytes.data then pure () else replace l bytes
    | _ => replace l bytes
  | .directory entries => do
    if !old.any Entry.isDirectory then IO.FS.createDir (pathOf l)
    storeAll l old entries

/-- Writes the entries of the directory at a location where `old` stands. -/
def storeAll (l : Location) (old : Option Entry) : List (String × Entry) → IO Unit
  | [] => pure ()
  | (name, e) :: rest => do
    store (l ++ [name]) (old.bind (Entry.at? [name])) e
    storeAll l old rest

end

end Host

end SchemaTypes
