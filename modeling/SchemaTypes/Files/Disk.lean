/-
# Files and directories

A disk is a tree of directories and files together with the current directory.  Operations on it
are actions that fail with a fault and keep what they did before they failed (`FileAction`).

* `Entry.at?` looks up a location and `Entry.set` changes one; all other operations go through
  them.
* `Disk.locate` follows a path: every name but the last has to be a directory, and a double dot
  leads to the directory above.
* `exists`, `readBytes`, `listNames`, `makeDirectories`, `writeFile`: what the program does.

A file is written whole or not at all: either in place, or beside its place under a name that is
free and then moved there.  When the move fails, what was written beside the place is removed.
-/
import SchemaTypes.Data.Dictionary
import SchemaTypes.Files.Fault
import SchemaTypes.Files.Pathname

namespace SchemaTypes

/-- A file or a directory. -/
inductive Entry where
  | file (bytes : ByteArray)
  | directory (entries : List (String × Entry))

instance : Inhabited Entry := ⟨.directory []⟩

/-- The names that lead from the root to an entry. -/
abbrev Location := List String

/-! ## 1. Entries -/

namespace Entry

/-- The entry is a directory. -/
def isDirectory : Entry → Bool
  | .directory _ => true
  | .file _ => false

/-- The entry at a location. -/
def at? : Location → Entry → Option Entry
  | [], e => some e
  | name :: rest, .directory entries => (entries.lookup name).bind (at? rest)
  | _ :: _, .file _ => none

/-- The entry with a new one, or with none, at a location whose directory exists; otherwise nothing
changes. -/
def set (new : Option Entry) : Location → Entry → Entry
  | [], e => new.getD e
  | [name], .directory entries => .directory (Dictionary.assign name new entries)
  | name :: next :: rest, .directory entries =>
    match entries.lookup name with
    | some e => .directory (Dictionary.put name (set new (next :: rest) e) entries)
    | none => .directory entries
  | _ :: _, .file bytes => .file bytes

/-- A location in two parts is looked up part by part. -/
theorem at?_append (p q : Location) (e : Entry) : e.at? (p ++ q) = (e.at? p).bind (at? q) := by
  induction p generalizing e with
  | nil => simp [at?]
  | cons name rest ih =>
    cases e with
    | file bytes => simp [at?]
    | directory entries =>
      simp only [List.cons_append, at?]
      cases entries.lookup name with
      | none => rfl
      | some inner => exact ih inner

end Entry

/-! ## 2. Following a path -/

/-- A tree of files and the current directory. -/
structure Disk where
  root : Entry
  directory : Location

instance : Inhabited Disk := ⟨⟨.directory [], []⟩⟩

/-- The most bytes that a name may have. -/
def longestName : Nat := 255

namespace Disk

/-- Follows names from a location. -/
def follow (root : Entry) (here : Location) : List String → Except FaultCause Location
  | [] => .ok here
  | name :: rest =>
    match root.at? here with
    | some (.directory entries) =>
      if name = ".." then follow root here.dropLast rest
      else if longestName < name.utf8ByteSize then .error .nameTooLong
      else if (entries.lookup name).isSome then follow root (here ++ [name]) rest
      else .error .missing
    | _ => .error .notDirectory

/-- Where a path begins. -/
def start (d : Disk) (p : Pathname) : Location := if p.isAbsolute then [] else d.directory

/-- A name holds a null byte. -/
def hasNull (names : List String) : Bool := names.any (·.toList.contains '\x00')

/-- The location of an existing entry. -/
def locate (d : Disk) (p : Pathname) : Except FaultCause Location :=
  if hasNull p.names then .error .nullByte else follow d.root (d.start p) p.names

/-- The entry at a path. -/
def entry (d : Disk) (p : Pathname) : Except FaultCause Entry :=
  match d.locate p with
  | .ok l =>
    match d.root.at? l with
    | some e => .ok e
    | none => .error .missing
  | .error c => .error c

/-- The names in the directory at a location, none if there is no directory. -/
def namesAt (d : Disk) (l : Location) : List String :=
  match d.root.at? l with
  | some (.directory entries) => Dictionary.keys entries
  | _ => []

/-- Sets the entry at a location. -/
def put (d : Disk) (l : Location) (e : Entry) : Disk :=
  { d with root := Entry.set (some e) l d.root }

/-- Removes the entry at a location. -/
def remove (d : Disk) (l : Location) : Disk := { d with root := Entry.set none l d.root }

/-- The location at which a path makes a new entry or replaces one: its directory exists, and its
last name is a name that can be given. -/
def place (d : Disk) (p : Pathname) (unnamed : FaultCause) : Except FaultCause Location :=
  if hasNull p.names then .error .nullByte
  else
    match follow d.root (d.start p) p.parent.names with
    | .error c => .error c
    | .ok l =>
      if !((d.root.at? l).any Entry.isDirectory) then .error .notDirectory
      else if p.name = "" || p.name = ".." then .error unnamed
      else if longestName < p.name.utf8ByteSize then .error .nameTooLong
      else .ok (l ++ [p.name])

end Disk

/-! ## 3. Actions -/

/-- An operation that may fail and keeps what it did before. -/
abbrev FileAction := EStateM Fault Disk

namespace FileAction

/-- What an action gives, or the fault with which it fails. -/
def attempt (x : FileAction α) : FileAction (Except Fault α) := fun d =>
  match x d with
  | .ok a d => .ok (.ok a) d
  | .error f d => .ok (.error f) d

/-- The answer of a look-up. -/
def ofLookup (p : Pathname) (f : Disk → Except FaultCause α) : FileAction α := fun d =>
  match f d with
  | .ok a => .ok a d
  | .error c => .error { cause := c, path := p.text } d

/-- What a question about an entry answers; where there is nothing, the answer is no. -/
def ask (p : Pathname) (f : Entry → Bool) : FileAction Bool :=
  ofLookup p fun d =>
    match d.entry p with
    | .ok e => .ok (f e)
    | .error c => if c.isAbsence then .ok false else .error c

/-- There is a file or a directory. -/
def exists? (p : Pathname) : FileAction Bool := ask p fun _ => true

/-- There is a directory. -/
def isDirectory (p : Pathname) : FileAction Bool := ask p Entry.isDirectory

/-- There is a file. -/
def isFile (p : Pathname) : FileAction Bool := ask p fun e => !e.isDirectory

/-- The bytes of a file. -/
def readBytes (p : Pathname) : FileAction ByteArray :=
  ofLookup p fun d =>
    match d.entry p with
    | .ok (.file bytes) => .ok bytes
    | .ok (.directory _) => .error .isDirectory
    | .error c => .error c

/-- The names in a directory. -/
def listNames (p : Pathname) : FileAction (List String) :=
  ofLookup p fun d =>
    match d.entry p with
    | .ok (.directory entries) => .ok (Dictionary.keys entries)
    | .ok (.file _) => .error .notDirectory
    | .error c => .error c

/-- The absolute form of a path. -/
def resolve (p : Pathname) : FileAction Pathname :=
  ofLookup p fun d =>
    if Disk.hasNull p.names then .error .nullByte else .ok (p.resolve d.directory)

/-- Sets the entry at a location. -/
def put (l : Location) (e : Entry) : FileAction Unit := fun d => .ok () (d.put l e)

/-- Removes the entry at a location. -/
def remove (l : Location) : FileAction Unit := fun d => .ok () (d.remove l)

/-- Makes one directory. -/
def makeDirectory (p : Pathname) : FileAction Unit := do
  let l ← ofLookup p fun d =>
    match d.place p .exists with
    | .ok l => if (d.root.at? l).isSome then .error .exists else .ok l
    | .error c => .error c
  put l (.directory [])

/-- Makes one directory unless it exists. -/
def ensureDirectory (p : Pathname) : FileAction Unit := do
  match ← attempt (makeDirectory p) with
  | .ok _ => return ()
  | .error f => do
    if f.cause = .missing || !f.cause.isSystem then throw f
    unless ← isDirectory p do throw f

/-- Makes a directory and those above it; `names` are the names of its path, the last one
first. -/
def makeDirectoriesFrom (root : String) : List String → FileAction Unit
  | [] => ensureDirectory ⟨root, []⟩
  | name :: above => do
    let p : Pathname := ⟨root, (name :: above).reverse⟩
    match ← attempt (ensureDirectory p) with
    | .ok _ => return ()
    | .error f =>
      if f.cause = .missing then do
        makeDirectoriesFrom root above
        ensureDirectory p
      else throw f

/-- Makes a directory and those above it, unless they exist. -/
def makeDirectories (p : Pathname) : FileAction Unit := makeDirectoriesFrom p.root p.names.reverse

/-! ## 4. Writing -/

/-- The names, one for each number, under which a file is written before it is moved to its
place. -/
def temporaryName (name : String) (number : Nat) : String :=
  let digits := toString number
  "." ++ name ++ "." ++ String.ofList (List.replicate (8 - digits.length) '0') ++ digits ++ ".tmp"

/-- The path beside another one with such a name. -/
def temporaryPath (p : Pathname) (number : Nat) : Pathname :=
  ⟨p.root, p.parent.names ++ [temporaryName p.name number]⟩

/-- The first number from one on whose name is not taken.  So many numbers are tried; one more is
given when all of them are taken. -/
def freeNumber (name : String) (taken : List String) : (tries number : Nat) → Nat
  | 0, number => number
  | tries + 1, number =>
    if taken.contains (temporaryName name number) then freeNumber name taken tries (number + 1)
    else number

/-- Writes a file beside a place under a name that is free, and gives the path and the location.
The names are equally long, so the first of them tells whether the system takes one. -/
def writeBeside (p : Pathname) (bytes : ByteArray) : FileAction (Pathname × Location) := do
  let first ← ofLookup (temporaryPath p 0) fun d => d.place (temporaryPath p 0) .busy
  let directory := first.dropLast
  let taken := (← get).namesAt directory
  let number := freeNumber p.name taken taken.length 0
  let l := directory ++ [temporaryName p.name number]
  put l (.file bytes)
  return (temporaryPath p number, l)

/-- Moves what was written beside a place to the place. -/
def moveBeside (t : Pathname) (l : Location) (p : Pathname) (bytes : ByteArray) :
    FileAction Unit := fun d =>
  match d.place p .busy with
  | .ok target =>
    if (d.root.at? target).any Entry.isDirectory then
      .error ⟨.isDirectory, t.text, some p.text⟩ d
    else .ok () ((d.put target (.file bytes)).remove l)
  | .error c => .error ⟨c, t.text, some p.text⟩ d

/-- Writes a file beside its place and moves it there. -/
def replaceFile (p : Pathname) (bytes : ByteArray) : FileAction Unit := do
  let (t, l) ← writeBeside p bytes
  match ← attempt (moveBeside t l p bytes) with
  | .ok _ => return ()
  | .error f => do
    remove l
    throw f

/-- Writes a file in place. -/
def overwriteFile (p : Pathname) (bytes : ByteArray) : FileAction Unit := do
  let l ← ofLookup p fun d =>
    match d.place p .isDirectory with
    | .ok l => if (d.root.at? l).any Entry.isDirectory then .error .isDirectory else .ok l
    | .error c => .error c
  put l (.file bytes)

/-- Writes a text to a file, whose directory is made if need be, and gives the number of bytes. -/
def writeFile (p : Pathname) (content : String) (atomic : Bool) : FileAction Nat := do
  makeDirectories p.parent
  if atomic then replaceFile p content.toUTF8 else overwriteFile p content.toUTF8
  return content.utf8ByteSize

end FileAction

end SchemaTypes
