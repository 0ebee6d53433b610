/-
# The command

The program on the files of the host.  A first run on the snapshot alone, whose answer is not
used, tells which places the program would write to; what stands there is added to the disk, the
run on that disk gives the answer, and what it changed is written back.
-/
import SchemaTypes.CommandLine.Program
import SchemaTypes.Files.Host
import Std.Time.Format

namespace SchemaTypes.CommandLine

/-- The location of the snapshot that arguments name. -/
def snapshotLocation? (here : Location) (args : List String) : Option Location :=
  match Options.ofArguments args with
  | .ok o => some ((Pathname.ofText o.schema).resolve here).names
  | .error _ => none

/-- The tree that holds a directory and what was found at another location. -/
def treeOf (here : Location) (found : Option (Location × Entry)) : Entry :=
  let tree := Entry.graft (.directory []) here (.directory [])
  match found with
  | some (l, e) => Entry.graft e l tree
  | none => tree

/-- The tree after a run, however it ends. -/
def treeAfter (args : List String) (d : Disk) : Entry :=
  match run args "" d with
  | .ok _ d => d.root
  | .error _ d => d.root

/-- What the host has at the location of the snapshot. -/
def findSnapshot (here : Location) (args : List String) : IO (Option (Location × Entry)) := do
  match snapshotLocation? here args with
  | some l => return (← Host.peekInside l).map (l, ·)
  | none => return none

/-- The moment of the run. -/
def timestamp : IO String := do
  try return (← Std.Time.DateTime.now).format "uuuu-MM-dd'T'HH:mm:ssZ"
  catch _ => return ""

/-- Says what the program says, and gives its number. -/
def say (o : Outcome) : IO UInt32 := do
  IO.print o.output
  o.messages.forM IO.eprintln
  return UInt32.ofNat o.code

/-- The number with which the program ends when there is no answer. -/
def crashCode : UInt32 := 1

/-- Runs on a disk and writes back what the run changed. -/
def runOn (args : List String) (d : Disk) : IO UInt32 := do
  match run args (← timestamp) d with
  | .ok o after =>
    Host.store [] (some d.root) after.root
    say o
  | .error c after =>
    Host.store [] (some d.root) after.root
    IO.eprintln ("typegen: error: " ++ c.message)
    return crashCode

end SchemaTypes.CommandLine

open SchemaTypes SchemaTypes.CommandLine in
/-- Generates TypeScript types from schemas as the arguments say. -/
def main (args : List String) : IO UInt32 := do
  let here := (Pathname.ofText (← IO.currentDir).toString).names
  let first : Disk := ⟨treeOf here (← findSnapshot here args), here⟩
  let found ← Host.observe [] (treeAfter args first)
  let tree := treeOf here none
  runOn args ⟨found.getD tree, here⟩
