/-
# Loading a snapshot

Loading only reads (`load_reads`): it answers or fails, and leaves the disk as it is.
-/
import SchemaTypes.Proofs.Files.Writing
import SchemaTypes.Reading.SnapshotFile

namespace SchemaTypes

namespace FileAction

/-- The action leaves the disk as it is. -/
def Reads (x : FileAction α) : Prop := ∀ d, Meets x d (fun _ d' => d' = d) fun _ d' => d' = d

theorem reads_pure (a : α) : Reads (pure a : FileAction α) := fun _ => meets_pure rfl

theorem reads_throw (f : Fault) : Reads (throw f : FileAction α) := fun _ => meets_throw rfl

theorem reads_ofLookup (p : Pathname) (look : Disk → Except FaultCause α) :
    Reads (ofLookup p look) := fun _ => meets_ofLookup (fun _ _ => rfl) fun _ _ => rfl

theorem Reads.bind {x : FileAction α} {next : α → FileAction β} (hx : Reads x)
    (hnext : ∀ a, Reads (next a)) : Reads (x >>= next) := by
  intro d
  refine (hx d).bind (fun a d' _ h => ?_) fun _ _ _ h => h
  subst h
  exact hnext a d'

theorem Reads.attempt {x : FileAction α} (hx : Reads x) : Reads (attempt x) := by
  intro d
  refine ((hx d).attempt fun _ d' => d' = d).mono (fun r d' h => ?_) fun _ _ h => h
  cases r <;> exact h

/-- Items that an action picks out. -/
theorem Reads.filterM {pick : α → FileAction Bool} (h : ∀ a, Reads (pick a)) (l : List α) :
    Reads (l.filterM pick) := by
  have haux : ∀ l acc : List α, Reads (l.filterAuxM pick acc) := by
    intro l
    induction l with
    | nil => exact fun acc => reads_pure acc
    | cons a rest ih => exact fun acc => (h a).bind fun _ => ih _
  exact (haux l []).bind fun _ => reads_pure _

theorem reads_ask (p : Pathname) (q : Entry → Bool) : Reads (ask p q) := reads_ofLookup p _

end FileAction

namespace SnapshotFile

open FileAction (Reads reads_ask reads_ofLookup reads_pure reads_throw)

theorem readFile_reads (p : Pathname) : Reads (readFile p) := by
  refine (reads_ofLookup p _).attempt.bind fun r => ?_
  cases r with
  | ok bytes => exact reads_pure _
  | error f =>
    show Reads (if f.cause.isSystem then _ else _)
    split
    · exact reads_pure _
    · exact reads_throw f

theorem readFiles_reads (ps : List Pathname) : Reads (readFiles ps) := by
  induction ps with
  | nil => exact reads_pure _
  | cons p rest ih =>
    refine (readFile_reads p).bind fun r => ?_
    cases r with
    | ok es => exact ih.bind fun _ => reads_pure _
    | error f => exact reads_pure _

theorem schemaFiles_reads (p : Pathname) : Reads (schemaFiles p) :=
  (reads_ofLookup p _).bind fun _ =>
    Reads.filterM (fun child => (reads_ask child _).bind fun _ => reads_pure _) _

theorem readDirectory_reads (p : Pathname) : Reads (readDirectory p) :=
  (schemaFiles_reads p).bind fun files => (readFiles_reads files).bind fun _ => reads_pure _

/-- **Loading only reads.** -/
theorem load_reads (p : Pathname) : Reads (load p) := by
  refine (reads_ask p _).bind fun there => ?_
  cases there with
  | false => exact reads_pure _
  | true =>
    refine (reads_ask p _).bind fun directory => ?_
    cases directory with
    | true => exact readDirectory_reads p
    | false => exact readFile_reads p

end SnapshotFile

end SchemaTypes
