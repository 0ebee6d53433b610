/-
# What writing a file does to the disk

Specifications of the operations that write, from the single directory up to `writeFile`, in terms
of what stands where before and after.

* `writeFile_meets`: a write that succeeds changes its target and nothing else, apart from
  directories that it makes, and the path then reads what was written; a write that fails leaves
  every file as it was, and whatever was written beside the target is gone again.
* A fault is one of the system unless the path holds a null byte (`Fault.ReportsNull`).  This is
  the only kind of fault that an export does not catch.
-/
import SchemaTypes.Proofs.Fallible
import SchemaTypes.Proofs.Files.Walk

namespace SchemaTypes

/-! ## 1. Both ways in which an action can end -/

namespace FileAction

/-- An action from a disk: it succeeds, and `good` holds of what it gives and of the disk that it
leaves, or it fails, and `bad` holds of its fault and of that disk. -/
inductive Meets (x : FileAction α) (d : Disk) (good : α → Disk → Prop)
    (bad : Fault → Disk → Prop) : Prop
  | ok {a : α} {d' : Disk} (ends : x d = .ok a d') (holds : good a d')
  | error {f : Fault} {d' : Disk} (ends : x d = .error f d') (holds : bad f d')

section Rules

variable {x : FileAction α} {d : Disk} {good good' : α → Disk → Prop}
  {bad bad' : Fault → Disk → Prop}

theorem Meets.mono (h : Meets x d good bad) (hg : ∀ a d', good a d' → good' a d')
    (hb : ∀ f d', bad f d' → bad' f d') : Meets x d good' bad' := by
  rcases h with ⟨hx, h⟩ | ⟨hx, h⟩
  · exact .ok hx (hg _ _ h)
  · exact .error hx (hb _ _ h)

theorem Meets.of_ok (h : Meets x d good bad) {a : α} {d' : Disk} (hx : x d = .ok a d') :
    good a d' := by
  rcases h with ⟨hx', h⟩ | ⟨hx', h⟩
  · rw [hx] at hx'
    cases hx'
    exact h
  · exact nomatch hx.symm.trans hx'

theorem Meets.of_error (h : Meets x d good bad) {f : Fault} {d' : Disk}
    (hx : x d = .error f d') : bad f d' := by
  rcases h with ⟨hx', h⟩ | ⟨hx', h⟩
  · exact nomatch hx.symm.trans hx'
  · rw [hx] at hx'
    cases hx'
    exact h

theorem meets_pure {a : α} (h : good a d) : Meets (pure a) d good bad := .ok rfl h

theorem meets_throw {f : Fault} (h : bad f d) : Meets (throw f) d good bad := .error rfl h

/-- One action after another. -/
theorem Meets.bind {next : α → FileAction β} {good' : β → Disk → Prop} (h : Meets x d good bad')
    (hg : ∀ a d', x d = .ok a d' → good a d' → Meets (next a) d' good' bad)
    (hb : ∀ f d', x d = .error f d' → bad' f d' → bad f d') :
    Meets (x >>= next) d good' bad := by
  rcases h with ⟨hx, h⟩ | ⟨hx, h⟩
  · rcases hg _ _ hx h with ⟨hn, h'⟩ | ⟨hn, h'⟩
    · exact .ok ((bind_of_ok hx).trans hn) h'
    · exact .error ((bind_of_ok hx).trans hn) h'
  · exact .error (bind_of_error hx) (hb _ _ hx h)

/-- An attempt turns a fault into an answer. -/
theorem Meets.attempt (h : Meets x d good bad) (no : Fault → Disk → Prop) :
    Meets (attempt x) d
      (fun r d' => match r with | .ok a => good a d' | .error f => bad f d') no := by
  rcases h with ⟨hx, h⟩ | ⟨hx, h⟩
  · exact .ok (by rw [FileAction.attempt, hx]) h
  · exact .ok (by rw [FileAction.attempt, hx]) h

/-- A look-up leaves the disk as it is. -/
theorem meets_ofLookup {p : Pathname} {look : Disk → Except FaultCause α}
    (hg : ∀ a, look d = .ok a → good a d)
    (hb : ∀ c, look d = .error c → bad { cause := c, path := p.text } d) :
    Meets (ofLookup p look) d good bad := by
  cases hl : look d with
  | ok a => exact .ok (by rw [ofLookup, hl]) (hg a hl)
  | error c => exact .error (by rw [ofLookup, hl]) (hb c hl)

theorem meets_put {l : Location} {e : Entry} {good : Unit → Disk → Prop}
    (h : good () (d.put l e)) : Meets (put l e) d good bad := .ok rfl h

end Rules

end FileAction

/-! ## 2. Faults -/

/-- A fault is one of the system unless a name of the path holds a null byte. -/
def Fault.ReportsNull (f : Fault) (p : Pathname) : Prop :=
  f.cause.isSystem = !Disk.hasNull p.names

theorem Fault.ReportsNull.hasNull_eq_false {f : Fault} {p : Pathname} (h : f.ReportsNull p)
    (hs : f.cause.isSystem = true) : Disk.hasNull p.names = false := by
  rw [Fault.ReportsNull, hs] at h
  simpa using h.symm

theorem FaultCause.isSystem_of_not_isAbsence {c : FaultCause} (h : c.isAbsence = false) :
    c.isSystem = true := by
  cases c <;> first | rfl | exact nomatch h

namespace Disk

/-- The disk changes by new directories only. -/
abbrev Grows : Disk → Disk → Prop := Edit fun _ => False

theorem hasNull_append (a b : List String) : hasNull (a ++ b) = (hasNull a || hasNull b) :=
  List.any_append

/-- Faults of making an entry. -/
theorem reportsNull_of_place {d : Disk} {p : Pathname} {u c : FaultCause} (text : String)
    (target : Option String) (hu : u.isSystem = true) (h : d.place p u = .error c) :
    Fault.ReportsNull ⟨c, text, target⟩ p := by
  cases hn : hasNull p.names with
  | true =>
    rw [place_of_hasNull u hn] at h
    rw [Fault.ReportsNull, hn, ← Except.error.inj h]
    rfl
  | false =>
    rw [Fault.ReportsNull, hn]
    exact isSystem_of_place hn hu h

theorem hasNull_of_place {d : Disk} {p : Pathname} {u : FaultCause} {l : Location}
    (h : d.place p u = .ok l) : hasNull p.names = false :=
  (place_eq_ok_iff.1 h).1

end Disk

namespace FileAction

open Disk (hasNull Edit Grows)

variable {d : Disk}

/-! ## 3. Making directories -/

/-- A question about an entry changes nothing; it fails only where the look-up does, and then not
for want of an entry. -/
theorem ask_meets (p : Pathname) (q : Entry → Bool) :
    Meets (ask p q) d
      (fun b d' => d' = d ∧ (b = true ↔ ∃ e, d.entry p = .ok e ∧ q e = true) ∧
        ∀ c, d.entry p = .error c → c.isAbsence = true)
      (fun f d' => d' = d ∧ f.cause.isAbsence = false ∧ d.entry p = .error f.cause) := by
  refine meets_ofLookup (fun b h => ⟨rfl, ?_⟩) fun c h => ⟨rfl, ?_⟩
  · cases he : d.entry p with
    | ok e =>
      simp only [he, Except.ok.injEq] at h
      simp [h]
    | error c =>
      simp only [he] at h
      split at h
      · rename_i ha
        simp [← Except.ok.inj h, ha]
      · exact nomatch h
  · cases he : d.entry p with
    | ok e => simp [he] at h
    | error c' =>
      simp only [he] at h
      split at h
      · exact nomatch h
      · rename_i ha
        obtain rfl := Except.error.inj h
        exact ⟨Bool.eq_false_iff.2 ha, rfl⟩

/-- A look-up of a place that must not be taken in some way. -/
theorem meets_place {p : Pathname} {unnamed fault : FaultCause} {taken : Disk → Location → Bool}
    (hunnamed : unnamed.isSystem = true) (hfault : fault.isSystem = true) :
    Meets (ofLookup p fun d =>
        (d.place p unnamed).bind fun l => if taken d l then .error fault else .ok l) d
      (fun l d' => d' = d ∧ d.place p unnamed = .ok l ∧ taken d l = false)
      (fun f d' => d' = d ∧ f.ReportsNull p ∧
        ∀ l, d.place p unnamed = .ok l → taken d l = true) := by
  refine meets_ofLookup (fun l h => ⟨rfl, ?_⟩) fun c h => ⟨rfl, ?_⟩
  · cases hp : d.place p unnamed with
    | error c =>
      rw [hp] at h
      cases h
    | ok l' =>
      rw [hp, Except.bind] at h
      cases ht : taken d l' with
      | true =>
        rw [ht, if_pos rfl] at h
        cases h
      | false =>
        rw [ht, if_neg Bool.false_ne_true] at h
        cases h
        exact ⟨rfl, ht⟩
  · cases hp : d.place p unnamed with
    | error c' =>
      rw [hp] at h
      cases h
      exact ⟨Disk.reportsNull_of_place _ _ hunnamed hp, fun _ h => nomatch h⟩
    | ok l =>
      rw [hp, Except.bind] at h
      cases ht : taken d l with
      | true =>
        rw [ht, if_pos rfl] at h
        cases h
        refine ⟨?_, fun _ hl => Except.ok.inj hl ▸ ht⟩
        rw [Fault.ReportsNull, Disk.hasNull_of_place hp, hfault]
        rfl
      | false =>
        rw [ht, if_neg Bool.false_ne_true] at h
        cases h

/-- Making a directory is a look-up of its place, and then putting it there. -/
theorem makeDirectory_eq (p : Pathname) :
    makeDirectory p = (ofLookup p fun d => (d.place p .exists).bind fun l =>
      if (d.root.at? l).isSome then .error .exists else .ok l) >>= (put · (.directory [])) := by
  unfold makeDirectory
  congr 2
  funext d
  cases d.place p .exists <;> rfl

/-- **One new directory**: where it is made nothing stood before. -/
theorem makeDirectory_meets (p : Pathname) :
    Meets (makeDirectory p) d (fun _ d' => Grows d d' ∧ hasNull p.names = false)
      (fun f d' => d' = d ∧ f.ReportsNull p) := by
  have hlook : Meets (ofLookup p fun d => (d.place p .exists).bind fun l =>
      if (d.root.at? l).isSome then .error .exists else .ok l) d
      (fun l d' => d' = d ∧ d.place p .exists = .ok l ∧ (d.root.at? l).isSome = false)
      (fun f d' => d' = d ∧ f.ReportsNull p) :=
    (meets_place rfl rfl).mono (fun _ _ h => h) fun _ _ h => ⟨h.1, h.2.1⟩
  rw [makeDirectory_eq]
  refine hlook.bind (fun l d' _ h => ?_) fun _ _ _ h => h
  obtain ⟨rfl, hp, hnone⟩ := h
  have hn : d'.standing l = .nothing := Standing.of_eq_nothing_iff.2 (by simpa using hnone)
  have hfree : d'.Free l := Disk.free_of_place hp (by rw [hn]; exact fun h => nomatch h)
  exact meets_put ⟨Edit.put_directory hfree hn, Disk.hasNull_of_place hp⟩

/-- A directory that is there already is as good as a new one. -/
theorem ensureDirectory_meets (p : Pathname) :
    Meets (ensureDirectory p) d (fun _ d' => Grows d d' ∧ hasNull p.names = false)
      (fun f d' => d' = d ∧ f.ReportsNull p) := by
  refine ((makeDirectory_meets p).attempt fun _ _ => False).bind (fun r d' _ h => ?_)
    fun _ _ _ h => h.elim
  cases r with
  | ok _ => exact meets_pure h
  | error f =>
    obtain ⟨rfl, hf⟩ := h
    by_cases hthrow : (f.cause = .missing || !f.cause.isSystem) = true
    · simp only [hthrow, if_true]
      have hstop : Meets (throw f : FileAction Unit) d' (fun _ _ => False)
          (fun f d'' => d'' = d' ∧ f.ReportsNull p) := meets_throw ⟨rfl, hf⟩
      exact hstop.bind (fun _ _ _ h => h.elim) fun _ _ _ h => h
    · simp only [hthrow]
      have hsystem : f.cause.isSystem = true := by
        cases hs : f.cause.isSystem with
        | true => rfl
        | false => exact absurd (by simp [hs]) hthrow
      have hnull : hasNull p.names = false := hf.hasNull_eq_false hsystem
      refine (ask_meets p Entry.isDirectory).bind (fun b d'' _ h => ?_) fun f' d'' _ h => ?_
      · obtain ⟨rfl, -⟩ := h
        cases b with
        | true => exact meets_pure ⟨.refl _ _, hnull⟩
        | false => exact meets_throw ⟨rfl, hf⟩
      · obtain ⟨rfl, ha, -⟩ := h
        exact ⟨rfl, by rw [Fault.ReportsNull, hnull, FaultCause.isSystem_of_not_isAbsence ha]; rfl⟩

/-- A missing directory is made after those above it; the induction is on the names, the last one
first. -/
theorem makeDirectoriesFrom_meets (root : String) (names : List String) :
    Meets (makeDirectoriesFrom root names) d
      (fun _ d' => Grows d d' ∧ hasNull names.reverse = false)
      (fun f d' => Grows d d' ∧ f.ReportsNull ⟨root, names.reverse⟩) := by
  induction names generalizing d with
  | nil =>
    exact (ensureDirectory_meets ⟨root, []⟩).mono (fun _ _ h => h)
      fun _ _ h => ⟨h.1 ▸ .refl _ _, h.2⟩
  | cons name above ih =>
    refine ((ensureDirectory_meets ⟨root, (name :: above).reverse⟩).attempt fun _ _ => False).bind
      (fun r d' _ h => ?_) fun _ _ _ h => h.elim
    cases r with
    | ok _ => exact meets_pure h
    | error f =>
      obtain ⟨rfl, hf⟩ := h
      by_cases hc : f.cause = .missing
      · simp only [hc, if_true]
        have hnull : hasNull (name :: above).reverse = false :=
          hf.hasNull_eq_false (by rw [hc]; rfl)
        have habove : hasNull above.reverse = false := by
          rw [List.reverse_cons, Disk.hasNull_append, Bool.or_eq_false_iff] at hnull
          exact hnull.1
        refine ih.bind (fun _ d'' _ h => ?_) fun f' d'' _ h => ⟨h.1, ?_⟩
        · exact (ensureDirectory_meets _).mono (fun _ _ h' => ⟨h.1.trans h'.1, h'.2⟩)
            fun _ _ h' => ⟨h'.1 ▸ h.1, h'.2⟩
        · have hf' := h.2
          rw [Fault.ReportsNull, habove] at hf'
          rw [Fault.ReportsNull, hnull, hf']
      · simp only [hc]
        exact meets_throw ⟨.refl _ _, hf⟩

/-- **Making directories** changes no file. -/
theorem makeDirectories_meets (p : Pathname) :
    Meets (makeDirectories p) d (fun _ d' => Grows d d' ∧ hasNull p.names = false)
      (fun f d' => Grows d d' ∧ f.ReportsNull p) := by
  have h := makeDirectoriesFrom_meets (d := d) p.root p.names.reverse
  rw [List.reverse_reverse] at h
  exact h

/-! ## 4. Temporary files -/

/-- A name of a temporary file is longer than that of the file. -/
theorem length_temporaryName (name : String) (number : Nat) :
    name.length + 4 < (temporaryName name number).length := by
  simp only [temporaryName, String.length_append]
  have : (".tmp" : String).length = 4 := rfl
  have : ("." : String).length = 1 := rfl
  omega

/-- A name of a temporary file is not the name of the file. -/
theorem temporaryName_ne (name : String) (number : Nat) : temporaryName name number ≠ name := by
  intro h
  have hlength := length_temporaryName name number
  rw [h] at hlength
  omega

/-- Different numbers make different names. -/
theorem temporaryName_injective (name : String) : Function.Injective (temporaryName name) := by
  intro m n h
  have hlist := congrArg String.toList h
  simp only [temporaryName, String.toList_append] at hlist
  have hdigits := List.append_cancel_right hlist
  simp only [List.append_assoc, List.append_cancel_left_eq] at hdigits
  have hvalue := congrArg (Nat.ofDigitChars 10 · 0) hdigits
  simpa [Nat.ofDigitChars_append] using hvalue

/-- It holds a null byte exactly if the name of the file does. -/
theorem hasNull_temporaryPath (p : Pathname) (number : Nat) :
    hasNull (temporaryPath p number).names = hasNull p.names := by
  have hdigits : '\x00' ∉ Nat.toDigits 10 number := fun h =>
    absurd (Nat.isDigit_of_mem_toDigits (by decide) (by decide) h) (by decide)
  have hname : (temporaryName p.name number).toList.contains '\x00'
      = p.name.toList.contains '\x00' := by
    simp [temporaryName, hdigits]
  have hlast : hasNull [temporaryName p.name number] = hasNull [p.name] := by
    simp only [hasNull, List.any_cons, List.any_nil, hname]
  rw [temporaryPath, Disk.hasNull_append, hlast, ← Disk.hasNull_append]
  rcases List.eq_nil_or_concat p.names with he | ⟨init, last, he⟩
  · simp [Pathname.name, Pathname.parent, he, hasNull]
  · simp [Pathname.name, Pathname.parent, he]

/-- If the number that a search gives is taken, then so are all that it has tried. -/
theorem mem_of_freeNumber_mem {name : String} {taken : List String} (tries number : Nat)
    (h : temporaryName name (freeNumber name taken tries number) ∈ taken) :
    ∀ i ≤ tries, temporaryName name (number + i) ∈ taken := by
  induction tries generalizing number with
  | zero =>
    intro i hi
    obtain rfl := Nat.le_zero.1 hi
    exact h
  | succ tries ih =>
    rw [freeNumber] at h
    split at h
    · rename_i hnumber
      rintro (_ | i) hi
      · simpa using hnumber
      · have hnext := ih (number + 1) h i (Nat.le_of_succ_le_succ hi)
        rwa [Nat.add_assoc, Nat.add_comm 1 i] at hnext
    · rename_i hnumber
      exact absurd (List.contains_iff_mem.2 h) hnumber

/-- **A free name is always found**: more names are tried than are taken. -/
theorem freeNumber_not_mem (name : String) (taken : List String) :
    temporaryName name (freeNumber name taken taken.length 0) ∉ taken := by
  intro h
  have hall := mem_of_freeNumber_mem _ _ h
  have hnodup : ((List.range (taken.length + 1)).map (temporaryName name)).Nodup :=
    List.nodup_range.map (temporaryName_injective name)
  have hsub : (List.range (taken.length + 1)).map (temporaryName name) ⊆ taken := by
    intro t ht
    obtain ⟨i, hi, rfl⟩ := List.mem_map.1 ht
    have htaken := hall i (Nat.le_of_lt_succ (List.mem_range.1 hi))
    rwa [Nat.zero_add] at htaken
  have hlength := (List.subperm_of_subset hnodup hsub).length_le
  rw [List.length_map, List.length_range] at hlength
  exact Nat.not_succ_le_self _ hlength

/-- Under a name that a directory does not have stands nothing. -/
theorem standing_of_not_mem_namesAt {l : Location} {name : String} (h : name ∉ d.namesAt l) :
    d.standing (l ++ [name]) = .nothing := by
  unfold Disk.namesAt at h
  refine Standing.of_eq_nothing_iff.2 ?_
  rw [Entry.at?_append]
  cases he : d.root.at? l with
  | none => rfl
  | some e =>
    cases e with
    | file bytes => rfl
    | directory entries =>
      rw [he] at h
      have hlookup : entries.lookup name = none := by
        refine List.lookup_eq_none_iff.2 fun entry hentry => ?_
        have hne : name ≠ entry.1 := fun hn => h (hn ▸ List.mem_map.2 ⟨entry, hentry, rfl⟩)
        simpa using hne
      show (entries.lookup name).bind (Entry.at? []) = none
      rw [hlookup]
      rfl

/-- What there has to be for the first temporary file beside a path. -/
theorem place_temporaryPath_iff {p : Pathname} {l : Location} :
    d.place (temporaryPath p 0) .busy = .ok l ↔
      hasNull p.names = false ∧ (temporaryName p.name 0).utf8ByteSize ≤ longestName ∧
        ∃ dir, Disk.follow d.root (d.start p) p.parent.names = .ok dir ∧
          d.standing dir = .directory ∧ l = dir ++ [temporaryName p.name 0] := by
  have hparent : (temporaryPath p 0).parent.names = p.parent.names := by
    simp [temporaryPath, Pathname.parent]
  have hname : (temporaryPath p 0).name = temporaryName p.name 0 := by
    simp [temporaryPath, Pathname.name]
  have hlength := length_temporaryName p.name 0
  have hempty : temporaryName p.name 0 ≠ "" := fun h => by
    rw [h] at hlength
    exact absurd hlength (by simp)
  have hdots : temporaryName p.name 0 ≠ ".." := fun h => by
    rw [h] at hlength
    exact absurd hlength (by simp [show (".." : String).length = 2 from rfl])
  rw [Disk.place_eq_ok_iff, hparent, hname, hasNull_temporaryPath]
  simp only [ne_eq, hempty, hdots, not_false_eq_true, true_and]
  rfl

/-- **Writing beside a place** puts the bytes where nothing stood, and fails only where there can
be no temporary file. -/
theorem writeBeside_meets (p : Pathname) (bytes : ByteArray) :
    Meets (writeBeside p bytes) d
      (fun t d' => ∃ number dir,
        t = (temporaryPath p number, dir ++ [temporaryName p.name number]) ∧
        d.place (temporaryPath p 0) .busy = .ok (dir ++ [temporaryName p.name 0]) ∧
        d.standing t.2 = .nothing ∧ d' = d.put t.2 (.file bytes))
      (fun f d' => d' = d ∧ f.ReportsNull p ∧
        ∀ l, d.place (temporaryPath p 0) .busy ≠ .ok l) := by
  have hlook : Meets (ofLookup (temporaryPath p 0) fun d => d.place (temporaryPath p 0) .busy) d
      (fun l d' => d' = d ∧ d.place (temporaryPath p 0) .busy = .ok l)
      (fun f d' => d' = d ∧ f.ReportsNull p ∧
        ∀ l, d.place (temporaryPath p 0) .busy ≠ .ok l) := by
    refine meets_ofLookup (fun l h => ⟨rfl, h⟩) fun c h => ⟨rfl, ?_, fun l hl => ?_⟩
    · have hr := Disk.reportsNull_of_place (temporaryPath p 0).text none rfl h
      rwa [Fault.ReportsNull, hasNull_temporaryPath] at hr
    · exact nomatch h.symm.trans hl
  refine hlook.bind (fun first d' _ h => ?_) fun _ _ _ h => h
  obtain ⟨rfl, hfirst⟩ := h
  obtain ⟨-, -, dir, -, -, rfl⟩ := place_temporaryPath_iff.1 hfirst
  have hdir : (dir ++ [temporaryName p.name 0]).dropLast = dir := List.dropLast_concat
  refine .ok rfl ⟨_, dir, by rw [hdir], hfirst, ?_, rfl⟩
  rw [hdir]
  exact standing_of_not_mem_namesAt (freeNumber_not_mem _ _)

/-! ## 5. Writing -/

/-- A file can be written at a path: its directory exists, no directory has its place, and the
system takes its name and, if the file is written beside its place first, the longer name there. -/
structure Ready (d : Disk) (p : Pathname) (atomic : Bool) : Prop where
  place : d.place p .isDirectory = .ok (d.target p)
  free : d.standing (d.target p) ≠ .directory
  beside : atomic = true → (temporaryName p.name 0).utf8ByteSize ≤ longestName

/-- **A path stays ready** as long as something stands at its place. -/
theorem Ready.kept {p : Pathname} {atomic : Bool} (h : Ready d p atomic) {P : Location → Prop}
    {d' : Disk} (hE : Edit P d d') (hs : d.standing (d.target p) ≠ .nothing) :
    Ready d' p atomic := by
  have ht : d'.target p = d.target p := Disk.target_congr hE.directory p
  refine ⟨ht ▸ Disk.place_kept hE h.place, fun hdir => ?_, h.beside⟩
  have hk := hE.kept _ hs
  rw [← ht, hdir] at hk
  have hsame : d.standing (d'.target p) = .directory := by
    cases hd : d.standing (d'.target p) with
    | nothing => rw [hd] at hk; exact hk.elim
    | directory => rfl
    | file => rw [hd] at hk; exact hk.elim
  exact h.free (ht ▸ hsame)

/-- A path stays ready while contents are put anywhere. -/
theorem Ready.of_lays {p : Pathname} {atomic : Bool} (h : Ready d p atomic)
    {ws : List (Location × String)} {d' : Disk} (hlays : Disk.LaysOnly ws d d') :
    Ready d' p atomic := by
  have ht : d'.target p = d.target p := Disk.target_congr hlays.edit.directory p
  refine ⟨ht ▸ Disk.place_kept hlays.edit h.place, ?_, h.beside⟩
  rw [ht]
  cases hlast : Disk.last? ws (d.target p) with
  | some c =>
    rw [hlays.last _ c hlast]
    exact fun h => nomatch h
  | none =>
    rw [hlays.only _ (Disk.last?_eq_none_iff.1 hlast)]
    exact h.free

/-- Moving what was written beside a place needs no more than the place. -/
theorem moveBeside_meets (t : Pathname) (l : Location) (p : Pathname) (bytes : ByteArray) :
    Meets (moveBeside t l p bytes) d
      (fun _ d' => Ready d p false ∧ d' = (d.put (d.target p) (.file bytes)).remove l)
      (fun f d' => d' = d ∧ f.ReportsNull p ∧ ¬ Ready d p false) := by
  cases hp : d.place p .busy with
  | error c =>
    refine .error (by rw [moveBeside, hp]) ⟨rfl, Disk.reportsNull_of_place _ _ rfl hp, fun h => ?_⟩
    exact nomatch hp.symm.trans (Disk.place_of_unnamed h.place .busy)
  | ok target =>
    obtain rfl := Disk.place_eq_target hp
    by_cases hd : (d.root.at? (d.target p)).any Entry.isDirectory = true
    · refine .error (by rw [moveBeside, hp]; exact if_pos hd) ⟨rfl, ?_, fun h => ?_⟩
      · rw [Fault.ReportsNull, Disk.hasNull_of_place hp]
        rfl
      · exact h.free (Disk.any_isDirectory_iff.1 hd)
    · exact .ok (by rw [moveBeside, hp]; exact if_neg hd)
        ⟨⟨Disk.place_of_unnamed hp _, fun h => hd (Disk.any_isDirectory_iff.2 h),
          fun h => nomatch h⟩, rfl⟩

/-- The place of a file is not one beside it. -/
theorem target_ne_beside {p : Pathname} {u : FaultCause} {l dir : Location}
    (hp : d.place p u = .ok l) (hdir : Disk.follow d.root (d.start p) p.parent.names = .ok dir)
    (number : Nat) : d.target p ≠ dir ++ [temporaryName p.name number] := by
  obtain ⟨-, -, -, -, dir', hdir', -, rfl⟩ := Disk.place_eq_ok_iff.1 hp
  obtain rfl := Except.ok.inj (hdir.symm.trans hdir')
  rw [← Disk.place_eq_target hp]
  intro h
  exact temporaryName_ne p.name number (List.cons.inj (List.append_inj_right' h rfl)).1.symm

/-- A file that stands beside a path has no part in whether the path is ready. -/
theorem ready_beside_iff {p : Pathname} {bytes : ByteArray} {dir : Location} (number : Nat)
    {d' : Disk} (hfirst : d.place (temporaryPath p 0) .busy = .ok (dir ++ [temporaryName p.name 0]))
    (hfree : d.standing (dir ++ [temporaryName p.name number]) ≠ .directory)
    (hp : Disk.Puts (dir ++ [temporaryName p.name number]) bytes d d') :
    Ready d' p false ↔ Ready d p true := by
  obtain ⟨-, hshort, dir', hf, hd, heq⟩ := place_temporaryPath_iff.1 hfirst
  obtain rfl : dir = dir' := List.append_inj_left' heq rfl
  have ht : d'.target p = d.target p := Disk.target_congr hp.directory p
  have hedit := hp.edit hfree
  constructor
  · intro h
    obtain ⟨hn, hname, hdots, hlong, -⟩ := Disk.place_eq_ok_iff.1 h.place
    have hplace : d.place p .isDirectory = .ok (dir ++ [p.name]) :=
      Disk.place_eq_ok_iff.2 ⟨hn, hname, hdots, hlong, dir, hf, hd, rfl⟩
    refine ⟨Disk.place_of_unnamed hplace _, fun hdirectory => h.free ?_, fun _ => hshort⟩
    rw [ht]
    exact hedit.directories hdirectory
  · intro h
    refine ⟨ht ▸ Disk.place_kept hedit h.place, ?_, fun h => nomatch h⟩
    rw [ht, hp.other (target_ne_beside h.place hf number)]
    exact h.free

/-- **Replacing a file** by way of one beside it succeeds exactly at a path that is ready. -/
theorem replaceFile_meets (p : Pathname) (bytes : ByteArray) :
    Meets (replaceFile p bytes) d
      (fun _ d' => Ready d p true ∧ Disk.Puts (d.target p) bytes d d')
      (fun f d' => ¬ Ready d p true ∧ Grows d d' ∧ f.ReportsNull p) := by
  refine (writeBeside_meets p bytes).bind (fun (t, l) d₁ _ h => ?_) fun f d' _ h => ?_
  · obtain ⟨number, dir, heq, hfirst, hnone, rfl⟩ := h
    obtain ⟨rfl, rfl⟩ := Prod.mk.inj heq
    obtain ⟨-, -, dir', hf, hd, hdirs⟩ := place_temporaryPath_iff.1 hfirst
    obtain rfl : dir = dir' := List.append_inj_left' hdirs rfl
    have hnot : d.standing (dir ++ [temporaryName p.name number]) ≠ .directory := by
      rw [hnone]
      exact fun h => nomatch h
    have hfree : d.Free (dir ++ [temporaryName p.name number]) := ⟨⟨dir, _, rfl, hd⟩, hnot⟩
    have hbeside := Disk.Puts.put hfree bytes
    have hready := ready_beside_iff number hfirst hnot hbeside
    refine ((moveBeside_meets _ _ p bytes).attempt fun _ _ => False).bind
      (fun r d₂ _ h => ?_) fun _ _ _ h => h.elim
    cases r with
    | ok _ =>
      obtain ⟨hmoves, rfl⟩ := h
      have hplace := Disk.place_of_unnamed hmoves.place .isDirectory
      have hmoved := Disk.Puts.put (Disk.free_of_place hplace hmoves.free) bytes
      have hne := target_ne_beside (hready.1 hmoves).place hf number
      exact FileAction.meets_pure
        ⟨hready.1 hmoves, hbeside.move hmoved hfree hnone hmoves.free hne⟩
    | error f =>
      obtain ⟨rfl, hfault, hstays⟩ := h
      refine .error rfl ⟨fun h => hstays (hready.2 h), ?_, hfault⟩
      exact .of_same rfl (hbeside.standing_remove hfree hnone)
  · obtain ⟨rfl, hf, hnone⟩ := h
    refine ⟨fun h => ?_, .refl _ _, hf⟩
    obtain ⟨hn, -, -, -, dir, hdir, hd, -⟩ := Disk.place_eq_ok_iff.1 h.place
    exact hnone _ (place_temporaryPath_iff.2 ⟨hn, h.beside rfl, dir, hdir, hd, rfl⟩)

/-- Writing in place is a look-up of the place, and then putting the file there. -/
theorem overwriteFile_eq (p : Pathname) (bytes : ByteArray) :
    overwriteFile p bytes = (ofLookup p fun d => (d.place p .isDirectory).bind fun l =>
      if (d.root.at? l).any Entry.isDirectory then .error .isDirectory else .ok l)
        >>= (put · (.file bytes)) := by
  unfold overwriteFile
  congr 2
  funext d
  cases d.place p .isDirectory <;> rfl

/-- **Writing in place** succeeds exactly at a path that is ready. -/
theorem overwriteFile_meets (p : Pathname) (bytes : ByteArray) :
    Meets (overwriteFile p bytes) d
      (fun _ d' => Ready d p false ∧ Disk.Puts (d.target p) bytes d d')
      (fun f d' => ¬ Ready d p false ∧ Grows d d' ∧ f.ReportsNull p) := by
  have hlook : Meets (ofLookup p fun d => (d.place p .isDirectory).bind fun l =>
      if (d.root.at? l).any Entry.isDirectory then .error .isDirectory else .ok l) d
      (fun l d' => d' = d ∧ d.place p .isDirectory = .ok l ∧
        (d.root.at? l).any Entry.isDirectory = false)
      (fun f d' => d' = d ∧ f.ReportsNull p ∧
        ∀ l, d.place p .isDirectory = .ok l → (d.root.at? l).any Entry.isDirectory = true) :=
    meets_place rfl rfl
  rw [overwriteFile_eq]
  refine hlook.bind (fun l d' _ h => ?_) fun f d' _ h => ?_
  · obtain ⟨rfl, hp, hnot⟩ := h
    obtain rfl := Disk.place_eq_target hp
    have hd : d'.standing (d'.target p) ≠ .directory := fun h => by
      rw [Disk.any_isDirectory_iff.2 h] at hnot
      cases hnot
    exact meets_put ⟨⟨hp, hd, fun h => nomatch h⟩, .put (Disk.free_of_place hp hd) bytes⟩
  · obtain ⟨rfl, hf, htaken⟩ := h
    refine ⟨fun h => ?_, .refl _ _, hf⟩
    exact h.free (Disk.any_isDirectory_iff.1 (htaken _ h.place))

/-- A null byte that a write at a path meets: it is in the directory, or the directory can be made
and the byte is in the name. -/
def MeetsNull (d : Disk) (p : Pathname) : Prop :=
  hasNull p.parent.names = true ∨
    hasNull p.names = true ∧ ∃ d', makeDirectories p.parent d = .ok () d'

theorem MeetsNull.hasNull {p : Pathname} (h : MeetsNull d p) : hasNull p.names = true := by
  rcases h with h | h
  · obtain ⟨name, hm, hc⟩ := List.any_eq_true.1 h
    exact List.any_eq_true.2 ⟨name, List.dropLast_subset _ hm, hc⟩
  · exact h.1

/-- Writing at a path whose directory exists, beside its place first or in place. -/
theorem write_meets (p : Pathname) (bytes : ByteArray) (atomic : Bool) :
    Meets (if atomic then replaceFile p bytes else overwriteFile p bytes) d
      (fun _ d' => Ready d p atomic ∧ Disk.Puts (d.target p) bytes d d')
      (fun f d' => ¬ Ready d p atomic ∧ Grows d d' ∧ f.ReportsNull p) := by
  cases atomic with
  | true => exact replaceFile_meets p bytes
  | false => exact overwriteFile_meets p bytes

theorem writeFile_eq (p : Pathname) (content : String) (atomic : Bool) :
    writeFile p content atomic = (do
      makeDirectories p.parent
      (if atomic then replaceFile p content.toUTF8 else overwriteFile p content.toUTF8) >>=
        fun _ => pure content.utf8ByteSize) := by
  cases atomic <;> rfl

/-- **Writing a file.**  A write that succeeds puts the content at its target, where the path reads
it and can be written again, and changes no other file; a write that fails changes no file at all.
The fault is one of the system unless the write meets a null byte. -/
theorem writeFile_meets (p : Pathname) (content : String) (atomic : Bool) :
    Meets (writeFile p content atomic) d
      (fun _ d' => ¬ MeetsNull d p ∧ Edit (· = d.target p) d d' ∧
        d'.entry p = .ok (.file content.toUTF8) ∧ Ready d' p atomic)
      (fun f d' => Grows d d' ∧ (f.cause.isSystem = false ↔ MeetsNull d p)) := by
  rw [writeFile_eq]
  refine (makeDirectories_meets p.parent).bind (fun _ d₁ hmade h => ?_) fun f d₁ hmade h => ?_
  · obtain ⟨hgrows, -⟩ := h
    have ht : d₁.target p = d.target p := Disk.target_congr hgrows.directory p
    have hmeets : MeetsNull d p ↔ hasNull p.names = true :=
      ⟨MeetsNull.hasNull, fun h => .inr ⟨h, d₁, hmade⟩⟩
    refine (write_meets p content.toUTF8 atomic).bind (fun _ d₂ _ h => meets_pure ?_)
      fun f d₂ _ h => ?_
    · obtain ⟨hready, hputs⟩ := h
      have hedit := hputs.edit hready.free
      refine ⟨fun h => ?_, (hgrows.mono fun _ h => h.elim).trans (ht ▸ hedit),
        Disk.entry_of_place hready.place hedit hputs.self,
        hready.of_lays (.of_puts hputs hready.free)⟩
      rw [Disk.hasNull_of_place hready.place] at hmeets
      exact nomatch hmeets.1 h
    · obtain ⟨-, hgrows', hf⟩ := h
      refine ⟨hgrows.trans hgrows', ?_⟩
      rw [hmeets, hf]
      simp
  · obtain ⟨hgrows, hf⟩ := h
    refine ⟨hgrows, ?_⟩
    rw [hf, MeetsNull]
    simp [hmade]

/-! ## 6. Writing again -/

/-- A directory that is there is not made. -/
theorem makeDirectory_of_entry {p : Pathname} {entries : List (String × Entry)}
    (h : d.entry p = .ok (.directory entries)) :
    makeDirectory p d = .error { cause := .exists, path := p.text } d := by
  have hlook : (d.place p .exists).bind (fun l =>
      if (d.root.at? l).isSome then .error .exists else .ok l) = .error .exists := by
    rcases Disk.place_of_entry h .exists with hp | ⟨hp, hsome⟩
    · rw [hp]
      rfl
    · rw [hp, Except.bind, if_pos hsome]
  rw [makeDirectory_eq]
  refine bind_of_error ?_
  rw [ofLookup, hlook]

/-- Making a directory that is there changes nothing. -/
theorem ensureDirectory_of_entry {p : Pathname} {entries : List (String × Entry)}
    (h : d.entry p = .ok (.directory entries)) : ensureDirectory p d = .ok () d := by
  have hattempt : attempt (makeDirectory p) d
      = .ok (.error { cause := .exists, path := p.text }) d := by
    rw [attempt, makeDirectory_of_entry h]
  have hask : isDirectory p d = .ok true d := by
    rw [isDirectory, ask, ofLookup, h]
    rfl
  unfold ensureDirectory
  rw [bind_of_ok hattempt]
  exact bind_of_ok hask

theorem makeDirectories_of_entry {p : Pathname} {entries : List (String × Entry)}
    (h : d.entry p = .ok (.directory entries)) : makeDirectories p d = .ok () d := by
  have hensure := ensureDirectory_of_entry h
  unfold makeDirectories
  cases hr : p.names.reverse with
  | nil =>
    have hp : p = ⟨p.root, []⟩ := by
      rw [← List.reverse_eq_nil_iff.1 hr]
    rw [makeDirectoriesFrom, ← hp]
    exact hensure
  | cons name above =>
    have hp : p = ⟨p.root, (name :: above).reverse⟩ := by
      rw [← hr, List.reverse_reverse]
    have hattempt : attempt (ensureDirectory p) d = .ok (.ok ()) d := by
      rw [attempt, hensure]
    rw [makeDirectoriesFrom, ← hp]
    rw [bind_of_ok hattempt]
    rfl

/-- A path can be written if making its directory makes it ready. -/
theorem writeFile_of_makeDirectories {p : Pathname} {atomic : Bool} {d₁ : Disk}
    (hmade : makeDirectories p.parent d = .ok () d₁) (h : Ready d₁ p atomic) (content : String) :
    ∃ d', FileAction.writeFile p content atomic d = .ok content.utf8ByteSize d' ∧
      Disk.Puts (d₁.target p) content.toUTF8 d₁ d' := by
  rw [writeFile_eq, bind_of_ok hmade]
  rcases write_meets (d := d₁) p content.toUTF8 atomic with ⟨hends, -, hputs⟩ | ⟨-, hnot, -⟩
  · exact ⟨_, bind_of_ok hends, hputs⟩
  · exact absurd h hnot

/-- **A path that is ready can be written**, and nothing but its file changes. -/
theorem Ready.writeFile {p : Pathname} {atomic : Bool} (h : Ready d p atomic) (content : String) :
    ∃ d', FileAction.writeFile p content atomic d = .ok content.utf8ByteSize d' ∧
      Disk.Puts (d.target p) content.toUTF8 d d' := by
  obtain ⟨hn, -, -, -, dir, hdir, hd, -⟩ := Disk.place_eq_ok_iff.1 h.place
  obtain ⟨entries, he⟩ := Standing.of_eq_directory_iff.1 hd
  have hparent : d.entry p.parent = .ok (.directory entries) := by
    have hnull : hasNull p.parent.names = false :=
      Bool.eq_false_iff.2 fun h => by
        rw [MeetsNull.hasNull (d := d) (.inl h)] at hn
        exact nomatch hn
    have ht : d.target p.parent = dir := (Disk.eq_walk_of_follow hdir).symm
    exact Disk.entry_eq_ok_iff.2 ⟨hnull, ht ▸ hdir, ht ▸ he⟩
  exact writeFile_of_makeDirectories (makeDirectories_of_entry hparent) h content

end FileAction

end SchemaTypes
