/-
# Where a path leads

`Disk.follow` walks through the directories of a disk.  On a tree without links the place that it
reaches is known beforehand (`Disk.target`): each name leads one step down and a double dot one
step up.  What the disk decides is only whether the walk succeeds.

* `locate_eq_target`, `place_eq_target`: every look-up that succeeds ends at the target;
* `entry_kept`: what a path finds it goes on finding, since edits keep directories;
* `entry_of_place`: a file that is put where a path makes one is found by that path.
-/
import SchemaTypes.Proofs.Files.Standing

namespace SchemaTypes

/-! ## 1. Targets -/

/-- One name further: a double dot leads up, any other name down. -/
def Location.step (l : Location) (name : String) : Location :=
  if name = ".." then l.dropLast else l ++ [name]

/-- Where names lead to. -/
def Location.walk (here : Location) (names : List String) : Location :=
  names.foldl Location.step here

theorem Location.walk_append (here : Location) (a b : List String) :
    Location.walk here (a ++ b) = Location.walk (Location.walk here a) b :=
  List.foldl_append

/-- The last names of a walk are the last names of its target, unless they lead up. -/
theorem Location.walk_concat (here : Location) (a : List String) {name : String}
    (h : name ≠ "..") : Location.walk here (a ++ [name]) = Location.walk here a ++ [name] := by
  rw [Location.walk_append]
  exact if_neg h

/-- Without a double dot each name leads down. -/
theorem Location.walk_of_not_mem (here : Location) {names : List String} (h : ".." ∉ names) :
    Location.walk here names = here ++ names := by
  induction names generalizing here with
  | nil => exact (List.append_nil here).symm
  | cons name rest ih =>
    have hname : name ≠ ".." := fun e => h (e ▸ List.mem_cons_self)
    have hstep : Location.step here name = here ++ [name] := if_neg hname
    have hrest := ih (here ++ [name]) fun hm => h (List.mem_cons_of_mem _ hm)
    rw [Location.walk, List.foldl_cons, hstep]
    exact hrest.trans (List.append_assoc here [name] rest)

namespace Disk

/-- The place that a path leads to. -/
def target (d : Disk) (p : Pathname) : Location := Location.walk (d.start p) p.names

/-- Only the current directory decides where a path leads. -/
theorem target_congr {d d' : Disk} (h : d'.directory = d.directory) (p : Pathname) :
    d'.target p = d.target p := by
  rw [target, target, start, start, h]

/-! ## 2. Walks that succeed -/

/-- A walk goes on exactly through directories and names that are there. -/
theorem follow_cons_eq_ok_iff {root : Entry} {here l : Location} {name : String}
    {rest : List String} :
    follow root here (name :: rest) = .ok l ↔
      root.standing here = .directory ∧
        (name = ".." ∧ follow root here.dropLast rest = .ok l ∨
          name ≠ ".." ∧ name.utf8ByteSize ≤ longestName ∧
            root.standing (here ++ [name]) ≠ .nothing ∧
            follow root (here ++ [name]) rest = .ok l) := by
  unfold Entry.standing
  rw [Entry.at?_append, follow]
  cases hh : root.at? here with
  | none => simp [Standing.of]
  | some e =>
    cases e with
    | file bytes => simp [Standing.of]
    | directory entries =>
      by_cases hdots : name = ".."
      · simp [Standing.of, hdots]
      · by_cases hlong : longestName < name.utf8ByteSize
        · simp [Standing.of, hdots, hlong, Nat.not_le.2 hlong]
        · cases hl : entries.lookup name with
          | none => simp [Standing.of, Entry.at?, hdots, hlong, hl]
          | some e =>
            cases e <;> simp [Entry.at?, hdots, hlong, hl, Standing.of, Nat.not_lt.1 hlong]

/-- **A walk that succeeds ends at its target.** -/
theorem eq_walk_of_follow {root : Entry} {here l : Location} {names : List String}
    (h : follow root here names = .ok l) : l = Location.walk here names := by
  induction names generalizing here with
  | nil => exact (Except.ok.inj h).symm
  | cons name rest ih =>
    obtain ⟨-, ⟨hdots, hr⟩ | ⟨hdots, -, -, hr⟩⟩ := follow_cons_eq_ok_iff.1 h
    · rw [ih hr, Location.walk, Location.walk, List.foldl_cons, Location.step, if_pos hdots]
    · rw [ih hr, Location.walk, Location.walk, List.foldl_cons, Location.step, if_neg hdots]

/-- A walk in two parts. -/
theorem follow_append_of_ok {root : Entry} {here l : Location} {a : List String}
    (h : follow root here a = .ok l) (b : List String) :
    follow root here (a ++ b) = follow root l b := by
  induction a generalizing here with
  | nil => rw [Except.ok.inj h, List.nil_append]
  | cons name rest ih =>
    obtain ⟨hd, hc⟩ := follow_cons_eq_ok_iff.1 h
    obtain ⟨entries, he⟩ := Standing.of_eq_directory_iff.1 hd
    rw [List.cons_append, follow, he]
    rcases hc with ⟨hdots, hr⟩ | ⟨hdots, hlong, hs, hr⟩
    · rw [← ih hr]
      exact if_pos hdots
    · have hsome : (entries.lookup name).isSome = true := by
        rw [Entry.standing, Entry.at?_append, he] at hs
        cases hl : entries.lookup name with
        | none => exact absurd (by simp [Entry.at?, hl, Standing.of]) hs
        | some e => rfl
      simp only [if_neg hdots, if_neg (Nat.not_lt.2 hlong), hsome, if_true]
      exact ih hr

/-- A walk that succeeds does so in both of its parts. -/
theorem exists_follow_of_append {root : Entry} {here l : Location} {a b : List String}
    (h : follow root here (a ++ b) = .ok l) :
    ∃ m, follow root here a = .ok m ∧ follow root m b = .ok l := by
  induction a generalizing here with
  | nil => exact ⟨here, rfl, h⟩
  | cons name rest ih =>
    obtain ⟨hd, ⟨hdots, hr⟩ | ⟨hdots, hlong, hs, hr⟩⟩ := follow_cons_eq_ok_iff.1 h
    · obtain ⟨m, ha, hb⟩ := ih hr
      exact ⟨m, follow_cons_eq_ok_iff.2 ⟨hd, .inl ⟨hdots, ha⟩⟩, hb⟩
    · obtain ⟨m, ha, hb⟩ := ih hr
      exact ⟨m, follow_cons_eq_ok_iff.2 ⟨hd, .inr ⟨hdots, hlong, hs, ha⟩⟩, hb⟩

/-- A walk fails for want of a directory, of an entry, or of a short enough name. -/
theorem error_cases_of_follow {root : Entry} {here : Location} {names : List String}
    {c : FaultCause} (h : follow root here names = .error c) :
    c = .missing ∨ c = .notDirectory ∨ c = .nameTooLong := by
  induction names generalizing here with
  | nil => exact nomatch h
  | cons name rest ih =>
    unfold follow at h
    split at h
    · split at h
      · exact ih h
      · split at h
        · exact .inr (.inr (Except.error.inj h).symm)
        · split at h
          · exact ih h
          · exact .inl (Except.error.inj h).symm
    · exact .inr (.inl (Except.error.inj h).symm)

theorem isSystem_of_follow {root : Entry} {here : Location} {names : List String}
    {c : FaultCause} (h : follow root here names = .error c) : c.isSystem = true := by
  rcases error_cases_of_follow h with rfl | rfl | rfl <;> rfl

/-- **Edits keep walks**: they keep directories, and what stands somewhere goes on standing. -/
theorem follow_kept {P : Location → Prop} {d d' : Disk} (h : Edit P d d') {here l : Location}
    {names : List String} (hf : follow d.root here names = .ok l) :
    follow d'.root here names = .ok l := by
  induction names generalizing here with
  | nil => exact hf
  | cons name rest ih =>
    obtain ⟨hd, hc⟩ := follow_cons_eq_ok_iff.1 hf
    refine follow_cons_eq_ok_iff.2 ⟨h.directories hd, ?_⟩
    rcases hc with ⟨hdots, hr⟩ | ⟨hdots, hlong, hs, hr⟩
    · exact .inl ⟨hdots, ih hr⟩
    · exact .inr ⟨hdots, hlong, h.ne_nothing hs, ih hr⟩

/-! ## 3. Looking up -/

theorem locate_of_not_hasNull {d : Disk} {p : Pathname} (h : hasNull p.names = false) :
    d.locate p = follow d.root (d.start p) p.names := by
  rw [locate, h]
  rfl

/-- What has a name that is too long in its path cannot be looked up, if the walk gets that far. -/
theorem entry_of_long {d : Disk} {p : Pathname} {dir rest : List String} {name : String}
    {l : Location} (hnull : hasNull p.names = false) (hnames : p.names = dir ++ name :: rest)
    (hdir : follow d.root (d.start p) dir = .ok l) (hd : d.standing l = .directory)
    (hlong : longestName < name.utf8ByteSize) : d.entry p = .error .nameTooLong := by
  have hdots : name ≠ ".." := by
    rintro rfl
    exact absurd hlong (by decide)
  obtain ⟨entries, he⟩ := Standing.of_eq_directory_iff.1 hd
  have hfollow : follow d.root (d.start p) p.names = .error .nameTooLong := by
    rw [hnames, follow_append_of_ok hdir, follow, he]
    simp only [if_neg hdots, if_pos hlong]
  rw [entry, locate_of_not_hasNull hnull, hfollow]

/-- A path without a null byte finds what stands at its target, once the walk succeeds. -/
theorem entry_eq_ok_iff {d : Disk} {p : Pathname} {e : Entry} :
    d.entry p = .ok e ↔
      hasNull p.names = false ∧ follow d.root (d.start p) p.names = .ok (d.target p) ∧
        d.root.at? (d.target p) = some e := by
  unfold entry locate
  cases hn : hasNull p.names with
  | true => simp
  | false =>
    cases hf : follow d.root (d.start p) p.names with
    | error c => simp
    | ok l =>
      have hl : d.target p = l := (eq_walk_of_follow hf).symm
      rw [hl]
      cases ha : d.root.at? l <;> simp [ha]

/-- What a path finds stands at its target. -/
theorem standing_of_entry {d : Disk} {p : Pathname} {e : Entry} (h : d.entry p = .ok e) :
    d.standing (d.target p) = .of (some e) := by
  rw [standing, Entry.standing, (entry_eq_ok_iff.1 h).2.2]

/-- A walk down to where something stands finds everything on its way, unless a name is too
long. -/
theorem follow_of_standing {root : Entry} {here : Location} {names : List String}
    (hdots : ".." ∉ names) (hs : root.standing (here ++ names) ≠ .nothing) :
    follow root here names = .ok (here ++ names) ∨
      follow root here names = .error .nameTooLong := by
  induction names generalizing here with
  | nil => exact .inl (by rw [List.append_nil]; rfl)
  | cons name rest ih =>
    have hname : name ≠ ".." := fun e => hdots (e ▸ List.mem_cons_self)
    have happend : here ++ name :: rest = here ++ [name] ++ rest := by simp
    have hrest : follow root (here ++ [name]) rest = .ok (here ++ [name] ++ rest) ∨
        follow root (here ++ [name]) rest = .error .nameTooLong :=
      ih (fun h => hdots (List.mem_cons_of_mem _ h)) (happend ▸ hs)
    rw [Entry.standing, Entry.at?_append] at hs
    cases hh : root.at? here with
    | none => exact absurd (by rw [hh]; rfl) hs
    | some e =>
      cases e with
      | file bytes => exact absurd (by rw [hh]; rfl) hs
      | directory entries =>
        rw [follow, hh, happend]
        by_cases hlong : longestName < name.utf8ByteSize
        · exact .inr (by simp only [if_neg hname, if_pos hlong])
        · have hsome : (entries.lookup name).isSome = true := by
            cases hl : entries.lookup name with
            | none => exact absurd (by simp [hh, Entry.at?, hl, Standing.of]) hs
            | some e => rfl
          simp only [if_neg hname, if_neg hlong, hsome, if_true]
          exact hrest

/-- A path without a double dot finds what stands at its target, unless a name is too long. -/
theorem entry_of_standing {d : Disk} {p : Pathname} (hnull : hasNull p.names = false)
    (hdots : ".." ∉ p.names) (hs : d.standing (d.target p) ≠ .nothing) :
    (∃ e, d.entry p = .ok e) ∨ d.entry p = .error .nameTooLong := by
  have ht : d.target p = d.start p ++ p.names := Location.walk_of_not_mem _ hdots
  have hsome : ∃ e, d.root.at? (d.target p) = some e :=
    Option.ne_none_iff_exists'.1 fun h => hs (Standing.of_eq_nothing_iff.2 h)
  obtain ⟨e, he⟩ := hsome
  rcases follow_of_standing hdots (ht ▸ hs) with hf | hf
  · exact .inl ⟨e, entry_eq_ok_iff.2 ⟨hnull, ht ▸ hf, he⟩⟩
  · exact .inr (by rw [entry, locate_of_not_hasNull hnull, hf])

/-- **What a path finds it goes on finding**, and a file whose place is not changed keeps its
bytes. -/
theorem entry_kept {P : Location → Prop} {d d' : Disk} (h : Edit P d d') {p : Pathname}
    {e : Entry} (he : d.entry p = .ok e) : ∃ e', d'.entry p = .ok e' := by
  obtain ⟨hn, hf, -⟩ := entry_eq_ok_iff.1 he
  have hs : d'.standing (d.target p) ≠ .nothing := by
    refine h.ne_nothing ?_
    rw [standing_of_entry he]
    cases e <;> exact fun hc => nomatch hc
  have hsome : ∃ e', d'.root.at? (d.target p) = some e' :=
    Option.ne_none_iff_exists'.1 fun hc => hs (Standing.of_eq_nothing_iff.2 hc)
  obtain ⟨e', he'⟩ := hsome
  have ht : d'.target p = d.target p := target_congr h.directory p
  refine ⟨e', entry_eq_ok_iff.2 ⟨hn, ?_, by rw [ht]; exact he'⟩⟩
  rw [ht, start, h.directory]
  exact follow_kept h hf

/-- What a path finds on a later disk is what stands at its place there. -/
theorem entry_file_of_standing {P : Location → Prop} {d d' : Disk} (h : Edit P d d')
    {p : Pathname} {e : Entry} (he : d.entry p = .ok e) {bytes : ByteArray}
    (hb : d'.standing (d.target p) = .file bytes) : d'.entry p = .ok (.file bytes) := by
  obtain ⟨e', he'⟩ := entry_kept h he
  have hs := standing_of_entry he'
  rw [target_congr h.directory p, hb] at hs
  rw [he', Option.some.inj (Standing.of_eq_file_iff.1 hs.symm)]

theorem entry_file_kept {P : Location → Prop} {d d' : Disk} (h : Edit P d d') {p : Pathname}
    (hp : ¬ P (d.target p)) {bytes : ByteArray} (he : d.entry p = .ok (.file bytes)) :
    d'.entry p = .ok (.file bytes) :=
  entry_file_of_standing h he (h.file hp (standing_of_entry he))

/-- The only look-up whose answer is not that there is nothing is one with too long a name. -/
theorem eq_nameTooLong_of_entry {d : Disk} {p : Pathname} {c : FaultCause}
    (h : d.entry p = .error c) (ha : c.isAbsence = false) : c = .nameTooLong := by
  unfold entry locate at h
  split at h
  · split at h
    · exact nomatch h
    · rw [← Except.error.inj h] at ha
      exact nomatch ha
  · rename_i hl
    obtain rfl := Except.error.inj h
    split at hl
    · rw [← Except.error.inj hl] at ha
      exact nomatch ha
    · rcases error_cases_of_follow hl with rfl | rfl | rfl
      · exact nomatch ha
      · exact nomatch ha
      · rfl

/-! ## 4. Places for new entries -/

theorem any_isDirectory_iff {d : Disk} {l : Location} :
    (d.root.at? l).any Entry.isDirectory = true ↔ d.standing l = .directory := by
  unfold standing Entry.standing
  rcases d.root.at? l with _ | (_ | _) <;> simp [Standing.of, Entry.isDirectory]

/-- Where a path makes a new entry or replaces one. -/
theorem place_eq_ok_iff {d : Disk} {p : Pathname} {u : FaultCause} {l : Location} :
    d.place p u = .ok l ↔
      hasNull p.names = false ∧ p.name ≠ "" ∧ p.name ≠ ".." ∧
        p.name.utf8ByteSize ≤ longestName ∧
        ∃ dir, follow d.root (d.start p) p.parent.names = .ok dir ∧
          d.standing dir = .directory ∧ l = dir ++ [p.name] := by
  unfold place
  cases hn : hasNull p.names with
  | true => simp
  | false =>
    cases hf : follow d.root (d.start p) p.parent.names with
    | error c => simp
    | ok dir =>
      have hdir := any_isDirectory_iff (d := d) (l := dir)
      by_cases hd : d.standing dir = .directory
      · by_cases hu : p.name = "" ∨ p.name = ".."
        · rcases hu with hu | hu <;> simp [hdir.2 hd, hu]
        · rw [not_or] at hu
          by_cases hlong : longestName < p.name.utf8ByteSize
          · simp [hdir.2 hd, hu, hlong, Nat.not_le.2 hlong]
          · simp [hdir.2 hd, hu, hlong, Nat.not_lt.1 hlong, hd, eq_comm]
      · have hd' : (d.root.at? dir).any Entry.isDirectory = false :=
          Bool.eq_false_iff.2 fun h => hd (hdir.1 h)
        simp [hd', hd]

/-- A path with a last name consists of its parent and that name. -/
theorem names_eq_of_name_ne {p : Pathname} (h : p.name ≠ "") :
    p.names = p.parent.names ++ [p.name] := by
  rcases List.eq_nil_or_concat p.names with he | ⟨init, last, he⟩
  · exact absurd (by simp [Pathname.name, he]) h
  · simp [Pathname.name, Pathname.parent, he]

/-- **A path makes a new entry at its target.** -/
theorem place_eq_target {d : Disk} {p : Pathname} {u : FaultCause} {l : Location}
    (h : d.place p u = .ok l) : l = d.target p := by
  obtain ⟨-, hname, hdots, -, dir, hf, -, rfl⟩ := place_eq_ok_iff.1 h
  rw [target, names_eq_of_name_ne hname, Location.walk_concat _ _ hdots, eq_walk_of_follow hf]

/-- A place does not depend on the fault of a path that names none. -/
theorem place_of_unnamed {d : Disk} {p : Pathname} {u : FaultCause} {l : Location}
    (h : d.place p u = .ok l) (u' : FaultCause) : d.place p u' = .ok (d.target p) := by
  rw [← place_eq_target h]
  exact place_eq_ok_iff.2 (place_eq_ok_iff.1 h)

/-- Where a path finds a directory, its place is taken, or it names none. -/
theorem place_of_entry {d : Disk} {p : Pathname} {entries : List (String × Entry)}
    (h : d.entry p = .ok (.directory entries)) (u : FaultCause) :
    d.place p u = .error u ∨
      d.place p u = .ok (d.target p) ∧ (d.root.at? (d.target p)).isSome = true := by
  obtain ⟨hn, hf, he⟩ := entry_eq_ok_iff.1 h
  by_cases hname : p.name = "" ∨ p.name = ".."
  · left
    have hparent : ∃ dir, follow d.root (d.start p) p.parent.names = .ok dir ∧
        d.standing dir = .directory := by
      rcases List.eq_nil_or_concat p.names with hnil | ⟨init, last, hlast⟩
      · have htarget : d.target p = d.start p := by rw [target, hnil]; rfl
        refine ⟨d.start p, by rw [Pathname.parent, hnil]; rfl, ?_⟩
        rw [← htarget, standing, Entry.standing, he]
        rfl
      · rw [hlast, List.concat_eq_append] at hf
        obtain ⟨dir, hdir, hrest⟩ := exists_follow_of_append hf
        exact ⟨dir, by simpa [Pathname.parent, hlast] using hdir,
          (follow_cons_eq_ok_iff.1 hrest).1⟩
    obtain ⟨dir, hdir, hd⟩ := hparent
    unfold place
    rw [hn, hdir]
    simp [any_isDirectory_iff.2 hd, hname]
  · right
    rw [not_or] at hname
    rw [names_eq_of_name_ne hname.1] at hf
    obtain ⟨dir, hdir, hrest⟩ := exists_follow_of_append hf
    obtain ⟨hd, ⟨hdots, -⟩ | ⟨-, hlong, -, -⟩⟩ := follow_cons_eq_ok_iff.1 hrest
    · exact absurd hdots hname.2
    · have hplace : d.place p u = .ok (dir ++ [p.name]) :=
        place_eq_ok_iff.2 ⟨hn, hname.1, hname.2, hlong, dir, hdir, hd, rfl⟩
      exact ⟨place_of_unnamed hplace u, by rw [he]; rfl⟩

/-- **Edits keep places.** -/
theorem place_kept {P : Location → Prop} {d d' : Disk} (h : Edit P d d') {p : Pathname}
    {u : FaultCause} {l : Location} (hp : d.place p u = .ok l) : d'.place p u = .ok l := by
  obtain ⟨hn, hname, hdots, hlong, dir, hf, hd, hl⟩ := place_eq_ok_iff.1 hp
  refine place_eq_ok_iff.2 ⟨hn, hname, hdots, hlong, dir, ?_, h.directories hd, hl⟩
  rw [start, h.directory]
  exact follow_kept h hf

/-- The place is free unless a directory stands there. -/
theorem free_of_place {d : Disk} {p : Pathname} {u : FaultCause} {l : Location}
    (h : d.place p u = .ok l) (hl : d.standing l ≠ .directory) : d.Free l := by
  obtain ⟨-, -, -, -, dir, -, hd, rfl⟩ := place_eq_ok_iff.1 h
  exact ⟨⟨dir, p.name, rfl, hd⟩, hl⟩

/-- **A file that stands where a path makes one is found by that path.** -/
theorem entry_of_place {d d' : Disk} {P : Location → Prop} {p : Pathname} {u : FaultCause}
    {l : Location} (h : d.place p u = .ok l) (hE : Edit P d d') {bytes : ByteArray}
    (hb : d'.standing l = .file bytes) : d'.entry p = .ok (.file bytes) := by
  have hl : l = d.target p := place_eq_target h
  obtain ⟨hn, hname, hdots, hlong, dir, hf, hd, rfl⟩ := place_eq_ok_iff.1 h
  have ht : d'.target p = dir ++ [p.name] := (target_congr hE.directory p).trans hl.symm
  refine entry_eq_ok_iff.2 ⟨hn, ?_, ?_⟩
  · have hparent : follow d'.root (d'.start p) p.parent.names = .ok dir := by
      rw [start, hE.directory]
      exact follow_kept hE hf
    have hne : d'.root.standing (dir ++ [p.name]) ≠ .nothing := by
      intro hc
      rw [standing, hc] at hb
      exact nomatch hb
    rw [ht, names_eq_of_name_ne hname, follow_append_of_ok hparent]
    exact follow_cons_eq_ok_iff.2 ⟨hE.directories hd, .inr ⟨hdots, hlong, hne, rfl⟩⟩
  · rw [ht]
    exact Standing.of_eq_file_iff.1 hb

/-- Where a path could make a new entry and nothing stands, it finds nothing. -/
theorem entry_of_place_nothing {d : Disk} {p : Pathname} {u : FaultCause} {l : Location}
    (h : d.place p u = .ok l) (hs : d.standing l = .nothing) : d.entry p = .error .missing := by
  obtain ⟨hn, hname, hdots, hlong, dir, hf, hd, rfl⟩ := place_eq_ok_iff.1 h
  obtain ⟨entries, he⟩ := Standing.of_eq_directory_iff.1 hd
  have hnone : entries.lookup p.name = none := by
    have hlook := Standing.of_eq_nothing_iff.1 hs
    rw [Entry.at?_append, he] at hlook
    cases hl : entries.lookup p.name with
    | none => rfl
    | some e => simp [Entry.at?, hl] at hlook
  have hfollow : follow d.root (d.start p) p.names = .error .missing := by
    rw [names_eq_of_name_ne hname, follow_append_of_ok hf, follow, he]
    simp only [if_neg hdots, if_neg (Nat.not_lt.2 hlong), hnone]
    rfl
  rw [entry, locate_of_not_hasNull hn, hfollow]

/-- The system finds every fault of making an entry, unless a name holds a null byte. -/
theorem isSystem_of_place {d : Disk} {p : Pathname} {u c : FaultCause}
    (hn : hasNull p.names = false) (hu : u.isSystem = true) (h : d.place p u = .error c) :
    c.isSystem = true := by
  unfold place at h
  rw [hn] at h
  simp only [Bool.false_eq_true, if_false] at h
  split at h
  · rename_i hf
    rw [← Except.error.inj h]
    exact isSystem_of_follow hf
  · split at h
    · rw [← Except.error.inj h]; rfl
    · split at h
      · rw [← Except.error.inj h]; exact hu
      · split at h
        · rw [← Except.error.inj h]; rfl
        · exact nomatch h

theorem place_of_hasNull {d : Disk} {p : Pathname} (u : FaultCause)
    (hn : hasNull p.names = true) : d.place p u = .error .nullByte := by
  rw [place, hn]
  rfl

end Disk

end SchemaTypes
