/-
# What stands at a location

A disk seen from outside: at each location stands nothing, a directory, or a file with its bytes
(`Disk.standing`).  Two disks with the same view answer every question about a path alike, and
every operation is described by what it does to the view:

* `Disk.standing_put`, `Disk.standing_remove`: setting or removing an entry changes the view at
  its location and nowhere else, as long as no directory with entries goes or comes;
* `Disk.Edit`: between two disks only some locations had their bytes changed, nothing that stood
  there vanished, and what is new elsewhere is a directory.  Edits compose (`Edit.trans`);
* `Disk.Puts`: between two disks a file is put at one location, and nothing else changes;
* `Disk.Lays`: between two disks contents are put at their places in order, and each place has the
  last of its contents (`Disk.LaysOnly.same_iff`: when putting contents once more changes nothing).
-/
import Mathlib
import SchemaTypes.Files.Disk

namespace SchemaTypes

/-- What stands at a location. -/
inductive Standing where
  | nothing
  | directory
  | file (bytes : ByteArray)

namespace Standing

/-- What a look-up has found. -/
def of : Option Entry → Standing
  | none => .nothing
  | some (.directory _) => .directory
  | some (.file bytes) => .file bytes

/-- Both are nothing, both are directories, or both are files. -/
def SameKind : Standing → Standing → Prop
  | .nothing, .nothing => True
  | .directory, .directory => True
  | .file _, .file _ => True
  | _, _ => False

theorem SameKind.refl : ∀ s : Standing, s.SameKind s
  | .nothing => trivial
  | .directory => trivial
  | .file _ => trivial

theorem SameKind.trans : ∀ {s t u : Standing}, s.SameKind t → t.SameKind u → s.SameKind u
  | .nothing, .nothing, .nothing, _, _ => trivial
  | .directory, .directory, .directory, _, _ => trivial
  | .file _, .file _, .file _, _, _ => trivial

theorem SameKind.eq_directory : ∀ {s : Standing}, s.SameKind .directory → s = .directory
  | .directory, _ => rfl

theorem SameKind.ne_nothing : ∀ {s t : Standing}, s.SameKind t → t ≠ .nothing → s ≠ .nothing
  | .directory, .directory, _, h => h
  | .file _, .file _, _, _ => fun h => nomatch h
  | .nothing, .nothing, _, h => h

theorem of_eq_nothing_iff {e : Option Entry} : of e = .nothing ↔ e = none := by
  rcases e with _ | (_ | _) <;> simp [of]

theorem of_eq_directory_iff {e : Option Entry} :
    of e = .directory ↔ ∃ entries, e = some (.directory entries) := by
  rcases e with _ | (_ | _) <;> simp [of]

theorem of_eq_file_iff {e : Option Entry} {bytes : ByteArray} :
    of e = .file bytes ↔ e = some (.file bytes) := by
  rcases e with _ | (_ | _) <;> simp [of]

end Standing

/-! ## 1. Trees -/

namespace Entry

/-- What stands at a location of a tree. -/
def standing (e : Entry) (l : Location) : Standing := .of (e.at? l)

/-- A new entry that brings nothing in it. -/
def Bare (new : Option Entry) : Prop := ∀ entries, new = some (.directory entries) → entries = []

theorem bare_none : Bare none := fun _ h => nomatch h

theorem bare_file (bytes : ByteArray) : Bare (some (.file bytes)) := fun _ h => nomatch h

theorem bare_directory : Bare (some (.directory [])) := fun _ h => by
  injection h with h
  injection h with h
  exact h.symm

/-- Below a bare entry stands nothing. -/
theorem bind_at?_of_bare {new : Option Entry} (h : Bare new) (name : String) (l : Location) :
    (new.bind (at? (name :: l))) = none := by
  rcases new with _ | (bytes | entries)
  · rfl
  · rfl
  · have he : entries = [] := h entries rfl
    subst he
    rfl

/-- Below what is no directory stands nothing. -/
theorem bind_at?_of_ne_directory {e : Option Entry} (h : Standing.of e ≠ .directory)
    (name : String) (l : Location) : (e.bind (at? (name :: l))) = none := by
  rcases e with _ | (bytes | entries)
  · rfl
  · rfl
  · exact absurd rfl h

theorem standing_cons (name : String) (l : Location) (entries : List (String × Entry)) :
    (Entry.directory entries).standing (name :: l)
      = .of ((entries.lookup name).bind (at? l)) := rfl

/-- A change below an entry of a directory is a change of that entry. -/
theorem set_cons_of_lookup {new : Option Entry} {name : String} {l : Location} {e : Entry}
    {entries : List (String × Entry)} (hl : l ≠ []) (he : entries.lookup name = some e) :
    set new (name :: l) (.directory entries)
      = .directory (Dictionary.put name (set new l e) entries) := by
  cases l with
  | nil => exact absurd rfl hl
  | cons next rest => simp only [set, he]

/-- **A change of one entry changes the view at its location and nowhere else.**  The directory of
the location exists, and no directory with entries goes or comes. -/
theorem standing_set {new : Option Entry} (hb : Bare new) (name : String) (dir : Location)
    (e : Entry) (l : Location) (hdir : e.standing dir = .directory)
    (hold : e.standing (dir ++ [name]) ≠ .directory) :
    (e.set new (dir ++ [name])).standing l
      = if l = dir ++ [name] then .of new else e.standing l := by
  induction dir generalizing e l with
  | nil =>
    obtain ⟨entries, he⟩ := Standing.of_eq_directory_iff.1 hdir
    obtain rfl : e = .directory entries := Option.some.inj he
    rw [List.nil_append, standing_cons] at hold
    cases l with
    | nil => rfl
    | cons n r =>
      rw [List.nil_append, set, standing_cons, standing_cons]
      by_cases hn : n = name
      · subst hn
        rw [Dictionary.lookup_assign_self]
        cases r with
        | nil => cases new <;> simp [at?]
        | cons m r =>
          have hold' : Standing.of (entries.lookup n) ≠ .directory := by
            cases h : entries.lookup n with
            | none =>
              intro h
              cases h
            | some e => simpa [h, at?] using hold
          rw [bind_at?_of_bare hb, bind_at?_of_ne_directory hold']
          simp
      · rw [Dictionary.lookup_assign_of_ne hn, if_neg (by simp [hn])]
  | cons first dir ih =>
    cases e with
    | file bytes => cases hdir
    | directory entries =>
      rw [standing_cons] at hdir
      cases he : entries.lookup first with
      | none =>
        rw [he] at hdir
        cases hdir
      | some inner =>
        rw [he] at hdir
        rw [List.cons_append, standing_cons, he] at hold
        rw [List.cons_append, set_cons_of_lookup (by simp) he]
        cases l with
        | nil => rfl
        | cons n r =>
          rw [standing_cons, standing_cons]
          by_cases hn : n = first
          · subst hn
            rw [Dictionary.lookup_put_self, he]
            have := ih inner r hdir hold
            simpa [standing] using this
          · rw [Dictionary.lookup_put_of_ne hn, if_neg (by simp [hn])]

end Entry

/-! ## 2. Disks -/

namespace Disk

/-- What stands at a location of a disk. -/
def standing (d : Disk) (l : Location) : Standing := d.root.standing l

/-- A bare entry can be set or removed at a location: its directory is there, and it is no
directory itself. -/
structure Free (d : Disk) (l : Location) : Prop where
  parent : ∃ dir name, l = dir ++ [name] ∧ d.standing dir = .directory
  self : d.standing l ≠ .directory

/-- Setting a bare entry changes the view at its location and nowhere else. -/
theorem standing_put {d : Disk} {l : Location} {new : Entry} (hf : d.Free l)
    (hb : Entry.Bare (some new)) (l' : Location) :
    (d.put l new).standing l' = if l' = l then .of (some new) else d.standing l' := by
  obtain ⟨dir, name, rfl, hdir⟩ := hf.parent
  exact Entry.standing_set hb name dir d.root l' hdir hf.self

/-- Removing a file changes the view at its location and nowhere else. -/
theorem standing_remove {d : Disk} {l : Location} (hf : d.Free l) (l' : Location) :
    (d.remove l).standing l' = if l' = l then .nothing else d.standing l' := by
  obtain ⟨dir, name, rfl, hdir⟩ := hf.parent
  exact Entry.standing_set Entry.bare_none name dir d.root l' hdir hf.self

/-- A location is free on a disk with the same view of it and of its directory. -/
theorem Free.of_standing {d d' : Disk} {l : Location} (h : d.Free l)
    (hdirs : ∀ l', d.standing l' = .directory → d'.standing l' = .directory)
    (hself : d'.standing l ≠ .directory) : d'.Free l := by
  obtain ⟨dir, name, rfl, hdir⟩ := h.parent
  exact ⟨⟨dir, name, rfl, hdirs dir hdir⟩, hself⟩

/-! ## 3. Edits -/

/-- Between two disks nothing that stands somewhere vanishes or becomes of another kind, and
outside of some locations all that is new is directories. -/
structure Edit (changed : Location → Prop) (d d' : Disk) : Prop where
  directory : d'.directory = d.directory
  kept : ∀ l, d.standing l ≠ .nothing → (d'.standing l).SameKind (d.standing l)
  frame : ∀ l, ¬ changed l →
    d'.standing l = d.standing l ∨ d.standing l = .nothing ∧ d'.standing l = .directory

namespace Edit

variable {P Q : Location → Prop} {d d' d'' : Disk}

theorem refl (P : Location → Prop) (d : Disk) : Edit P d d :=
  ⟨rfl, fun _ _ => .refl _, fun _ _ => .inl rfl⟩

/-- An edit may be said to change more. -/
theorem mono (h : Edit P d d') (hPQ : ∀ l, P l → Q l) : Edit Q d d' :=
  ⟨h.directory, h.kept, fun l hl => h.frame l fun hp => hl (hPQ l hp)⟩

/-- Directories stay directories. -/
theorem directories (h : Edit P d d') {l : Location} (hl : d.standing l = .directory) :
    d'.standing l = .directory := by
  have hk := h.kept l (by rw [hl]; exact fun e => nomatch e)
  rw [hl] at hk
  exact hk.eq_directory

/-- What stands somewhere goes on standing. -/
theorem ne_nothing (h : Edit P d d') {l : Location} (hl : d.standing l ≠ .nothing) :
    d'.standing l ≠ .nothing :=
  (h.kept l hl).ne_nothing hl

/-- A file outside of the changed locations keeps its bytes. -/
theorem file (h : Edit P d d') {l : Location} (hl : ¬ P l) {bytes : ByteArray}
    (hb : d.standing l = .file bytes) : d'.standing l = .file bytes := by
  rcases h.frame l hl with he | ⟨hn, _⟩
  · rw [he, hb]
  · rw [hb] at hn
    exact nomatch hn

/-- **Edits compose.**  What either of them changes is changed by both together. -/
theorem trans (h : Edit P d d') (h' : Edit P d' d'') : Edit P d d'' := by
  refine ⟨h'.directory.trans h.directory, fun l hl => ?_, fun l hl => ?_⟩
  · exact (h'.kept l (h.ne_nothing hl)).trans (h.kept l hl)
  · rcases h.frame l hl with he | ⟨hn, hd⟩
    · rcases h'.frame l hl with he' | ⟨hn', hd'⟩
      · exact .inl (he'.trans he)
      · exact .inr ⟨he ▸ hn', hd'⟩
    · exact .inr ⟨hn, h'.directories hd⟩

/-- The same view is an edit of nothing. -/
theorem of_same (hd : d'.directory = d.directory) (hs : ∀ l, d'.standing l = d.standing l) :
    Edit P d d' := by
  refine ⟨hd, fun l _ => ?_, fun l _ => .inl (hs l)⟩
  rw [hs]
  exact .refl _

/-- A new directory where nothing stands changes no bytes at all. -/
theorem put_directory {l : Location} (hf : d.Free l) (hn : d.standing l = .nothing) :
    Edit (fun _ => False) d (d.put l (.directory [])) := by
  have hs := standing_put hf Entry.bare_directory
  refine ⟨rfl, fun l' hl' => ?_, fun l' _ => ?_⟩
  · rw [hs, if_neg fun he : l' = l => hl' (he ▸ hn)]
    exact .refl _
  · rw [hs]
    split
    · rename_i he
      exact .inr ⟨he ▸ hn, rfl⟩
    · exact .inl rfl

end Edit

/-! ## 4. Putting a file -/

/-- Between two disks a file is put at a location, and nothing else changes. -/
structure Puts (l : Location) (bytes : ByteArray) (d d' : Disk) : Prop where
  directory : d'.directory = d.directory
  standing : ∀ l', d'.standing l' = if l' = l then .file bytes else d.standing l'

namespace Puts

variable {l : Location} {bytes : ByteArray} {d d' : Disk}

/-- The file stands there. -/
theorem self (h : Puts l bytes d d') : d'.standing l = .file bytes :=
  (h.standing l).trans (if_pos rfl)

theorem other (h : Puts l bytes d d') {l' : Location} (hne : l' ≠ l) :
    d'.standing l' = d.standing l' :=
  (h.standing l').trans (if_neg hne)

/-- Setting a file puts it. -/
theorem put (hf : d.Free l) (bytes : ByteArray) : Puts l bytes d (d.put l (.file bytes)) :=
  ⟨rfl, standing_put hf (Entry.bare_file bytes)⟩

/-- A file that is put where no directory stands is an edit. -/
theorem edit (h : Puts l bytes d d') (hf : d.standing l ≠ .directory) : Edit (· = l) d d' := by
  refine ⟨h.directory, fun l' hl' => ?_, fun l' hne => .inl (h.other hne)⟩
  by_cases he : l' = l
  · subst he
    rw [h.self]
    cases hs : d.standing l' with
    | nothing => exact absurd hs hl'
    | directory => exact absurd hs hf
    | file => trivial
  · rw [h.other he]
    exact .refl _

/-- The place of a file that is put where nothing stood is free. -/
theorem free (h : Puts l bytes d d') (hf : d.Free l) : d'.Free l := by
  refine hf.of_standing (fun l' hl' => (h.edit hf.self).directories hl') ?_
  rw [h.self]
  exact fun h => nomatch h

/-- Once the file is removed again, everything is as it was. -/
theorem standing_remove (h : Puts l bytes d d') (hf : d.Free l) (hn : d.standing l = .nothing)
    (l' : Location) : (d'.remove l).standing l' = d.standing l' := by
  rw [Disk.standing_remove (h.free hf)]
  by_cases he : l' = l
  · rw [if_pos he, he, hn]
  · rw [if_neg he, h.other he]

/-- A file that is put beside its place, then at its place, and then removed beside it. -/
theorem move {t : Location} {d₂ : Disk} (h : Puts l bytes d d') (h₂ : Puts t bytes d' d₂)
    (hf : d.Free l) (hn : d.standing l = .nothing) (ht : d'.standing t ≠ .directory)
    (hne : t ≠ l) : Puts t bytes d (d₂.remove l) := by
  have hfree : d₂.Free l := by
    refine (h.free hf).of_standing (fun l' hl' => (h₂.edit ht).directories hl') ?_
    rw [h₂.other hne.symm, h.self]
    exact fun h => nomatch h
  refine ⟨h₂.directory.trans h.directory, fun l' => ?_⟩
  rw [Disk.standing_remove hfree]
  by_cases he : l' = l
  · rw [if_pos he, he, if_neg hne.symm, hn]
  · rw [if_neg he, h₂.standing, h.other he]

end Puts

/-! ## 5. Contents in order -/

section Contents

variable {l : Location} {c : String} {a b ws : List (Location × String)} {d d' d'' : Disk}

/-- The content that comes last at a location. -/
def last? (ws : List (Location × String)) (l : Location) : Option String := ws.reverse.lookup l

theorem last?_append (a b : List (Location × String)) (l : Location) :
    last? (a ++ b) l = (last? b l).or (last? a l) := by
  rw [last?, List.reverse_append, List.lookup_append]
  rfl

theorem mem_of_last? (h : last? ws l = some c) : (l, c) ∈ ws := by
  obtain ⟨before, after, heq, -⟩ := List.lookup_eq_some_iff.1 h
  exact List.mem_reverse.1 (heq ▸ List.mem_append_right before List.mem_cons_self)

theorem last?_eq_none_iff : last? ws l = none ↔ ∀ c, (l, c) ∉ ws := by
  rw [last?, List.lookup_eq_none_iff]
  constructor
  · intro h c hm
    simpa using h _ (List.mem_reverse.2 hm)
  · rintro h ⟨l', c⟩ hm
    have hne : l ≠ l' := by
      rintro rfl
      exact h c (List.mem_reverse.1 hm)
    simpa using hne

/-- The only content for a location comes last there. -/
theorem last?_eq_some_of_unique (h : (l, c) ∈ ws) (hunique : ∀ c', (l, c') ∈ ws → c' = c) :
    last? ws l = some c := by
  cases hlast : last? ws l with
  | none => exact absurd h (last?_eq_none_iff.1 hlast c)
  | some c' => rw [hunique c' (mem_of_last? hlast)]

/-- Between two disks contents are put at their places in order, and all else that is new is
directories. -/
structure Lays (ws : List (Location × String)) (d d' : Disk) : Prop where
  edit : Edit (fun l => ∃ c, (l, c) ∈ ws) d d'
  last : ∀ l c, last? ws l = some c → d'.standing l = .file c.toUTF8

/-- Contents are put at their places in order, and nothing else is new. -/
structure LaysOnly (ws : List (Location × String)) (d d' : Disk) : Prop extends Lays ws d d' where
  only : ∀ l, (∀ c, (l, c) ∉ ws) → d'.standing l = d.standing l

theorem Lays.of_grows (h : Edit (fun _ => False) d d') : Lays [] d d' :=
  ⟨h.mono fun _ h => h.elim, fun _ _ h => nomatch h⟩

theorem Lays.single (h : Edit (· = l) d d') (hs : d'.standing l = .file c.toUTF8) :
    Lays [(l, c)] d d' := by
  refine ⟨h.mono fun l' hl => ⟨c, hl ▸ List.mem_singleton_self _⟩, fun l' c' hl => ?_⟩
  cases List.mem_singleton.1 (mem_of_last? hl)
  exact hs

/-- Contents in two parts: what comes in the second part counts. -/
theorem Lays.append (h : Lays a d d') (h' : Lays b d' d'') : Lays (a ++ b) d d'' := by
  refine ⟨(h.edit.mono fun l ⟨c, hc⟩ => ⟨c, List.mem_append_left _ hc⟩).trans
    (h'.edit.mono fun l ⟨c, hc⟩ => ⟨c, List.mem_append_right _ hc⟩), fun l c hl => ?_⟩
  rw [last?_append] at hl
  cases hb : last? b l with
  | some c' =>
    rw [hb] at hl
    cases hl
    exact h'.last l c hb
  | none =>
    rw [hb] at hl
    exact h'.edit.file (fun ⟨c', hc'⟩ => last?_eq_none_iff.1 hb c' hc') (h.last l c hl)

theorem LaysOnly.nil (d : Disk) : LaysOnly [] d d :=
  ⟨.of_grows (.refl _ _), fun _ _ => rfl⟩

theorem LaysOnly.of_puts (h : Puts l c.toUTF8 d d') (hf : d.standing l ≠ .directory) :
    LaysOnly [(l, c)] d d' :=
  ⟨.single (h.edit hf) h.self,
    fun _ hl => h.other fun he => hl c (he ▸ List.mem_singleton_self _)⟩

theorem LaysOnly.append (h : LaysOnly a d d') (h' : LaysOnly b d' d'') :
    LaysOnly (a ++ b) d d'' := by
  refine ⟨h.toLays.append h'.toLays, fun l hl => ?_⟩
  rw [h'.only l fun c hc => hl c (List.mem_append_right _ hc),
    h.only l fun c hc => hl c (List.mem_append_left _ hc)]

/-- **Contents put once more change nothing** exactly if each place got its last content from
them the first time. -/
theorem LaysOnly.same_iff (h : Lays a d d') (h' : LaysOnly b d' d'')
    (hplaces : ∀ l c, (l, c) ∈ b → ∃ c', (l, c') ∈ a) :
    (∀ l, d''.standing l = d'.standing l) ↔
      ∀ l c, last? b l = some c → last? a l = some c := by
  constructor
  · intro hsame l c hb
    cases ha : last? a l with
    | none =>
      obtain ⟨c', hc'⟩ := hplaces l c (mem_of_last? hb)
      exact absurd hc' (last?_eq_none_iff.1 ha c')
    | some c' =>
      have hbytes := (h'.last l c hb).symm.trans ((hsame l).trans (h.last l c' ha))
      injection hbytes with hbytes
      rw [String.toByteArray_inj.1 hbytes]
  · intro hlast l
    cases hb : last? b l with
    | none => exact h'.only l (last?_eq_none_iff.1 hb)
    | some c => rw [h'.last l c hb, h.last l c (hlast l c hb)]

end Contents

end Disk

end SchemaTypes
