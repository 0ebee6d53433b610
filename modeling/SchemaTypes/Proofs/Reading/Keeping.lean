/-
# What reading keeps

`Outcome.Gives` is what an accepted value satisfies; it passes through a record field by field, and
the fields that do not matter are skipped (`Gives.skip`).  A reader keeps a property (`Keeps`) if it
gives it for every value that can be written in some room: what stands in such a value can be
written as well, so the readers of lists, maps and records keep what those of their parts keep.
-/
import SchemaTypes.Proofs.Data.Json
import SchemaTypes.Reading.Config

namespace SchemaTypes

namespace Reading

open Value (isWritable_iff isWritable_list_iff isWritable_map_iff isWritable_mono)

/-! ## 1. What is accepted -/

/-- What is accepted satisfies a predicate. -/
def Outcome.Gives (P : α → Prop) (x : Outcome α) : Prop := ∀ a, x = .accepted a → P a

namespace Outcome

variable {P : α → Prop}

theorem gives_accepted {a : α} (h : P a) : Gives P (accepted a) := by
  rintro _ ⟨⟩
  exact h

theorem gives_rejected (xs : List Issue) : Gives P (rejected xs) := fun _ h => nomatch h

theorem gives_broken (b : Breakage) : Gives P (broken b) := fun _ h => nomatch h

theorem gives_true (x : Outcome α) : Gives (fun _ => True) x := fun _ _ => trivial

theorem Gives.map {f : β → α} {x : Outcome β} (h : Gives (fun b => P (f b)) x) :
    Gives P (x.map f) := by
  cases x with
  | accepted b => exact gives_accepted (h b rfl)
  | rejected xs => exact gives_rejected xs
  | broken b => exact gives_broken b

theorem Gives.under {x : Outcome α} (h : Gives P x) (step : Step) : Gives P (x.under step) :=
  fun a ha => h a (under_eq_accepted.1 ha)

theorem Gives.andThen {Q : β → Prop} {x : Outcome β} {f : β → Outcome α} (h : Gives Q x)
    (hf : ∀ b, Q b → Gives P (f b)) : Gives P (x.andThen f) := by
  cases x with
  | accepted b => exact hf b (h b rfl)
  | rejected xs => exact gives_rejected xs
  | broken b => exact gives_broken b

theorem Gives.both {Q : β → Prop} {f : Outcome (β → α)} {x : Outcome β} (hx : Gives Q x)
    (hf : Gives (fun g => ∀ b, Q b → P (g b)) f) : Gives P (both f x) := by
  intro a h
  obtain ⟨g, b, rfl, rfl, rfl⟩ := both_eq_accepted h
  exact hf g rfl b (hx b rfl)

/-- A field of a record that matters. -/
theorem Gives.use {Q : β → Prop} {f : Outcome (β → α)} {x : Outcome β} (hx : Gives Q x)
    (hf : Gives (fun g => ∀ b, Q b → P (g b)) f) : Gives P (f <*> x) := hx.both hf

/-- A field of a record that does not matter. -/
theorem Gives.skip {f : Outcome (β → α)} {x : Outcome β} (hf : Gives (fun g => ∀ b, P (g b)) f) :
    Gives P (f <*> x) := by
  refine (gives_true x).both fun g hg b _ => ?_
  exact hf g hg b

/-- The first field of a record, which does not matter. -/
theorem gives_first {f : β → α} (x : Outcome β) (h : ∀ b, P (f b)) : Gives P (f <$> x) :=
  Gives.map fun b _ => h b

/-- Every item of a list. -/
theorem gives_all {xs : List (Outcome α)} (h : ∀ x ∈ xs, Gives P x) :
    Gives (fun l => ∀ a ∈ l, P a) (all xs) := by
  induction xs with
  | nil => exact gives_accepted fun _ h => nomatch h
  | cons x rest ih =>
    have hx : Gives P x := h x List.mem_cons_self
    have hrest := ih fun y hy => h y (List.mem_cons_of_mem _ hy)
    refine Gives.both hrest (Gives.map fun a ha l hl b hb => ?_)
    rcases List.mem_cons.1 hb with rfl | hb
    · exact hx _ ha
    · exact hl b hb

end Outcome

open Outcome (Gives)

/-! ## 2. Parts of values that can be written -/

/-- The entries can be written where at most `n` collections may stand inside each other. -/
def AreWritable (n : Nat) (es : Entries) : Prop :=
  ∀ e ∈ es, e.1.hasJson = true ∧ e.2.isWritable n = true

theorem AreWritable.map {n : Nat} {es : Entries} (h : AreWritable n es) :
    (Value.map es).isWritable (n + 1) = true :=
  isWritable_map_iff.2 ⟨n, rfl, h⟩

/-- What stands under a name can be written. -/
theorem AreWritable.entry {n : Nat} {es : Entries} (h : AreWritable n es) {name : String}
    {v : Value} (hv : Value.entry? name es = some v) : v.isWritable n = true := by
  obtain ⟨e, he, rfl⟩ := Option.map_eq_some_iff.1 hv
  exact (h e (List.mem_of_find?_eq_some he)).2

theorem isWritable_of_entry {room : Nat} {es : Entries}
    (h : (Value.map es).isWritable room = true) {name : String} {v : Value}
    (hv : Value.entry? name es = some v) : v.isWritable room = true := by
  obtain ⟨n, rfl, hes⟩ := isWritable_map_iff.1 h
  exact isWritable_mono (Nat.le_succ n) (AreWritable.entry hes hv)

theorem isWritable_of_find? {room : Nat} {f : FieldName} {es : Entries}
    (h : (Value.map es).isWritable room = true) {spelling : String} {v : Value}
    (hv : f.find? es = some (spelling, v)) : v.isWritable room = true := by
  unfold FieldName.find? at hv
  split at hv
  · rename_i w hw
    cases hv
    exact isWritable_of_entry h hw
  · obtain ⟨w, hw, he⟩ := Option.map_eq_some_iff.1 hv
    cases he
    exact isWritable_of_entry h hw

theorem AreWritable.putEntry {n : Nat} {es : Entries} (h : AreWritable n es) {k : Key} {v : Value}
    (hk : k.hasJson = true) (hv : v.isWritable n = true) : AreWritable n (putEntry k v es) := by
  induction es with
  | nil => exact List.forall_mem_singleton.2 ⟨hk, hv⟩
  | cons e rest ih =>
    obtain ⟨hfirst, hrest⟩ := List.forall_mem_cons.1 h
    obtain ⟨k', w⟩ := e
    unfold SchemaTypes.putEntry
    split
    · exact List.forall_mem_cons.2 ⟨⟨hfirst.1, hv⟩, hrest⟩
    · exact List.forall_mem_cons.2 ⟨hfirst, ih hrest⟩

/-- A key that can be written is a value that can be. -/
theorem isWritable_value {k : Key} (h : k.hasJson = true) (n : Nat) :
    k.value.isWritable n = true := by
  refine isWritable_iff.2 ⟨?_, by cases k <;> simp [Key.value, Value.fits]⟩
  cases k with
  | int i => exact h
  | halfText | stamp _ | bytes _ => exact nomatch h
  | _ => rfl

theorem hasJson_of_key? {v : Value} (h : v.hasJson = true) {k : Key} (hk : v.key? = some k) :
    k.hasJson = true := by
  cases v with
  | int i =>
    cases hk
    exact h
  | halfText | stamp _ | bytes _ => exact nomatch h
  | list _ | pair _ _ | set _ | map _ | endless => exact nomatch hk
  | _ =>
    cases hk
    rfl

/-! ## 3. Readers -/

/-- From a value that can be written in some room a reader accepts only what satisfies a
predicate. -/
def Keeps (room : Nat) (P : α → Prop) (r : Reader α) : Prop :=
  ∀ v : Value, v.isWritable room = true → Gives P (r v)

section Readers

variable {room : Nat} {P : α → Prop} {r : Reader α}

theorem Keeps.mono {m n : Nat} (h : Keeps n P r) (hmn : m ≤ n) : Keeps m P r :=
  fun v hv => h v (isWritable_mono hmn hv)

theorem Keeps.imp {Q : α → Prop} (h : Keeps room P r) (hPQ : ∀ a, P a → Q a) : Keeps room Q r :=
  fun v hv a ha => hPQ a (h v hv a ha)

theorem keeps_anything : Keeps room (fun v => v.isWritable room = true) anything :=
  fun _ hv => Outcome.gives_accepted hv

theorem Keeps.optional (h : Keeps room P r) : Keeps room (fun o => ∀ a ∈ o, P a) (optional r) := by
  intro v hv
  have hmap : Gives (fun o => ∀ a ∈ o, P a) ((r v).map some) := by
    refine Gives.map fun a ha b hb => ?_
    obtain rfl := Option.mem_some.1 hb
    exact h v hv _ ha
  cases v with
  | null => exact Outcome.gives_accepted fun _ hb => nomatch hb
  | _ => exact hmap

theorem gives_itemsFrom {items : List Value} (h : ∀ v ∈ items, Gives P (r v)) (start : Nat) :
    ∀ x ∈ itemsFrom r start items, Gives P x := by
  induction items generalizing start with
  | nil => exact fun _ hx => nomatch hx
  | cons item rest ih =>
    obtain ⟨hfirst, hrest⟩ := List.forall_mem_cons.1 h
    exact List.forall_mem_cons.2 ⟨hfirst.under _, ih hrest (start + 1)⟩

/-- The items of a list or a pair can be written if it can be. -/
theorem isWritable_of_itemsOf? {v : Value} (hv : v.isWritable room = true) {items : List Value}
    (h : itemsOf? v = some items) : ∀ w ∈ items, w.isWritable room = true := by
  cases v with
  | list items' =>
    cases h
    obtain ⟨n, rfl, hitems⟩ := isWritable_list_iff.1 hv
    exact fun w hw => isWritable_mono (Nat.le_succ n) (hitems w hw)
  | pair a b =>
    cases h
    cases room with
    | zero => simp [isWritable_iff, Value.fits] at hv
    | succ n =>
      simp only [isWritable_iff, Value.hasJson, Value.fits, Bool.and_eq_true] at hv
      have hmono {w : Value} (hjson : w.hasJson = true) (hfits : w.fits n = true) :=
        isWritable_mono (Nat.le_succ n) (isWritable_iff.2 ⟨hjson, hfits⟩)
      simp [hmono hv.1.1 hv.2.1, hmono hv.1.2 hv.2.2]
  | set members => exact nomatch (isWritable_iff.1 hv).1
  | _ => exact nomatch h

theorem Keeps.list (h : Keeps room P r) : Keeps room (fun l => ∀ a ∈ l, P a) (list r) := by
  intro v hv
  unfold Reading.list
  split
  · next items hitems =>
    have hparts := isWritable_of_itemsOf? hv hitems
    exact Outcome.gives_all (gives_itemsFrom (fun w hw => h w (hparts w hw)) 0)
  · exact Outcome.gives_rejected _

theorem gives_entryOutcomes {es : Entries} (h : ∀ e ∈ es, Gives P (r e.2)) :
    ∀ x ∈ entryOutcomes r es, Gives (fun e : String × α => P e.2) x := by
  induction es with
  | nil => exact fun _ hx => nomatch hx
  | cons e rest ih =>
    obtain ⟨hfirst, hrest⟩ := List.forall_mem_cons.1 h
    exact List.forall_mem_cons.2
      ⟨Gives.both (hfirst.under _) (Gives.map fun name _ a ha => ha), ih hrest⟩

/-- The values of a map are read in the room that the map leaves. -/
theorem Keeps.map_succ {n : Nat} (h : Keeps n P r) :
    Keeps (n + 1) (fun l => ∀ e ∈ l, P e.2) (map r) := by
  intro v hv
  cases v with
  | map es =>
    obtain ⟨m, hm, hes⟩ := isWritable_map_iff.1 hv
    obtain rfl := Nat.succ.inj hm
    exact Outcome.gives_all (gives_entryOutcomes fun e he => h e.2 (hes e he).2)
  | _ => exact Outcome.gives_rejected _

theorem Keeps.map (h : Keeps room P r) : Keeps room (fun l => ∀ e ∈ l, P e.2) (map r) :=
  (h.map_succ).mono (Nat.le_succ room)

theorem Keeps.fieldOr (h : Keeps room P r) {absent : α} (ha : P absent) (f : FieldName)
    {es : Entries} (hes : (Value.map es).isWritable room = true) :
    Gives P (fieldOr f absent r es) := by
  unfold Reading.fieldOr
  cases hf : f.find? es with
  | none => exact Outcome.gives_accepted ha
  | some e => exact (h e.2 (isWritable_of_find? hes hf)).under _

theorem Keeps.fieldOpt (h : Keeps room P r) (f : FieldName) {es : Entries}
    (hes : (Value.map es).isWritable room = true) :
    Gives (fun o => ∀ a ∈ o, P a) (fieldOpt f r es) :=
  h.optional.fieldOr (fun _ hb => (Option.not_mem_none _ hb).elim) f hes

theorem keeps_record {r : Entries → Outcome α}
    (h : ∀ es, (Value.map es).isWritable room = true → Gives P (r es)) :
    Keeps room P (record r) := by
  intro v hv
  cases v with
  | map es => exact h es hv
  | _ => exact Outcome.gives_rejected _

end Readers

/-! ## 4. Records by name -/

theorem gives_keyedList {n : Nat} {items : List Value} {done : Entries}
    (hdone : AreWritable n done) (hitems : ∀ v ∈ items, v.isWritable n = true) :
    Gives (AreWritable n) (keyedList done items) := by
  induction items generalizing done with
  | nil => exact Outcome.gives_accepted hdone
  | cons item rest ih =>
    obtain ⟨hitem, hrest⟩ := List.forall_mem_cons.1 hitems
    cases item with
    | map es =>
      rw [keyedList]
      cases hname : Value.entry? "name" es with
      | none => exact Outcome.gives_rejected _
      | some name =>
        simp only []
        cases hk : name.key? with
        | none => exact Outcome.gives_broken _
        | some k =>
          have hkey := hasJson_of_key? (isWritable_iff.1 (isWritable_of_entry hitem hname)).1 hk
          exact ih (hdone.putEntry hkey hitem) hrest
    | _ => exact ih hdone hrest

theorem isWritable_named {n : Nat} {e : Key × Value} (hk : e.1.hasJson = true)
    (hv : e.2.isWritable n = true) :
    (named e).1.hasJson = true ∧ (named e).2.isWritable n = true := by
  obtain ⟨k, v⟩ := e
  cases v with
  | map es =>
    rw [named]
    split
    · exact ⟨hk, hv⟩
    · obtain ⟨m, rfl, hes⟩ := isWritable_map_iff.1 hv
      refine ⟨hk, isWritable_map_iff.2 ⟨m, rfl, fun e he => ?_⟩⟩
      rcases List.mem_append.1 he with he | he
      · exact hes e he
      · rw [List.mem_singleton.1 he]
        exact ⟨rfl, isWritable_value hk m⟩
  | _ => exact ⟨hk, hv⟩

theorem keeps_keyedByName {room : Nat} :
    Keeps room (fun v => v.isWritable room = true) keyedByName := by
  intro v hv
  cases v with
  | list items =>
    obtain ⟨n, rfl, hitems⟩ := isWritable_list_iff.1 hv
    have hnone : AreWritable n [] := fun _ he => (List.not_mem_nil he).elim
    refine Gives.map fun es hes => AreWritable.map ?_
    exact gives_keyedList hnone hitems es hes
  | map es =>
    obtain ⟨n, rfl, hes⟩ := isWritable_map_iff.1 hv
    refine Outcome.gives_accepted (isWritable_map_iff.2 ⟨n, rfl, fun e he => ?_⟩)
    obtain ⟨e', he', rfl⟩ := List.mem_map.1 he
    exact isWritable_named (hes e' he').1 (hes e' he').2
  | _ => exact Outcome.gives_accepted hv

theorem Keeps.byName {room : Nat} {P : α → Prop} {r : Reader α} (h : Keeps room P r) :
    Keeps room (fun l => ∀ e ∈ l, P e.2) (byName r) := fun v hv =>
  (keeps_keyedByName v hv).andThen fun w hw => h.map w hw

end Reading

end SchemaTypes
