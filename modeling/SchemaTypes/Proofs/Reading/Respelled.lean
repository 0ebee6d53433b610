/-
# Respelled records

A record may be written with either spelling of each of its fields.  `Respelled` says what
rewriting the spellings of a record changes and what it keeps: a key that spells a field becomes
another spelling of that field, with a value that may be rewritten in turn, and every other entry
stays.  The record gives none of its fields twice.

Two respelled records hold the same in each field (`agree_of_respelledEntries`), and that is all
that reading looks at: a reader *overlooks* a rewriting when it reads the value before and the
value after alike, up to places (`Overlooks`).
-/
import SchemaTypes.Proofs.Reading.Unplaced

namespace SchemaTypes.Reading

/-! ## 1. Rewritings -/

/-- A way to rewrite values: a value before and after. -/
abbrev Rewriting := Value → Value → Prop

/-- The items of a list are rewritten, or the values of a map whose keys are names of its own. -/
inductive Each (R : Rewriting) : Rewriting where
  | same (v : Value) : Each R v v
  | list {items items' : List Value} (h : List.Forall₂ R items items') :
      Each R (.list items) (.list items')
  | pair {a b a' b' : Value} (ha : R a a') (hb : R b b') : Each R (.pair a b) (.pair a' b')
  | map {es es' : Entries} (h : List.Forall₂ (fun e e' => e.1 = e'.1 ∧ R e.2 e'.2) es es') :
      Each R (.map es) (.map es')

namespace FieldName

/-- The key is a spelling of the field. -/
def Spells (f : FieldName) (k : Key) : Prop := k = .text f.first ∨ k = .text f.second

instance (f : FieldName) (k : Key) : Decidable (f.Spells k) :=
  inferInstanceAs (Decidable (_ ∨ _))

/-- Two fields share no spelling. -/
def Apart (f g : FieldName) : Prop :=
  (f.first ≠ g.first ∧ f.first ≠ g.second) ∧ f.second ≠ g.first ∧ f.second ≠ g.second

instance (f g : FieldName) : Decidable (f.Apart g) := inferInstanceAs (Decidable (_ ∧ _))

theorem Apart.symm {f g : FieldName} (h : f.Apart g) : g.Apart f :=
  ⟨⟨h.1.1.symm, h.2.1.symm⟩, h.1.2.symm, h.2.2.symm⟩

/-- The field is given under one spelling at most. -/
def GivenOnce (f : FieldName) (es : Entries) : Prop := es.countP (fun e => f.Spells e.1) ≤ 1

instance (f : FieldName) (es : Entries) : Decidable (f.GivenOnce es) :=
  inferInstanceAs (Decidable (_ ≤ _))

end FieldName

/-- The fields of a record, each with the way in which its value is rewritten. -/
structure Fields where
  list : List (FieldName × Rewriting)
  apart : list.Pairwise fun f g => f.1.Apart g.1

variable {fs : Fields}

/-- An entry of a record before and after. -/
inductive RespelledEntry (fs : Fields) : Key × Value → Key × Value → Prop where
  | other {k : Key} {v : Value} (h : ∀ f ∈ fs.list, ¬ f.1.Spells k) :
      RespelledEntry fs (k, v) (k, v)
  | field {f : FieldName} {R : Rewriting} {k k' : Key} {v v' : Value} (hf : (f, R) ∈ fs.list)
      (hk : f.Spells k) (hk' : f.Spells k') (hv : R v v') : RespelledEntry fs (k, v) (k', v')

/-- A field under its second spelling is given under its first. -/
theorem RespelledEntry.second_first (f : FieldName) {R : Rewriting} {v v' : Value}
    (hf : (f, R) ∈ fs.list) (hv : R v v') :
    RespelledEntry fs (.text f.second, v) (.text f.first, v') := .field hf (.inr rfl) (.inl rfl) hv

/-- A field of one word keeps its spelling. -/
theorem RespelledEntry.word (name : String) {R : Rewriting} {v v' : Value}
    (hf : (word name, R) ∈ fs.list) (hv : R v v') :
    RespelledEntry fs (.text name, v) (.text name, v') := .field hf (.inl rfl) (.inl rfl) hv

/-- A record with some of its fields respelled. -/
inductive Respelled (fs : Fields) : Rewriting where
  | same (v : Value) : Respelled fs v v
  | map {es es' : Entries} (once : ∀ f ∈ fs.list, f.1.GivenOnce es)
      (h : List.Forall₂ (RespelledEntry fs) es es') : Respelled fs (.map es) (.map es')

/-! ## 2. What the fields hold -/

/-- A spelling belongs to one field. -/
theorem Fields.eq_of_spells {f g : FieldName × Rewriting} {k : Key} (hf : f ∈ fs.list)
    (hg : g ∈ fs.list) (hfk : f.1.Spells k) (hgk : g.1.Spells k) : f = g := by
  by_contra hne
  have : Std.Symm fun f g : FieldName × Rewriting => f.1.Apart g.1 := ⟨fun _ _ h => h.symm⟩
  have hapart := fs.apart.forall hf hg hne
  rcases hfk with rfl | rfl <;> rcases hgk with h | h
  · exact hapart.1.1 (Key.text.inj h)
  · exact hapart.1.2 (Key.text.inj h)
  · exact hapart.2.1 (Key.text.inj h)
  · exact hapart.2.2 (Key.text.inj h)

theorem RespelledEntry.spells_iff {e e' : Key × Value} (h : RespelledEntry fs e e')
    {f : FieldName × Rewriting} (hf : f ∈ fs.list) : f.1.Spells e.1 ↔ f.1.Spells e'.1 := by
  cases h with
  | other _ => exact Iff.rfl
  | field hg hk hk' _ =>
    exact ⟨fun h => Fields.eq_of_spells hf hg h hk ▸ hk',
      fun h => Fields.eq_of_spells hf hg h hk' ▸ hk⟩

/-- The values of a field before and after. -/
theorem RespelledEntry.rewritten {e e' : Key × Value} (h : RespelledEntry fs e e')
    {f : FieldName × Rewriting} (hf : f ∈ fs.list) (hk : f.1.Spells e.1) : f.2 e.2 e'.2 := by
  cases h with
  | other hnot => exact absurd hk (hnot f hf)
  | field hg hgk _ hv => exact Fields.eq_of_spells hf hg hk hgk ▸ hv

namespace FieldName

theorem value?_eq_none {f : FieldName} {es : Entries} (h : ∀ e ∈ es, ¬ f.Spells e.1) :
    f.value? es = none := by
  induction es with
  | nil => rfl
  | cons e rest ih =>
    obtain ⟨k, v⟩ := e
    have hk := h _ List.mem_cons_self
    rw [← ih fun e he => h e (List.mem_cons_of_mem _ he), value?, value?, entry?_cons, entry?_cons,
      if_neg fun heq => hk (.inl heq), if_neg fun heq => hk (.inr heq)]

theorem GivenOnce.tail {f : FieldName} {e : Key × Value} {es : Entries}
    (h : f.GivenOnce (e :: es)) : f.GivenOnce es := by
  rw [GivenOnce, List.countP_cons] at h
  exact le_trans (Nat.le_add_right _ _) h

/-- After an entry that gives the field, no entry does. -/
theorem GivenOnce.not_spells {f : FieldName} {e : Key × Value} {es : Entries}
    (h : f.GivenOnce (e :: es)) (he : f.Spells e.1) : ∀ e ∈ es, ¬ f.Spells e.1 := by
  rw [GivenOnce, List.countP_cons_of_pos (by simpa using he)] at h
  have hzero : es.countP (fun e => f.Spells e.1) = 0 := by omega
  simpa [List.countP_eq_zero] using hzero

/-- A field that is given once holds the value of the entry that gives it. -/
theorem value?_cons {f : FieldName} {e : Key × Value} {es : Entries} (h : f.GivenOnce (e :: es)) :
    f.value? (e :: es) = if f.Spells e.1 then some e.2 else f.value? es := by
  obtain ⟨k, v⟩ := e
  by_cases hk : f.Spells k
  · have hrest := h.not_spells hk
    have hnone : ∀ name, f.Spells (.text name) → Value.entry? name es = none := by
      intro name hname
      have := value?_eq_none (f := word name) fun e he heq => hrest e he (by
        rcases heq with heq | heq <;> exact heq ▸ hname)
      simpa using this
    rw [if_pos hk, value?, entry?_cons, entry?_cons, hnone _ (.inl rfl), hnone _ (.inr rfl)]
    rcases hk with rfl | rfl
    · rw [if_pos rfl]
      rfl
    · rw [if_pos rfl]
      split <;> rfl
  · rw [if_neg hk, value?, entry?_cons, entry?_cons, if_neg fun heq => hk (.inl heq),
      if_neg fun heq => hk (.inr heq)]
    rfl

end FieldName

theorem givenOnce_of_respelledEntries {es es' : Entries}
    (h : List.Forall₂ (RespelledEntry fs) es es') {f : FieldName × Rewriting} (hf : f ∈ fs.list)
    (once : f.1.GivenOnce es) : f.1.GivenOnce es' := by
  have hcount : es.countP (fun e => f.1.Spells e.1) = es'.countP (fun e => f.1.Spells e.1) := by
    induction h with
    | nil => rfl
    | cons he _ ih =>
      rw [List.countP_cons, List.countP_cons, ih once.tail,
        decide_eq_decide.2 (he.spells_iff hf)]
  rw [FieldName.GivenOnce, ← hcount]
  exact once

/-- Each field holds in the one what it holds in the other, rewritten. -/
def Agree (fs : Fields) (es es' : Entries) : Prop :=
  ∀ f ∈ fs.list, Option.Rel f.2 (f.1.value? es) (f.1.value? es')

/-- **Respelled records agree.** -/
theorem agree_of_respelledEntries {es es' : Entries} (once : ∀ f ∈ fs.list, f.1.GivenOnce es)
    (h : List.Forall₂ (RespelledEntry fs) es es') : Agree fs es es' := by
  intro f hf
  induction h with
  | nil => exact .none
  | @cons e e' rest rest' he hrest ih =>
    have honce' := givenOnce_of_respelledEntries (.cons he hrest) hf (once f hf)
    rw [FieldName.value?_cons (once f hf), FieldName.value?_cons honce']
    -- Either both entries give the field, and no later ones do, or neither does.
    by_cases hk : f.1.Spells e.1
    · rw [if_pos hk, if_pos ((he.spells_iff hf).1 hk)]
      exact .some (he.rewritten hf hk)
    · rw [if_neg hk, if_neg fun hk' => hk ((he.spells_iff hf).2 hk')]
      exact ih fun g hg => (once g hg).tail

/-! ## 3. Readers that overlook a rewriting -/

variable {α : Type} {R S : Rewriting} {r : Reader α}

theorem option_rel_eq {x y : Option α} : Option.Rel Eq x y ↔ x = y := by
  constructor
  · rintro (⟨rfl⟩ | _) <;> rfl
  · rintro rfl
    cases x with
    | none => exact .none
    | some a => exact .some rfl

/-- The reader reads a value before and after alike, up to places. -/
def Overlooks (R : Rewriting) (r : Reader α) : Prop :=
  ∀ v v', R v v' → (r v).unplaced = (r v').unplaced

theorem overlooks_eq (r : Reader α) : Overlooks Eq r := fun _ _ h => h ▸ rfl

theorem Each.mono (h : ∀ v v', R v v' → S v v') {v v' : Value} (hv : Each R v v') :
    Each S v v' := by
  cases hv with
  | same v => exact .same v
  | list hitems => exact .list (hitems.imp h)
  | pair ha hb => exact .pair (h _ _ ha) (h _ _ hb)
  | map hes => exact .map (hes.imp fun _ _ he => ⟨he.1, h _ _ he.2⟩)

theorem Overlooks.map_eq (hr : Overlooks R r) {items items' : List Value}
    (h : List.Forall₂ R items items') :
    items.map (fun v => (r v).unplaced) = items'.map fun v => (r v).unplaced := by
  induction h with
  | nil => rfl
  | cons hv _ ih => rw [List.map_cons, List.map_cons, hr _ _ hv, ih]

theorem Overlooks.list (hr : Overlooks R r) : Overlooks (Each R) (list r) := by
  intro v v' h
  cases h with
  | same => rfl
  | list h => rw [unplaced_list_list, unplaced_list_list, hr.map_eq h]
  | pair ha hb =>
    simp only [Reading.list, itemsOf?, Outcome.unplaced_all, map_unplaced_itemsFrom]
    rw [hr.map_eq (.cons ha (.cons hb .nil))]
  | map => rfl

theorem Overlooks.map (hr : Overlooks R r) : Overlooks (Each R) (map r) := by
  intro v v' h
  cases h with
  | same => rfl
  | list | pair => rfl
  | map h =>
    rw [unplaced_map_map, unplaced_map_map]
    congr 1
    induction h with
    | nil => rfl
    | cons he _ ih => rw [List.map_cons, List.map_cons, ih, unplacedEntry, unplacedEntry, he.1,
        hr _ _ he.2]

/-- Records that agree, and any value with itself. -/
inductive Agreeing (fs : Fields) : Rewriting where
  | same (v : Value) : Agreeing fs v v
  | map {es es' : Entries} (h : Agree fs es es') : Agreeing fs (.map es) (.map es')

theorem Respelled.agreeing {v v' : Value} (h : Respelled fs v v') : Agreeing fs v v' := by
  cases h with
  | same => exact .same v
  | map once h => exact .map (agree_of_respelledEntries once h)

theorem Overlooks.respelled (hr : Overlooks (Agreeing fs) r) : Overlooks (Respelled fs) r :=
  fun _ _ h => hr _ _ h.agreeing

theorem Overlooks.optional (hr : Overlooks (Agreeing fs) r) :
    Overlooks (Agreeing fs) (optional r) := by
  intro v v' h
  cases h with
  | same => rfl
  | @map es es' hes =>
    have hmap : ∀ es, Reading.optional r (.map es) = (r (.map es)).map some := fun _ => rfl
    rw [hmap, hmap, Outcome.unplaced_map, Outcome.unplaced_map, hr _ _ (.map hes)]

/-- A record is read up to spelling if it is read from what its fields hold. -/
theorem Overlooks.record {g : Entries → Outcome α}
    (h : ∀ es es', Agree fs es es' → (g es).unplaced = (g es').unplaced) :
    Overlooks (Agreeing fs) (record g) := by
  intro v v' hv
  cases hv with
  | same => rfl
  | map hes => exact h _ _ hes

theorem Overlooks.option_map_eq (hr : Overlooks R r) {x y : Option Value} (h : Option.Rel R x y) :
    (x.map fun v => (r v).unplaced) = y.map fun v => (r v).unplaced := by
  cases h with
  | none => rfl
  | some hv => rw [Option.map_some, Option.map_some, hr _ _ hv]

section Fields

variable {es es' : Entries} {f : FieldName}

theorem Agree.value?_eq (h : Agree fs es es') (hf : (f, Eq) ∈ fs.list) :
    f.value? es = f.value? es' := option_rel_eq.1 (h _ hf)

theorem Agree.fieldOr (h : Agree fs es es') (hf : (f, R) ∈ fs.list) (hr : Overlooks R r)
    (absent : α) : (fieldOr f absent r es).unplaced = (fieldOr f absent r es').unplaced := by
  rw [unplaced_fieldOr, unplaced_fieldOr, hr.option_map_eq (h _ hf)]

theorem Agree.field (h : Agree fs es es') (hf : (f, R) ∈ fs.list) (hr : Overlooks R r) :
    (field f r es).unplaced = (field f r es').unplaced := by
  rw [unplaced_field, unplaced_field, hr.option_map_eq (h _ hf)]

end Fields

/-! ## 4. Entries added and left out -/

/-- An entry under the name is of no field, or it is the second choice of a field whose value is
not rewritten. -/
def Fields.Takes (fs : Fields) (name : String) : Prop :=
  ∀ f ∈ fs.list, f.1.Spells (.text name) → f.1.second = name ∧ f.2 = Eq

theorem Fields.takes_second {f : FieldName} (hf : (f, Eq) ∈ fs.list) : fs.Takes f.second := by
  intro g hg hs
  cases Fields.eq_of_spells hg hf hs (.inr rfl)
  exact ⟨rfl, rfl⟩

namespace FieldName

variable {f : FieldName} {name : String}

theorem ne_of_not_spells (h : ¬ f.Spells (.text name)) : f.first ≠ name ∧ f.second ≠ name :=
  ⟨fun heq => h (.inl (heq ▸ rfl)), fun heq => h (.inr (heq ▸ rfl))⟩

theorem value?_without (h : ¬ f.Spells (.text name)) (es : Entries) :
    f.value? (without name es) = f.value? es := by
  obtain ⟨hfirst, hsecond⟩ := ne_of_not_spells h
  rw [value?, entry?_without, entry?_without, if_neg hfirst, if_neg hsecond, value?]

theorem value?_withDefault (h : ¬ f.Spells (.text name)) (v : Value) (es : Entries) :
    f.value? (withDefault name v es) = f.value? es := by
  obtain ⟨hfirst, hsecond⟩ := ne_of_not_spells h
  rw [value?, entry?_withDefault, entry?_withDefault, if_neg hfirst, if_neg hsecond,
    Option.or_none, Option.or_none, value?]

/-- A value that is added under the second spelling is what the field holds if it held nothing,
under whichever spelling. -/
theorem value?_withDefault_second (f : FieldName) (v : Value) (es : Entries) :
    f.value? (withDefault f.second v es) = (f.value? es).or (some v) := by
  rw [value?, entry?_withDefault, entry?_withDefault, if_pos rfl, value?]
  by_cases hone : f.first = f.second
  · rw [if_pos hone, hone]
    cases Value.entry? f.second es <;> rfl
  · rw [if_neg hone, Option.or_none, Option.or_assoc]

end FieldName

section Entries

variable {es es' : Entries}

theorem Agree.without (h : Agree fs es es') {name : String} (hname : (word name, R) ∈ fs.list) :
    Agree fs (without name es) (without name es') := by
  intro f hf
  by_cases hs : f.1.Spells (.text name)
  · cases Fields.eq_of_spells hf hname hs (.inl rfl)
    rw [FieldName.value?_word, FieldName.value?_word, entry?_without, entry?_without, if_pos rfl,
      if_pos rfl]
    exact .none
  · rw [FieldName.value?_without hs, FieldName.value?_without hs]
    exact h f hf

theorem Agree.withDefault (h : Agree fs es es') {name : String} (hname : fs.Takes name)
    (v : Value) : Agree fs (withDefault name v es) (withDefault name v es') := by
  intro f hf
  by_cases hs : f.1.Spells (.text name)
  · obtain ⟨rfl, heq⟩ := hname f hf hs
    have hrel := h f hf
    rw [heq, option_rel_eq] at hrel ⊢
    rw [FieldName.value?_withDefault_second, FieldName.value?_withDefault_second, hrel]
  · rw [FieldName.value?_withDefault hs, FieldName.value?_withDefault hs]
    exact h f hf

end Entries

end SchemaTypes.Reading
