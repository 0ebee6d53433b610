/-
# Computations that may fail

Laws of `Except`: when a sequence of steps, or one step for each element of a list, gives a
result, and which fault it has otherwise.  Steps that change a state as well are those of `EStateM`.
-/
import Mathlib

namespace SchemaTypes

theorem bind_eq_ok_iff {x : Except ε α} {f : α → Except ε β} {b : β} :
    x >>= f = .ok b ↔ ∃ a, x = .ok a ∧ f a = .ok b := by
  cases x with
  | error e => exact ⟨fun h => (nomatch h), fun ⟨_, h, _⟩ => nomatch h⟩
  | ok a => exact ⟨fun h => ⟨a, rfl, h⟩, fun ⟨_, h, hb⟩ => Except.ok.inj h ▸ hb⟩

theorem map_eq_ok_iff {x : Except ε α} {f : α → β} {b : β} :
    x.map f = .ok b ↔ ∃ a, x = .ok a ∧ f a = b := by
  cases x with
  | error e => exact ⟨fun h => (nomatch h), fun ⟨_, h, _⟩ => nomatch h⟩
  | ok a => exact ⟨fun h => ⟨a, rfl, Except.ok.inj h⟩, fun ⟨_, h, hb⟩ => Except.ok.inj h ▸ hb ▸ rfl⟩

theorem eq_error_of_bind {x : Except ε α} {f : α → Except ε β} {e : ε}
    (h : x >>= f = .error e) : x = .error e ∨ ∃ a, f a = .error e := by
  cases x with
  | error e' => exact .inl (congrArg Except.error (Except.error.inj h))
  | ok a => exact .inr ⟨a, h⟩

/-- Renaming faults changes no result. -/
theorem mapError_eq_ok_iff {x : Except ε α} {f : ε → ε'} {a : α} :
    x.mapError f = .ok a ↔ x = .ok a := by
  cases x <;> simp [Except.mapError]

/-- The faults of a sequence of steps are renamed step by step. -/
theorem mapError_bind (x : Except ε α) (f : α → Except ε β) (rename : ε → ε') :
    (x >>= f).mapError rename = x.mapError rename >>= fun a => (f a).mapError rename := by
  cases x <;> rfl

/-- A list is computed element by element. -/
theorem mapM_eq_ok_iff {f : α → Except ε β} {l : List α} {out : List β} :
    l.mapM f = .ok out ↔ List.Forall₂ (fun a b => f a = .ok b) l out := by
  induction l generalizing out with
  | nil =>
    rw [List.mapM_nil, List.forall₂_nil_left_iff]
    exact ⟨fun h => (Except.ok.inj h).symm, fun h => h ▸ rfl⟩
  | cons a r ih =>
    rw [List.mapM_cons, bind_eq_ok_iff, List.forall₂_cons_left_iff]
    constructor
    · rintro ⟨b, hb, h⟩
      obtain ⟨bs, hbs, h⟩ := bind_eq_ok_iff.1 h
      exact ⟨b, bs, hb, ih.1 hbs, (Except.ok.inj h).symm⟩
    · rintro ⟨b, bs, hb, hbs, rfl⟩
      exact ⟨b, hb, bind_eq_ok_iff.2 ⟨bs, ih.2 hbs, rfl⟩⟩

/-- The results are the results of the elements, and each element has one. -/
theorem mem_of_mapM {f : α → Except ε β} {l : List α} {out : List β} (h : l.mapM f = .ok out) :
    (∀ b, b ∈ out ↔ ∃ a ∈ l, f a = .ok b) ∧ ∀ a ∈ l, ∃ b, f a = .ok b := by
  replace h := mapM_eq_ok_iff.1 h
  induction h with
  | nil => simp
  | @cons a b l out hab _ ih =>
    refine ⟨fun b' => ?_, fun a' ha' => ?_⟩
    · rw [List.mem_cons, ih.1 b']
      constructor
      · rintro (rfl | ⟨a', ha', hb'⟩)
        · exact ⟨a, List.mem_cons_self, hab⟩
        · exact ⟨a', List.mem_cons_of_mem _ ha', hb'⟩
      · rintro ⟨a', ha', hb'⟩
        rcases List.mem_cons.1 ha' with rfl | ha'
        · exact .inl (Except.ok.inj (hb'.symm.trans hab))
        · exact .inr ⟨a', ha', hb'⟩
    · rcases List.mem_cons.1 ha' with rfl | ha'
      · exact ⟨b, hab⟩
      · exact ih.2 a' ha'

/-- The results of a list are the results that its elements have. -/
theorem eq_filterMap_of_mapM {f : α → Except ε β} {l : List α} {out : List β}
    (h : l.mapM f = .ok out) : out = l.filterMap fun a => (f a).toOption := by
  replace h := mapM_eq_ok_iff.1 h
  induction h with
  | nil => rfl
  | @cons a b l out hab _ ih =>
    have hsome : (f a).toOption = some b := by rw [hab]; rfl
    simp only [List.filterMap_cons, hsome, ← ih]

/-- A list fails with the fault of one of its elements. -/
theorem eq_error_of_mapM {f : α → Except ε β} {l : List α} {e : ε} (h : l.mapM f = .error e) :
    ∃ a ∈ l, f a = .error e := by
  induction l with
  | nil => exact nomatch h
  | cons a r ih =>
    rw [List.mapM_cons] at h
    rcases eq_error_of_bind h with h | ⟨b, h⟩
    · exact ⟨a, List.mem_cons_self, h⟩
    · rcases eq_error_of_bind h with h | ⟨bs, h⟩
      · obtain ⟨a', ha', hf⟩ := ih h
        exact ⟨a', List.mem_cons_of_mem _ ha', hf⟩
      · exact nomatch h

/-! ## Whether there is a result -/

theorem isOk_iff {x : Except ε α} : x.isOk = true ↔ ∃ a, x = .ok a := by
  cases x with
  | error e => exact ⟨fun h => (nomatch h), fun ⟨_, h⟩ => nomatch h⟩
  | ok a => exact ⟨fun _ => ⟨a, rfl⟩, fun _ => rfl⟩

theorem isOk_map (f : α → β) (x : Except ε α) : (x.map f).isOk = x.isOk := by
  cases x <;> rfl

/-- Two steps of which the second always gives a result. -/
theorem isOk_bind_pure (x : Except ε α) (f : α → β) :
    (x >>= fun a => pure (f a)).isOk = x.isOk := by
  cases x <;> rfl

theorem isOk_bind_of_isOk {x : Except ε α} {f : α → Except ε β} {b : Bool}
    (h : ∀ a, (f a).isOk = b) : (x >>= f).isOk = (x.isOk && b) := by
  cases x with
  | error e => rfl
  | ok a => exact (h a).trans (Bool.true_and b).symm

/-- A list has a result if each of its elements has one. -/
theorem isOk_mapM (f : α → Except ε β) (l : List α) :
    (l.mapM f).isOk = l.all fun a => (f a).isOk := by
  induction l with
  | nil => rfl
  | cons a r ih =>
    rw [List.mapM_cons, List.all_cons, ← ih]
    exact isOk_bind_of_isOk fun b => isOk_bind_pure _ _

/-! ## Steps with a state -/

section State

variable {x : EStateM ε σ α} {next : α → EStateM ε σ β} {d d' : σ}

theorem bind_of_ok {a : α} (hx : x d = .ok a d') : (x >>= next) d = next a d' := by
  show EStateM.bind x next d = next a d'
  rw [EStateM.bind, hx]

theorem bind_of_error {e : ε} (hx : x d = .error e d') : (x >>= next) d = .error e d' := by
  show EStateM.bind x next d = .error e d'
  rw [EStateM.bind, hx]

end State

end SchemaTypes
