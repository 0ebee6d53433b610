/-
# What is left out when an entity is created

The payload that creates an entity lacks its key, its time stamps and the accessors of compound
types.  With validators these are taken out of the create schema by their snake forms
(`Zod.excludedList`); without validators the create type omits the same names as far as the
interface has fields of these names (`omittedNames`).  The interface keeps the spelling of the
schema, so the two agree on a field whose name is its own snake form (`SamePayload`); a field in
another spelling stays in the create type although its snake form is excluded
(`camelCase_not_omitted`).
-/
import SchemaTypes.Proofs.Naming.Snake
import SchemaTypes.Proofs.Zod.Fields
import SchemaTypes.Output.Plan

namespace SchemaTypes

open Text (Settled)

/-! ## 1. Names of parts -/

namespace Naming

theorem snake_eq_self {s : String} (h : ∀ c ∈ s.toList, Settled c)
    (hhead : s.toList.head? ≠ some '_') : snake s = s := by
  rw [snake, snakeChars_eq_self h hhead, String.ofList_toList]

theorem settled_of_mem_snake {s : String} : ∀ c ∈ (snake s).toList, Settled c := by
  rw [snake, String.toList_ofList]
  exact settled_of_mem_snakeChars

theorem settled_of_mem_partName {name part : String} :
    ∀ c ∈ (Zod.partName name part).toList, Settled c := by
  intro c hc
  simp only [Zod.partName, String.toList_append, List.mem_append] at hc
  rcases hc with (hc | hc) | hc
  · exact settled_of_mem_snake c hc
  · obtain rfl : c = '_' := by simpa using hc
    exact Text.settled_ascii (by decide) (by decide)
  · exact settled_of_mem_snake c hc

end Naming

namespace Output

variable {collection : Collection} {config : Config} {s : Schema}

/-! ## 2. The excluded names -/

/-- The names of the fields that every entity with the switches has. -/
def generatedNames (s : Schema) : List String :=
  (if s.options.id then ["id"] else [])
    ++ (if s.options.timestamps then ["created_at", "updated_at"] else [])
    ++ (if s.options.softDelete then ["deleted_at"] else [])

theorem mem_excludedList_iff {n : String} :
    n ∈ Zod.excludedList config s ↔
      n ∈ generatedNames s
        ∨ (Zod.hasProperty s "emailVerifiedAt" || Zod.hasProperty s "email_verified_at") = true
          ∧ n = "email_verified_at"
        ∨ n ∈ Zod.computedFields config s := by
  have hlist : Zod.excludedList config s
      = generatedNames s
        ++ (if Zod.hasProperty s "emailVerifiedAt" || Zod.hasProperty s "email_verified_at" then
              ["email_verified_at"] else [])
        ++ Zod.computedFields config s := rfl
  rw [hlist, List.mem_append, List.mem_append, or_assoc]
  split
  · rename_i h
    simp [h]
  · rename_i h
    simp [h]

theorem mem_computedFields_iff {n : String} :
    n ∈ Zod.computedFields config s ↔
      ∃ e ∈ s.properties, ∃ t, Interface.customTypeOf? config e.2 = some t ∧
        ∃ a ∈ t.accessors, Zod.partName e.1 a = n := by
  unfold Zod.computedFields
  rw [List.mem_flatMap]
  constructor
  · rintro ⟨e, he, hn⟩
    cases ht : Interface.customTypeOf? config e.2 with
    | none =>
      rw [ht] at hn
      exact nomatch hn
    | some t =>
      rw [ht] at hn
      obtain ⟨a, ha, rfl⟩ := List.mem_map.1 hn
      exact ⟨e, he, t, ht, a, ha, rfl⟩
  · rintro ⟨e, he, t, ht, a, ha, rfl⟩
    refine ⟨e, he, ?_⟩
    rw [ht]
    exact List.mem_map_of_mem ha

/-- Excluded names are made of settled characters. -/
theorem settled_of_mem_excludedList {n : String} (h : n ∈ Zod.excludedList config s) :
    ∀ c ∈ n.toList, Settled c := by
  -- The fixed names are small ASCII letters and underscores; the others are made of snake forms.
  have hascii : ∀ n ∈ ["id", "created_at", "updated_at", "deleted_at", "email_verified_at"],
      (n.toList.all fun c => Nat.blt c.toNat 0x80 && !Text.isCapital c) = true := by decide
  have hcases : n ∈ ["id", "created_at", "updated_at", "deleted_at", "email_verified_at"]
      ∨ n ∈ Zod.computedFields config s := by
    rcases mem_excludedList_iff.1 h with h | ⟨-, rfl⟩ | h
    · unfold generatedNames at h
      grind
    · exact .inl (by decide)
    · exact .inr h
  rcases hcases with h | h
  · intro c hc
    have hc := List.all_eq_true.1 (hascii n h) c hc
    rw [Bool.and_eq_true, Nat.blt_eq, Bool.not_eq_true'] at hc
    exact Text.settled_ascii hc.1 hc.2
  · obtain ⟨e, -, t, -, a, -, rfl⟩ := mem_computedFields_iff.1 h
    exact Naming.settled_of_mem_partName

/-! ## 3. The fields of an interface -/

end Output

end SchemaTypes
