/-
# Which names collide

The check of names compares what is declared (`Check.declarations`).  It finds exactly the names
with two declarations, each with all of its sources (`mem_collisions_iff`), and where it finds one
nothing is planned.

What is generated is not quite what is declared: a plugin enumeration is declared under its key
and generated under its name.  `collisions_exact_iff` says when this makes no difference.
-/
import SchemaTypes.Proofs.Output.Plan

namespace SchemaTypes

open Output (plan plan_eq_error_collisions_iff)

namespace Check

/-! ## 1. Declarations of one name -/

theorem length_declarersOf (ds : List Declared) (name : String) :
    (declarersOf ds name).length = (ds.map (·.name)).count name := by
  rw [declarersOf, List.length_map, List.count_eq_countP, List.countP_map,
    List.countP_eq_length_filter]
  rfl

/-- A name with declarations is the name of one of them. -/
theorem mem_of_declarersOf {ds : List Declared} {name : String}
    (h : 0 < (declarersOf ds name).length) : name ∈ ds.map (·.name) := by
  rw [length_declarersOf] at h
  exact List.count_pos_iff.1 h

/-! ## 2. Collisions -/

variable {collection : Collection} {config : Config}

/-- **A collision is a name with two or more declarations, and holds all of them.** -/
theorem mem_collisions_iff {c : Collision} :
    c ∈ collisions collection config ↔
      2 ≤ c.declarers.length ∧
        c.declarers = declarersOf (declarations collection config) c.name := by
  rw [collisions, List.mem_filter, declaredNames, List.mem_map]
  simp only [decide_eq_true_eq]
  constructor
  · rintro ⟨⟨n, -, rfl⟩, hlen⟩
    exact ⟨hlen, rfl⟩
  · rintro ⟨hlen, heq⟩
    refine ⟨⟨c.name, ?_, ?_⟩, hlen⟩
    · refine List.mem_eraseDups.2 (mem_of_declarersOf ?_)
      rw [← heq]
      exact Nat.lt_of_lt_of_le Nat.zero_lt_two hlen
    · rw [← heq]

/-- No name collides twice. -/
theorem nodup_names_collisions : ((collisions collection config).map (·.name)).Nodup := by
  have hsub : ((collisions collection config).map (·.name)).Sublist
      ((declarations collection config).map (·.name)).eraseDups := by
    have := (List.filter_sublist (p := fun c : Collision => decide (2 ≤ c.declarers.length))
      (l := declaredNames collection config)).map (·.name)
    rwa [declaredNames, List.map_map, show ((·.name) ∘ fun n =>
      (⟨n, declarersOf (declarations collection config) n⟩ : Collision)) = id from rfl,
      List.map_id] at this
  exact (Text.nodup_eraseDups _).sublist hsub

/-- **Nothing collides exactly when the declared names are distinct.** -/
theorem collisions_eq_nil_iff :
    collisions collection config = [] ↔
      ((declarations collection config).map (·.name)).Nodup := by
  rw [List.nodup_iff_count_le_one, List.eq_nil_iff_forall_not_mem]
  refine ⟨fun h n => ?_, fun h c hc => ?_⟩
  · by_contra hn
    rw [← length_declarersOf] at hn
    exact h ⟨n, declarersOf (declarations collection config) n⟩
      (mem_collisions_iff.2 ⟨Nat.not_le.1 hn, rfl⟩)
  · obtain ⟨hlen, heq⟩ := mem_collisions_iff.1 hc
    have := h c.name
    rw [← length_declarersOf, ← heq] at this
    omega

/-! ## 3. What is generated -/

/-- The types that are generated at the top level with their sources: plugin enumerations count
under the names of their files. -/
def generated (collection : Collection) (config : Config) : List Declared :=
  collection.schemas.map (fun s => ⟨s.name, .schema, s.sourceLabel⟩)
    ++ (Enumeration.allPlugin config).map (fun e => ⟨e.name, .plugin, "plugin enum"⟩)
    ++ (InlineEnum.all collection config).map fun x =>
        ⟨x.name, .inline, x.source ++ " (inline enum)"⟩

/-- Two generated types share the name. -/
def Shared (collection : Collection) (config : Config) (name : String) : Prop :=
  2 ≤ (declarersOf (generated collection config) name).length

/-- The check of names is exact about what is generated: it refuses a snapshot exactly if two types
share a name, and then it gives each shared name with all of its sources and nothing else. -/
structure Exact (collection : Collection) (config : Config) : Prop where
  refuses : (∃ cs, plan collection config = .error (.collisions cs)) ↔
    ∃ name, Shared collection config name
  conflicts : ∀ cs, plan collection config = .error (.collisions cs) →
    (cs.map (·.name)).Nodup ∧ ∀ c : Collision, c ∈ cs ↔ Shared collection config c.name ∧
      c.declarers = declarersOf (generated collection config) c.name

/-- The declarations of one name among plugin enumerations. -/
theorem declarersOf_plugins (names : List String) (name : String) :
    declarersOf (names.map fun n => ⟨n, .plugin, "plugin enum"⟩) name
      = List.replicate (names.count name) (.plugin, "plugin enum") := by
  induction names with
  | nil => rfl
  | cons n rest ih =>
    by_cases h : n = name
    · subst h
      simpa [declarersOf, List.replicate_succ] using ih
    · simpa [declarersOf, h] using ih

theorem declarersOf_append (a b : List Declared) (name : String) :
    declarersOf (a ++ b) name = declarersOf a name ++ declarersOf b name := by
  simp [declarersOf]

/-- Declarations of one name: those of schemas, then those of plugin enumerations under some
names, then those of properties. -/
theorem declarersOf_mixed (a c : List Declared) (names : List String) (name : String) :
    declarersOf (a ++ names.map (fun n => ⟨n, .plugin, "plugin enum"⟩) ++ c) name
      = declarersOf a name ++ List.replicate (names.count name) (.plugin, "plugin enum")
        ++ declarersOf c name := by
  rw [declarersOf_append, declarersOf_append, declarersOf_plugins]

theorem declarersOf_declarations (collection : Collection) (config : Config) (name : String) :
    declarersOf (declarations collection config) name
      = declarersOf (collection.schemas.map fun s => ⟨s.name, .schema, s.sourceLabel⟩) name
        ++ List.replicate ((config.pluginEnums.map (·.1)).count name) (.plugin, "plugin enum")
        ++ declarersOf ((InlineEnum.all collection config).map fun x =>
            ⟨x.name, .inline, x.source ++ " (inline enum)"⟩) name := by
  rw [← declarersOf_mixed, List.map_map]
  rfl

theorem declarersOf_generated (collection : Collection) (config : Config) (name : String) :
    declarersOf (generated collection config) name
      = declarersOf (collection.schemas.map fun s => ⟨s.name, .schema, s.sourceLabel⟩) name
        ++ List.replicate ((config.pluginEnums.map (·.2.name)).count name) (.plugin, "plugin enum")
        ++ declarersOf ((InlineEnum.all collection config).map fun x =>
            ⟨x.name, .inline, x.source ++ " (inline enum)"⟩) name := by
  rw [← declarersOf_mixed, List.map_map, generated, Enumeration.allPlugin, List.map_map]
  rfl

/-- Where the declarations of every name are those that are generated, the check is exact. -/
theorem Exact.of_declarersOf (h : ∀ name, declarersOf (declarations collection config) name
    = declarersOf (generated collection config) name) : Exact collection config := by
  have hmem (c : Collision) : c ∈ collisions collection config ↔
      Shared collection config c.name ∧
        c.declarers = declarersOf (generated collection config) c.name := by
    rw [mem_collisions_iff, h, Shared]
    constructor
    · rintro ⟨hlen, heq⟩
      exact ⟨heq ▸ hlen, heq⟩
    · rintro ⟨hlen, heq⟩
      exact ⟨heq.symm ▸ hlen, heq⟩
  refine ⟨⟨?_, ?_⟩, fun cs hcs => ?_⟩
  · rintro ⟨cs, hcs⟩
    obtain ⟨c, hc⟩ := List.exists_mem_of_ne_nil _ (plan_eq_error_collisions_iff.1 hcs).1
    exact ⟨c.name, ((hmem c).1 hc).1⟩
  · rintro ⟨name, hshared⟩
    have hc := (hmem ⟨name, declarersOf (generated collection config) name⟩).2 ⟨hshared, rfl⟩
    exact ⟨_, plan_eq_error_collisions_iff.2 ⟨List.ne_nil_of_mem hc, rfl⟩⟩
  · obtain ⟨-, rfl⟩ := plan_eq_error_collisions_iff.1 hcs
    exact ⟨nodup_names_collisions, hmem⟩

/-- An exact check finds all sources of a name that is shared either way. -/
theorem Exact.declarersOf_eq (h : Exact collection config) {name : String}
    (hname : Shared collection config name ∨
      2 ≤ (declarersOf (declarations collection config) name).length) :
    declarersOf (declarations collection config) name
      = declarersOf (generated collection config) name := by
  have hall : ∀ cs, plan collection config = .error (.collisions cs) →
      ∀ c : Collision, c ∈ collisions collection config ↔ Shared collection config c.name ∧
        c.declarers = declarersOf (generated collection config) c.name := by
    intro cs hcs
    rw [← (plan_eq_error_collisions_iff.1 hcs).2]
    exact (h.conflicts cs hcs).2
  rcases hname with hshared | hlen
  · obtain ⟨cs, hcs⟩ := h.refuses.2 ⟨name, hshared⟩
    have hc := (hall cs hcs ⟨name, declarersOf (generated collection config) name⟩).2
      ⟨hshared, rfl⟩
    exact (mem_collisions_iff.1 hc).2.symm
  · have hc : (⟨name, declarersOf (declarations collection config) name⟩ : Collision)
        ∈ collisions collection config := mem_collisions_iff.2 ⟨hlen, rfl⟩
    have hcs := plan_eq_error_collisions_iff.2 ⟨List.ne_nil_of_mem hc, rfl⟩
    exact ((hall _ hcs _).1 hc).2

/-- A collection of one enumeration without values. -/
def oneEnum (name : String) : Collection := ⟨[{ name := name, kind := .enum }]⟩

/-- **The check of names is exact on every collection exactly when plugin enumerations are declared
under the names under which they are generated**, as many times. -/
theorem collisions_exact_iff (config : Config) :
    (∀ collection, Exact collection config) ↔
      (config.pluginEnums.map (·.2.name)).Perm (config.pluginEnums.map (·.1)) := by
  constructor
  · intro h
    refine List.perm_iff_count.2 fun name => ?_
    have hschema : declarersOf ((oneEnum name).schemas.map fun s =>
        ⟨s.name, .schema, s.sourceLabel⟩) name = [(.schema, "<" ++ name ++ ">")] := by
      simp [oneEnum, declarersOf, Schema.sourceLabel]
    have hdeclared := congrArg List.length (declarersOf_declarations (oneEnum name) config name)
    have hgenerated := congrArg List.length (declarersOf_generated (oneEnum name) config name)
    rw [hschema] at hdeclared hgenerated
    simp only [List.length_append, List.length_replicate, List.length_singleton,
      show InlineEnum.all (oneEnum name) config = [] from rfl, List.map_nil,
      show declarersOf [] name = [] from rfl, List.length_nil] at hdeclared hgenerated
    by_cases hshared : Shared (oneEnum name) config name ∨
        2 ≤ (declarersOf (declarations (oneEnum name) config) name).length
    · rw [(h (oneEnum name)).declarersOf_eq hshared] at hdeclared
      omega
    · rw [Shared, hdeclared, hgenerated] at hshared
      omega
  · intro hperm collection
    refine .of_declarersOf fun name => ?_
    rw [declarersOf_declarations, declarersOf_generated, hperm.count_eq]

/-- A plugin enumeration with the name of a schema under another key goes unnoticed: two files
declare the type. -/
theorem not_exact_of_renamed_plugin :
    ¬ Exact ⟨[{ name := "User" }]⟩
      { pluginEnums := [("Role", { name := "User", values := [{ value := "admin" }] })] } := by
  intro h
  obtain ⟨cs, hcs⟩ := h.refuses.2 ⟨"User", by unfold Shared; decide⟩
  exact (plan_eq_error_collisions_iff.1 hcs).1 (by decide)

end Check

end SchemaTypes
