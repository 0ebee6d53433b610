/-
# Targets that are no entities

A relation shows entities in its type: a relation to one entity or to many shows its target, a
relation to one of several entities each of its targets (`TypeExpr.Shows`).  The check of
references warns about targets that are no entities, but it goes by the list of targets wherever
there is one, and by the single target otherwise, whatever the kind of the relation is.

So the warnings about a relation name the entities that are shown and missing, and no others,
exactly if its two fields fit together (`Fits`, `targetsChecked`).  They do where only the field is
given that the kind uses (`fits_of_alone`); a list beside the target of a relation to many hides a
missing target (`missing_target_unnoticed`).
-/
import Mathlib
import SchemaTypes.Check.Full

namespace SchemaTypes

namespace TypeExpr

/-! ## 1. What a relation shows -/

variable {relation name : String} {target : Option String} {targets : List String}

/-- The type of the relation shows the entity. -/
inductive Shows (relation : String) (target : Option String) (targets : List String) :
    String → Prop
  | one {name : String} (kind : cardinality? relation = some .one) (given : target = some name)
      (filled : name ≠ "") : Shows relation target targets name
  | many {name : String} (kind : cardinality? relation = some .many) (given : target = some name)
      (filled : name ≠ "") : Shows relation target targets name
  | oneOf {name : String} (kind : cardinality? relation = some .oneOf) (listed : name ∈ targets) :
      Shows relation target targets name

theorem mem_givenTarget : name ∈ givenTarget target ↔ target = some name ∧ name ≠ "" := by
  cases target with
  | none => simp [givenTarget]
  | some t =>
    simp only [givenTarget, Option.toList_some, List.mem_filter, List.mem_singleton,
      Option.some.injEq, Bool.not_eq_true', String.isEmpty_eq_false_iff]
    exact ⟨fun ⟨heq, hne⟩ => ⟨heq.symm, hne⟩, fun ⟨heq, hne⟩ => ⟨heq.symm, hne⟩⟩

/-- The kind of the relation decides which of its fields shows entities. -/
theorem shows_iff : Shows relation target targets name ↔
    match cardinality? relation with
    | some .oneOf => name ∈ targets
    | some _ => name ∈ givenTarget target
    | none => False := by
  constructor
  · intro h
    cases h with
    | one kind given filled => simpa only [kind] using mem_givenTarget.2 ⟨given, filled⟩
    | many kind given filled => simpa only [kind] using mem_givenTarget.2 ⟨given, filled⟩
    | oneOf kind listed => simpa only [kind] using listed
  · cases kind : cardinality? relation with
    | none => exact False.elim
    | some cardinality =>
      intro h
      cases cardinality with
      | oneOf => exact .oneOf kind h
      | one => exact .one kind (mem_givenTarget.1 h).1 (mem_givenTarget.1 h).2
      | many => exact .many kind (mem_givenTarget.1 h).1 (mem_givenTarget.1 h).2

/-- The entities that a relation is resolved to are those that it shows. -/
theorem mem_entities_ofRelation :
    name ∈ (ofRelation relation target targets).entities ↔ Shows relation target targets name := by
  rw [shows_iff, ofRelation]
  cases cardinality? relation with
  | none => simp
  | some cardinality =>
    cases cardinality with
    | one => exact Iff.rfl
    | many => exact Iff.rfl
    | oneOf =>
      dsimp only
      split
      · rename_i hempty
        rw [List.isEmpty_iff.1 hempty]
      · exact Iff.rfl

/-- An entity that is shown stands in the type. -/
theorem Shows.infix_expr (h : Shows relation target targets name) :
    name.toList <:+: (ofRelation relation target targets).expr.toList := by
  have hhead (hmem : name ∈ givenTarget target) : (givenTarget target).headD unknown = name := by
    obtain ⟨rfl, hne⟩ := mem_givenTarget.1 hmem
    simp [givenTarget, hne]
  cases h with
  | one kind given filled =>
    rw [ofRelation, kind]
    dsimp only
    rw [hhead (mem_givenTarget.2 ⟨given, filled⟩)]
  | many kind given filled =>
    rw [ofRelation, kind]
    dsimp only
    rw [hhead (mem_givenTarget.2 ⟨given, filled⟩), String.toList_append]
    exact (List.prefix_append _ _).isInfix
  | oneOf kind listed =>
    rw [ofRelation, kind]
    dsimp only
    rw [if_neg (by simpa using List.ne_nil_of_mem listed)]
    exact Text.infix_intercalate listed

end TypeExpr

namespace Check

open TypeExpr (Shows cardinality? givenTarget ofRelation shows_iff)

variable {collection : Collection} {config : Config} {place : Place} {p : Property}
  {relation name : String} {target : Option String} {targets : List String}

/-! ## 2. What the check warns about -/

/-- The check of a property warns that the name is no entity. -/
def Warns (collection : Collection) (config : Config) (place : Place) (p : Property)
    (name : String) : Prop :=
  Problem.unknownTarget place name ∈ referenceProblems collection config place p

/-- Such a warning is about the property itself, and about a target of its relation that is no
entity. -/
theorem unknownTarget_mem_iff {about : Place} :
    Problem.unknownTarget about name ∈ referenceProblems collection config place p ↔
      about = place ∧ ∃ relation target targets,
        p.kind = .association relation target targets ∧
          name ∈ targetsOf target targets ∧ name ∉ collection.objectNames := by
  unfold referenceProblems
  cases p.kind with
  | association relation target targets =>
    have hrelation : Problem.unknownTarget about name ∉
        (if (cardinality? relation).isNone then [.unknownRelation place relation] else []) := by
      split <;> simp
    dsimp only
    rw [List.mem_append, or_iff_right hrelation, List.mem_map]
    constructor
    · rintro ⟨n, hn, heq⟩
      injection heq with hplace hname
      subst hplace hname
      exact ⟨rfl, relation, target, targets, rfl, by simpa using hn⟩
    · rintro ⟨rfl, _, _, _, hkind, h⟩
      injection hkind with hrelation htarget htargets
      subst hrelation htarget htargets
      exact ⟨name, by simpa using h, rfl⟩
  | enumRef enum => dsimp only; split <;> simp
  | custom => dsimp only; split <;> simp
  | primitive | inlineEnum | select | file => simp

/-- The check warns about the targets that it goes by and that are no entities. -/
theorem warns_iff (hkind : p.kind = .association relation target targets) :
    Warns collection config place p name ↔
      name ∈ targetsOf target targets ∧ name ∉ collection.objectNames := by
  rw [Warns, unknownTarget_mem_iff, and_iff_right rfl]
  constructor
  · rintro ⟨_, _, _, hkind', h⟩
    rw [hkind] at hkind'
    injection hkind' with hrelation htarget htargets
    subst hrelation htarget htargets
    exact h
  · exact fun h => ⟨relation, target, targets, hkind, h⟩

/-- A finding with the code is a warning about a target. -/
theorem exists_eq_unknownTarget {x : Problem}
    (h : x.finding.code = "UNKNOWN_ASSOCIATION_TARGET") :
    ∃ place name, x = .unknownTarget place name := by
  cases x with
  | unknownTarget place name => exact ⟨place, name, rfl⟩
  | collision c =>
    have hcode : c.code ≠ "UNKNOWN_ASSOCIATION_TARGET" := by
      unfold Collision.code
      split
      · decide
      · split <;> decide
    exact absurd h hcode
  | _ => simp [Problem.finding] at h

/-! ## 3. Which relations fit -/

/-- The fields of the relation fit the check, which goes by the list of targets if there is one.  A
relation to one of several entities shows the list; so without a list its target must be an entity.
A relation to one entity or to many shows the target; so a list beside it must lack the same
entities.  A relation of another kind shows nothing, and all that the check goes by must be
entities. -/
def Fits (collection : Collection) (relation : String) (target : Option String)
    (targets : List String) : Prop :=
  match cardinality? relation with
  | some .oneOf => targets = [] → ∀ name ∈ givenTarget target, name ∈ collection.objectNames
  | some _ => targets ≠ [] →
      ∀ name ∉ collection.objectNames, name ∈ targets ↔ name ∈ givenTarget target
  | none => ∀ name ∈ targetsOf target targets, name ∈ collection.objectNames

/-- Where only the field is given that the kind uses, the fields fit. -/
theorem fits_of_alone {cardinality : TypeExpr.Cardinality}
    (hkind : cardinality? relation = some cardinality)
    (halone : match cardinality with
      | .oneOf => target = none
      | _ => targets = []) : Fits collection relation target targets := by
  rw [Fits, hkind]
  cases cardinality with
  | oneOf =>
    rintro - name hname
    rw [halone] at hname
    exact nomatch hname
  | one | many => exact fun hne => absurd halone hne

/-- The warnings about a relation name the entities that are shown and missing, and no others. -/
def WarnsOfMissing (collection : Collection) (config : Config) (place : Place) (p : Property)
    (relation : String) (target : Option String) (targets : List String) : Prop :=
  ∀ name, Warns collection config place p name ↔
    Shows relation target targets name ∧ name ∉ collection.objectNames

theorem targetsOf_nil : targetsOf target [] = givenTarget target := rfl

theorem targetsOf_of_ne_nil (h : targets ≠ []) : targetsOf target targets = targets := by
  rw [targetsOf, if_neg (by simpa using h)]

/-- **The warnings about one relation are exact** if and only if its fields fit. -/
theorem warnsOfMissing_iff_fits (hkind : p.kind = .association relation target targets) :
    WarnsOfMissing collection config place p relation target targets ↔
      Fits collection relation target targets := by
  simp only [WarnsOfMissing, warns_iff hkind, shows_iff, Fits]
  -- Both sides speak of the missing names alone: it is compared what the check goes by and what
  -- is shown.
  cases cardinality? relation with
  | none =>
    simp only [false_and, iff_false, not_and, Decidable.not_not]
  | some cardinality =>
    by_cases hnil : targets = []
    · subst hnil
      cases cardinality <;> simp [targetsOf_nil]
    · rw [targetsOf_of_ne_nil hnil]
      cases cardinality with
      | oneOf => simp [hnil]
      | one | many =>
        simp only [hnil, ne_eq, not_false_eq_true, forall_const, and_congr_left_iff]

/-- What holds of the warnings about targets in the check of all references. -/
structure TargetsChecked (collection : Collection) (config : Config) : Prop where
  /-- What is shown is what the relation is resolved to, and stands in its type. -/
  shown : ∀ relation target targets name,
    (name ∈ (ofRelation relation target targets).entities ↔ Shows relation target targets name) ∧
      (Shows relation target targets name →
        name.toList <:+: (ofRelation relation target targets).expr.toList)
  /-- The findings with the code are the warnings of the properties one by one. -/
  findings : ∀ f : Finding,
    (f ∈ (allReferenceProblems collection config).map Problem.finding ∧
        f.code = "UNKNOWN_ASSOCIATION_TARGET") ↔
      ∃ s ∈ collection.objectSchemas, ∃ e ∈ s.properties, ∃ name,
        Warns collection config ⟨s.name, e.1⟩ e.2 name ∧
          f = (Problem.unknownTarget ⟨s.name, e.1⟩ name).finding
  /-- The warnings about a relation are exact if and only if its fields fit. -/
  exact_iff : ∀ s ∈ collection.objectSchemas, ∀ e ∈ s.properties, ∀ relation target targets,
    e.2.kind = .association relation target targets →
      (WarnsOfMissing collection config ⟨s.name, e.1⟩ e.2 relation target targets ↔
        Fits collection relation target targets)
  /-- Other properties have no such warnings. -/
  others : ∀ s ∈ collection.objectSchemas, ∀ e ∈ s.properties,
    (∀ relation target targets, e.2.kind ≠ .association relation target targets) →
      ∀ name, ¬ Warns collection config ⟨s.name, e.1⟩ e.2 name

/-- **The check of references warns about the targets that are shown and missing** exactly where the
fields of a relation fit together. -/
theorem targetsChecked (collection : Collection) (config : Config) :
    TargetsChecked collection config where
  shown _ _ _ _ := ⟨TypeExpr.mem_entities_ofRelation, TypeExpr.Shows.infix_expr⟩
  findings f := by
    constructor
    · rintro ⟨hf, hcode⟩
      obtain ⟨x, hx, rfl⟩ := List.mem_map.1 hf
      obtain ⟨s, hs, hx⟩ := List.mem_flatMap.1 hx
      obtain ⟨e, he, hx⟩ := List.mem_flatMap.1 hx
      obtain ⟨place, name, rfl⟩ := exists_eq_unknownTarget hcode
      obtain rfl := (unknownTarget_mem_iff.1 hx).1
      exact ⟨s, hs, e, he, name, hx, rfl⟩
    · rintro ⟨s, hs, e, he, name, hwarns, rfl⟩
      refine ⟨List.mem_map_of_mem (List.mem_flatMap.2 ⟨s, hs, ?_⟩), rfl⟩
      exact List.mem_flatMap.2 ⟨e, he, hwarns⟩
  exact_iff _ _ _ _ _ _ _ hkind := warnsOfMissing_iff_fits hkind
  others _ _ _ _ hkind _ hwarns := by
    obtain ⟨-, relation, target, targets, hassociation, -⟩ := unknownTarget_mem_iff.1 hwarns
    exact hkind relation target targets hassociation

/-- One entity with a relation to many that has a target and a list of targets. -/
def oneUser : Collection :=
  ⟨[{ name := "User",
      properties := [("ghosts",
        { tag := "Association", kind := .association "OneToMany" (some "Ghost") ["User"] })] }]⟩

/-- A missing target goes unnoticed: the type shows it, no entity has its name, and the check looks
at the list beside it. -/
theorem missing_target_unnoticed :
    (ofRelation "OneToMany" (some "Ghost") ["User"]).expr = "Ghost[]" ∧
      Shows "OneToMany" (some "Ghost") ["User"] "Ghost" ∧
      "Ghost" ∉ oneUser.objectNames ∧
      allReferenceProblems oneUser {} = [] :=
  ⟨by decide, .many (by decide) rfl (by decide), by decide, by decide⟩

end Check

end SchemaTypes
