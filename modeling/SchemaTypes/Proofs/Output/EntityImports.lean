/-
# Imports of entities

The file of an entity imports every other entity that its fields mention.  These are entities of
the collection whatever the fields are (`exists_schema_of_mem_dependencies`), and an entity has a
file of its own unless it is hidden (`hasBaseFile_iff`).  So an import leads to a planned file
exactly if what it names is not hidden (`entity_imports_lead_to_files`); the checks say nothing
about a visible entity that mentions a hidden one (`hidden_import_without_file`).
-/
import SchemaTypes.Check.Full
import SchemaTypes.Proofs.Check.Names
import SchemaTypes.Proofs.Output.Links

namespace SchemaTypes.Output

variable {collection : Collection} {config : Config} {ms : List PlannedModule}

/-! ## 1. Names of entities -/

/-- In a plan no two schemas have one name. -/
theorem nodup_schemaNames (h : planModules collection config = .ok ms) :
    (collection.schemas.map (·.name)).Nodup := by
  have hnodup := Check.collisions_eq_nil_iff.1 (planModules_eq_ok_iff.1 h).1
  have hschemas : (collection.schemas.map fun s : Schema =>
      (⟨s.name, .schema, s.sourceLabel⟩ : Check.Declared)).map (·.name)
        = collection.schemas.map (·.name) := by
    rw [List.map_map]
    rfl
  rw [Check.declarations, List.append_assoc, List.map_append, hschemas] at hnodup
  exact (List.nodup_append.1 hnodup).1

/-- In a plan the name of a schema tells which one it is. -/
theorem eq_of_name_eq (h : planModules collection config = .ok ms) {s t : Schema}
    (hs : s ∈ collection.objectSchemas) (ht : t ∈ collection.objectSchemas)
    (hname : s.name = t.name) : s = t :=
  List.inj_on_of_nodup_map (nodup_schemaNames h) (List.mem_of_mem_filter hs)
    (List.mem_of_mem_filter ht) hname

theorem mem_visibleSchemas_iff {s : Schema} :
    s ∈ visibleSchemas collection ↔ s ∈ collection.objectSchemas ∧ s.isHidden = false := by
  rw [visibleSchemas, List.mem_filter, Bool.not_eq_true']

/-! ## 2. Dependencies -/

/-- **A dependency is an entity of the collection**, and another one. -/
theorem exists_schema_of_mem_dependencies {s : Schema} {name : String}
    (h : name ∈ (Interface.ofSchema collection config s).dependencies) :
    name ≠ s.name ∧ ∃ t ∈ collection.objectSchemas, t.name = name := by
  simp only [Interface.ofSchema, Interface.dependenciesOf, Text.mem_sortedSet, List.mem_filter,
    List.mem_flatMap, bne_iff_ne] at h
  obtain ⟨⟨f, -, href⟩, hne⟩ := h
  refine ⟨hne, ?_⟩
  have hentity := (List.mem_filter.1 href).2
  rw [Bool.and_eq_true, List.contains_iff_mem] at hentity
  obtain ⟨t, ht, hname⟩ := List.mem_map.1 hentity.2
  exact ⟨t, ht, hname⟩

/-- The file of an entity imports each dependency from the file beside it. -/
theorem import_of_mem_dependencies (paths : ImportPaths) {s : Schema} {name : String}
    (h : name ∈ (Interface.ofSchema collection config s).dependencies) :
    { names := [.plain name], module := paths.entityFromBase name, typeOnly := true }
      ∈ (planBase collection config paths s).source.imports := by
  have himports (zod : Option ZodPart) (excluded : List String) :
      { names := [.plain name], module := paths.entityFromBase name, typeOnly := true }
        ∈ (baseModule (Interface.ofSchema collection config s) paths zod excluded
            (config.pluginEnums.map (·.1))).imports :=
    List.mem_append_right _ (List.mem_map_of_mem h)
  unfold planBase
  dsimp only
  split
  · exact himports _ _
  · exact himports _ _

/-! ## 3. Files of entities -/

/-- The plan has the file of the entity of the name. -/
def HasBaseFile (ms : List PlannedModule) (name : String) : Prop :=
  ∃ m ∈ ms, m.category = .base ∧ m.path = "base/" ++ name ++ ".ts"

theorem basePath_injective {a b : String} (h : "base/" ++ a ++ ".ts" = "base/" ++ b ++ ".ts") :
    a = b := by
  rw [← String.toList_inj] at h ⊢
  simp only [String.toList_append] at h
  exact List.append_cancel_left (List.append_cancel_right h)

/-- The module of an enumeration is not filed with the entities. -/
theorem category_planEnum {room : Nat} {e : Enumeration} {m : PlannedModule}
    (h : planEnum room config e = .ok m) : m.category ≠ .base := by
  obtain ⟨source, -, rfl⟩ := planEnum_eq_ok_iff.1 h
  dsimp only
  split <;> exact fun h => nomatch h

/-- A path that begins with another letter is not one of an entity. -/
theorem basePath_ne {path : String} (h : path.toList.head? ≠ some 'b') (name : String) :
    path ≠ "base/" ++ name ++ ".ts" := by
  rintro rfl
  simp only [String.toList_append] at h
  exact h rfl

/-- **The files of entities** are those of the entities that are not hidden. -/
theorem hasBaseFile_iff (h : planModules collection config = .ok ms) (name : String) :
    HasBaseFile ms name ↔ ∃ s ∈ visibleSchemas collection, s.name = name := by
  constructor
  · rintro ⟨m, hm, hcategory, hpath⟩
    -- A shared module may have the category of entities too, but not a path of one.
    cases (mem_planModules_iff h m).1 hm with
    | schemaEnum mem eq | pluginEnum mem eq => exact absurd hcategory (category_planEnum eq)
    | @inline x m mem eq =>
      cases x with
      | enum schema property e => exact absurd hcategory (category_planEnum eq)
      | «alias» schema property a =>
        cases eq
        cases hcategory
    | @base s mem => exact ⟨s, mem, basePath_injective hpath⟩
    | common =>
      have hhead : "common.ts".toList.head? ≠ some 'b' := by decide
      exact absurd hpath (basePath_ne hhead name)
    | i18n =>
      have hhead : "i18n.ts".toList.head? ≠ some 'b' := by decide
      exact absurd hpath (basePath_ne hhead name)
    | model | rules | index => cases hcategory
  · rintro ⟨s, hs, rfl⟩
    exact ⟨_, (mem_planModules_iff h _).2 (.base hs), rfl, rfl⟩

/-- **An import of an entity leads to a planned file** exactly if the entity is not hidden.  The
file of every visible entity is planned, and any other entity that it imports is in the
collection. -/
theorem entity_imports_lead_to_files (h : planModules collection config = .ok ms) :
    ∀ s ∈ visibleSchemas collection,
      planBase collection config (.ofConfig config) s ∈ ms ∧
        ∀ name ∈ (Interface.ofSchema collection config s).dependencies,
          { names := [.plain name], module := (ImportPaths.ofConfig config).entityFromBase name,
            typeOnly := true }
            ∈ (planBase collection config (.ofConfig config) s).source.imports ∧
          name ≠ s.name ∧
          ∃ t ∈ collection.objectSchemas, t.name = name ∧
            (HasBaseFile ms name ↔ t.isHidden = false) := by
  intro s hs
  refine ⟨(mem_planModules_iff h _).2 (.base hs), fun name hname => ?_⟩
  obtain ⟨hne, t, ht, rfl⟩ := exists_schema_of_mem_dependencies hname
  refine ⟨import_of_mem_dependencies _ hname, hne, t, ht, rfl, ?_⟩
  rw [hasBaseFile_iff h]
  constructor
  · rintro ⟨t', ht', heq⟩
    obtain ⟨hobject, hvisible⟩ := mem_visibleSchemas_iff.1 ht'
    rwa [eq_of_name_eq h hobject ht heq] at hvisible
  · intro hvisible
    exact ⟨t, mem_visibleSchemas_iff.2 ⟨ht, hvisible⟩, rfl⟩

theorem blog_imports_lead_to_files :
    ∃ ms, planModules blog blogConfig = .ok ms ∧
      ∃ s ∈ visibleSchemas blog, "Post" ∈ (Interface.ofSchema blog blogConfig s).dependencies ∧
        HasBaseFile ms "Post" := by
  have hplan : ∃ ms, planModules blog blogConfig = .ok ms :=
    ⟨_, planModules_eq_ok_iff.2 ⟨by decide, _, rfl, rfl, rfl⟩⟩
  obtain ⟨ms, hms⟩ := hplan
  have huser : blog.schemas[0] ∈ visibleSchemas blog :=
    mem_visibleSchemas_iff.2 ⟨List.mem_cons_self, rfl⟩
  have hpost : "Post" ∈ (Interface.ofSchema blog blogConfig blog.schemas[0]).dependencies := by
    decide +kernel
  obtain ⟨-, hall⟩ := entity_imports_lead_to_files hms _ huser
  obtain ⟨-, -, t, ht, -, hiff⟩ := hall "Post" hpost
  have hvisible : ∀ t ∈ blog.objectSchemas, t.isHidden = false := by decide
  exact ⟨ms, hms, _, huser, hpost, hiff.2 (hvisible t ht)⟩

/-- A user with posts, which are hidden. -/
def hiddenPosts : Collection :=
  ⟨[{ name := "User"
      properties :=
        [("posts", { tag := "Association"
                     kind := .association "OneToMany" (some "Post") [] })] },
    { name := "Post", options := { hidden := true } }]⟩

theorem hidden_import_without_file :
    (Check.validate hiddenPosts {}).items = [] ∧
      ∃ ms, planModules hiddenPosts {} = .ok ms ∧
        ∃ s ∈ visibleSchemas hiddenPosts,
          "Post" ∈ (Interface.ofSchema hiddenPosts {} s).dependencies ∧
            ¬ HasBaseFile ms "Post" := by
  have hplan : ∃ ms, planModules hiddenPosts {} = .ok ms :=
    ⟨_, planModules_eq_ok_iff.2 ⟨by decide, _, rfl, rfl, rfl⟩⟩
  obtain ⟨ms, hms⟩ := hplan
  have huser : hiddenPosts.schemas[0] ∈ visibleSchemas hiddenPosts :=
    mem_visibleSchemas_iff.2 ⟨List.mem_cons_self, rfl⟩
  refine ⟨by decide +kernel, ms, hms, _, huser, by decide +kernel, fun hfile => ?_⟩
  obtain ⟨s, hs, hname⟩ := (hasBaseFile_iff hms "Post").1 hfile
  have hnames : (visibleSchemas hiddenPosts).map (·.name) = ["User"] := by decide
  have hpost : "Post" ∈ ["User"] := hnames ▸ hname ▸ List.mem_map_of_mem hs
  exact absurd hpost (by decide)

end SchemaTypes.Output
