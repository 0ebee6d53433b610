/-
# What a file of the plan depends on

Up to the order, a plan is what each schema yields by itself, what the settings yield, and the index
(`planModules_perm`).  What a schema yields sees of the others only which names are those of
entities: the file of an entity imports the entities that its types mention (`ownModules_congr`).
So the files of a schema are the same in any two collections with the same names of entities, and a
new order of the schemas gives a new order of the files and changes the index alone
(`files_independent`).
-/
import SchemaTypes.Proofs.Output.Writable

namespace SchemaTypes

/-! ## 1. What an interface sees of a collection -/

/-- The same names are names of entities. -/
def Collection.SameEntities (c c' : Collection) : Prop :=
  ∀ name, name ∈ c.objectNames ↔ name ∈ c'.objectNames

theorem Collection.SameEntities.of_perm {c c' : Collection} (h : c.schemas.Perm c'.schemas) :
    c.SameEntities c' := fun _ => ((h.filter _).map _).mem_iff

/-- References to entities depend on which names are those of entities, not on their order. -/
theorem TypeExpr.references_congr {names names' : List String}
    (h : ∀ name, name ∈ names ↔ name ∈ names') (expr : String) :
    references expr names = references expr names' := by
  have hcontains : names.contains = names'.contains := by
    funext name
    rw [Bool.eq_iff_iff, List.contains_iff_mem, List.contains_iff_mem, h]
  rw [references, references, hcontains]

namespace Interface

/-- The type of a field does not depend on the other schemas: they decide only what is imported. -/
theorem expandStrict_congr (c c' : Collection) (config : Config) (name : String) (p : Property) :
    expandStrict c config name p = expandStrict c' config name p := by
  have hexpr : (TypeExpr.resolve p (some c) config.customTypes).expr
      = (TypeExpr.resolve p (some c') config.customTypes).expr := by
    unfold TypeExpr.resolve
    cases p.kind <;> rfl
  unfold expandStrict
  rw [hexpr]

theorem fieldsOf_congr (c c' : Collection) (config : Config) (s : Schema) :
    fieldsOf c config s = fieldsOf c' config s := by
  have hexpand : expand c config = expand c' config := by
    funext name p
    rw [expand, expandStrict_congr c c', expand]
  unfold fieldsOf
  rw [hexpand]

/-- **The interface of an entity** depends on the names of the other entities alone. -/
theorem ofSchema_congr {c c' : Collection} (h : c.SameEntities c') (config : Config) (s : Schema) :
    ofSchema c config s = ofSchema c' config s := by
  have hreferences : ∀ expr, TypeExpr.references expr c.objectNames
      = TypeExpr.references expr c'.objectNames := TypeExpr.references_congr h
  rw [ofSchema, ofSchema, fieldsOf_congr c c', dependenciesOf, dependenciesOf]
  simp only [hreferences]

end Interface

namespace Output

variable {collection : Collection} {config : Config}

/-! ## 2. What a schema yields by itself -/

/-- The module of the enumeration that a schema is. -/
def enumModules (config : Config) (s : Schema) : List PlannedModule :=
  (Enumeration.ofSchema? config s).toList.filterMap fun e =>
    (planEnum Nesting.named config e).toOption

/-- The modules of the properties of an entity that list values. -/
def inlineModules (config : Config) (s : Schema) : List PlannedModule :=
  if s.isEnum then []
  else (InlineEnum.ofSchema config s).filterMap fun x =>
    (planInline Nesting.inline config x).toOption

/-- The modules of an entity, none if it is hidden. -/
def entityModules (collection : Collection) (config : Config) (s : Schema) : List PlannedModule :=
  if s.isEnum || s.isHidden then []
  else
    [planBase collection config (.ofConfig config) s, planModel config (.ofConfig config) s]
      ++ (if config.generateRules && !config.generateZodSchemas then
            [planRules config (.ofConfig config) s] else [])

/-- **The modules that a schema yields.** -/
def ownModules (collection : Collection) (config : Config) (s : Schema) : List PlannedModule :=
  enumModules config s ++ inlineModules config s ++ entityModules collection config s

/-- The modules that the settings yield: those of plugin enumerations, the common types, the
internationalisation. -/
def settingsModules (config : Config) : List PlannedModule :=
  ((Enumeration.allPlugin config).filterMap fun e => (planEnum Nesting.named config e).toOption)
    ++ [planCommon config (.ofConfig config), planI18n config (.ofConfig config)]

/-- **What a schema yields** depends on the names of the other entities alone. -/
theorem ownModules_congr {c c' : Collection} (h : c.SameEntities c') (config : Config)
    (s : Schema) : ownModules c config s = ownModules c' config s := by
  have hbase : planBase c config (.ofConfig config) s
      = planBase c' config (.ofConfig config) s := by
    rw [planBase, planBase, Interface.ofSchema_congr h]
  rw [ownModules, ownModules, entityModules, entityModules, hbase]

/-! ## 3. A plan in parts -/

/-- What is made of some elements of a list is made element by element. -/
theorem flatMap_filter (p : Schema → Bool) (f : Schema → List α) (l : List Schema) :
    (l.filter p).flatMap f = l.flatMap fun s => if p s then f s else [] := by
  induction l with
  | nil => rfl
  | cons s rest ih =>
    cases hs : p s with
    | true => rw [List.filter_cons_of_pos hs, List.flatMap_cons, List.flatMap_cons, ih, if_pos hs]
    | false =>
      rw [List.filter_cons_of_neg (by simp [hs]), List.flatMap_cons, ih, if_neg (by simp [hs])]
      rfl

theorem filterMap_all (collection : Collection) (config : Config) :
    ((Enumeration.all collection config).filterMap fun e =>
        (planEnum Nesting.named config e).toOption)
      = collection.schemas.flatMap (enumModules config) := by
  have hall : Enumeration.all collection config
      = collection.schemas.flatMap fun s => (Enumeration.ofSchema? config s).toList := by
    unfold Enumeration.all Collection.enumSchemas
    rw [List.filterMap_eq_flatMap_toList, flatMap_filter]
    congr 1
    funext s
    unfold Enumeration.ofSchema?
    split <;> rfl
  rw [hall, List.filterMap_flatMap]
  rfl

theorem filterMap_inline (collection : Collection) (config : Config) :
    ((InlineEnum.all collection config).filterMap fun x =>
        (planInline Nesting.inline config x).toOption)
      = collection.schemas.flatMap (inlineModules config) := by
  unfold InlineEnum.all Collection.objectSchemas
  rw [flatMap_filter, List.filterMap_flatMap]
  congr 1
  funext s
  unfold inlineModules
  cases s.isEnum <;> rfl

theorem planEntities_perm (collection : Collection) (config : Config) :
    (planEntities collection config (.ofConfig config)).Perm
      (collection.schemas.flatMap (entityModules collection config)) := by
  have hvisible : visibleSchemas collection
      = collection.schemas.filter fun s => !(s.isEnum || s.isHidden) := by
    unfold visibleSchemas Collection.objectSchemas
    rw [List.filter_filter]
    congr 1
    funext s
    cases s.isEnum <;> cases s.isHidden <;> rfl
  have hmodules : collection.schemas.flatMap (entityModules collection config)
      = (visibleSchemas collection).flatMap fun s =>
          [planBase collection config (.ofConfig config) s, planModel config (.ofConfig config) s]
            ++ (if config.generateRules && !config.generateZodSchemas then
                  [planRules config (.ofConfig config) s] else []) := by
    rw [hvisible, flatMap_filter]
    congr 1
    funext s
    unfold entityModules
    cases s.isEnum || s.isHidden <;> rfl
  have hpair := List.flatMap_append_perm (visibleSchemas collection)
    (fun s => [planBase collection config (.ofConfig config) s])
    (fun s => [planModel config (.ofConfig config) s])
  have hrules : (if config.generateRules && !config.generateZodSchemas then
      (visibleSchemas collection).map (planRules config (.ofConfig config)) else [])
        = (visibleSchemas collection).flatMap fun s =>
            if config.generateRules && !config.generateZodSchemas then
              [planRules config (.ofConfig config) s] else [] := by
    cases config.generateRules && !config.generateZodSchemas with
    | true => exact List.map_eq_flatMap
    | false => simp
  rw [hmodules]
  unfold planEntities
  simp only
  rw [hrules, List.map_eq_flatMap, List.map_eq_flatMap]
  exact (hpair.append_right _).trans (List.flatMap_append_perm _ _ _)

/-- **A plan is what each schema yields, what the settings yield, and the index.** -/
theorem planModules_perm {ms : List PlannedModule} (h : planModules collection config = .ok ms) :
    ms.Perm (collection.schemas.flatMap (ownModules collection config) ++ settingsModules config
      ++ [planIndex collection config (.ofConfig config)]) := by
  obtain ⟨-, enums, henums, -, rfl⟩ := planModules_eq_ok_iff.1 h
  obtain ⟨a, b, c, ha, hb, hc, rfl⟩ := planEnums_eq_ok_iff.1 henums
  rw [eq_filterMap_of_mapM ha, eq_filterMap_of_mapM hb, eq_filterMap_of_mapM hc, filterMap_all,
    filterMap_inline]
  have hown : (collection.schemas.flatMap (enumModules config)
        ++ collection.schemas.flatMap (inlineModules config)
        ++ collection.schemas.flatMap (entityModules collection config)).Perm
      (collection.schemas.flatMap (ownModules collection config)) :=
    ((List.flatMap_append_perm _ _ _).append_right _).trans (List.flatMap_append_perm _ _ _)
  have hentities := planEntities_perm collection config
  unfold settingsModules
  -- the parts are the same, and only the order of two of them differs
  rw [← Multiset.coe_eq_coe] at hown hentities ⊢
  simp only [← Multiset.coe_add] at hown ⊢
  rw [← hown, hentities,
    show [planCommon config (.ofConfig config), planI18n config (.ofConfig config),
        planIndex collection config (.ofConfig config)]
      = [planCommon config (.ofConfig config), planI18n config (.ofConfig config)]
        ++ [planIndex collection config (.ofConfig config)] from rfl, ← Multiset.coe_add]
  abel

/-! ## 4. Another order -/

/-- A new order of the schemas is a new order of the declared names. -/
theorem declarations_perm {c c' : Collection} (h : c.schemas.Perm c'.schemas) (config : Config) :
    (Check.declarations c config).Perm (Check.declarations c' config) := by
  have hinline : (InlineEnum.all c config).Perm (InlineEnum.all c' config) :=
    (h.filter _).flatMap_right _
  exact ((h.map _).append_right _).append (hinline.map _)

theorem plannedEnumerations_perm {c c' : Collection} (h : c.schemas.Perm c'.schemas)
    (config : Config) : (plannedEnumerations c config).Perm (plannedEnumerations c' config) := by
  have hall : (Enumeration.all c config).Perm (Enumeration.all c' config) :=
    (h.filter _).filterMap _
  have hinline : (InlineEnum.all c config).Perm (InlineEnum.all c' config) :=
    (h.filter _).flatMap_right _
  exact ((hall.append_right _).map _).append ((hinline.filterMap _).map _)

theorem mem_visibleSchemas_of_perm {c c' : Collection} (h : c.schemas.Perm c'.schemas)
    {s : Schema} : s ∈ visibleSchemas c ↔ s ∈ visibleSchemas c' :=
  ((h.filter _).filter _).mem_iff

/-- **Another order of the schemas has a plan as well.** -/
theorem exists_planModules_of_perm {c c' : Collection} (h : c.schemas.Perm c'.schemas)
    {ms : List PlannedModule} (hms : planModules c config = .ok ms) :
    ∃ ms', planModules c' config = .ok ms' := by
  obtain ⟨hnone, enums, henums, hnumbers, -⟩ := planModules_eq_ok_iff.1 hms
  have hnone' : Check.collisions c' config = [] := by
    rw [Check.collisions_eq_nil_iff] at hnone ⊢
    exact (((declarations_perm h config).map _).nodup_iff).1 hnone
  have hok : (planEnums c' config).isOk = true := by
    have hc : (planEnums c config).isOk = true := isOk_iff.2 ⟨enums, henums⟩
    rw [isOk_planEnums, List.all_eq_true] at hc ⊢
    exact fun e he => hc e ((plannedEnumerations_perm h config).mem_iff.2 he)
  have hnumbers' : checkNumbers c' config = .ok () := by
    rw [checkNumbers_eq_ok_iff] at hnumbers ⊢
    exact fun s hs => hnumbers s ((mem_visibleSchemas_of_perm h).2 hs)
  obtain ⟨enums', henums'⟩ := isOk_iff.1 hok
  exact ⟨_, planModules_eq_ok_iff.2 ⟨hnone', enums', henums', hnumbers', rfl⟩⟩

/-! ## 5. Files -/

/-- The files that a schema yields. -/
def ownFiles (collection : Collection) (config : Config) (s : Schema) : List GeneratedFile :=
  (ownModules collection config s).map PlannedModule.toFile

/-- The files that the settings yield. -/
def settingsFiles (config : Config) : List GeneratedFile :=
  (settingsModules config).map PlannedModule.toFile

/-- The file of the index. -/
def indexFile (collection : Collection) (config : Config) : GeneratedFile :=
  (planIndex collection config (.ofConfig config)).toFile

/-- **A plan of files** is what each schema yields, what the settings yield, and the index. -/
theorem plan_perm {files : List GeneratedFile} (h : plan collection config = .ok files) :
    files.Perm (collection.schemas.flatMap (ownFiles collection config) ++ settingsFiles config
      ++ [indexFile collection config]) := by
  obtain ⟨ms, hms, rfl⟩ := plan_eq_ok_iff.1 h
  have hperm := (planModules_perm hms).map PlannedModule.toFile
  rwa [List.map_append, List.map_append, List.map_flatMap] at hperm

/-- **Files do not depend on the other schemas.**  Two collections with the same names of entities
have the same files for a schema under the same settings; apart from these files, a plan of either
has only files that the settings alone yield, and the index.  Another order of the schemas has a
plan with the same files in another order, and only the content of the index is new. -/
theorem files_independent {c c' : Collection} {config : Config} {files files' : List GeneratedFile}
    (h : plan c config = .ok files) (h' : plan c' config = .ok files')
    (hsame : c.SameEntities c') :
    (∀ s, ownFiles c config s = ownFiles c' config s) ∧
      files.Perm (c.schemas.flatMap (ownFiles c config) ++ settingsFiles config
        ++ [indexFile c config]) ∧
      files'.Perm (c'.schemas.flatMap (ownFiles c' config) ++ settingsFiles config
        ++ [indexFile c' config]) ∧
      ∀ p : List Schema, p.Perm c.schemas → ∃ permuted others,
        plan ⟨p⟩ config = .ok permuted ∧ files.Perm (others ++ [indexFile c config]) ∧
          permuted.Perm (others ++ [{ indexFile c config with
            content := (indexFile ⟨p⟩ config).content }]) := by
  refine ⟨fun s => ?_, plan_perm h, plan_perm h', fun p hp => ?_⟩
  · rw [ownFiles, ownFiles, ownModules_congr hsame]
  · obtain ⟨ms, hms, rfl⟩ := plan_eq_ok_iff.1 h
    have hplanned : ∃ ms', planModules ⟨p⟩ config = .ok ms' :=
      exists_planModules_of_perm hp.symm hms
    obtain ⟨ms', hms'⟩ := hplanned
    have hplan : plan ⟨p⟩ config = .ok (ms'.map PlannedModule.toFile) :=
      plan_eq_ok_iff.2 ⟨ms', hms', rfl⟩
    refine ⟨_, _, hplan, plan_perm h, (plan_perm hplan).trans ?_⟩
    have hown : ownFiles ⟨p⟩ config = ownFiles c config := by
      funext s
      rw [ownFiles, ownModules_congr (.of_perm hp), ownFiles]
    rw [hown]
    exact ((hp.flatMap_right _).append_right _).append_right _

/-- One entity. -/
def lone : Collection := ⟨[{ name := "User" }]⟩

/-- The entity behind an enumeration. -/
def accompanied : Collection :=
  ⟨[{ name := "Role", kind := .enum, values := [{ value := "admin" }] }, { name := "User" }]⟩

theorem files_independent_accompanied :
    (∃ files, plan lone {} = .ok files) ∧ (∃ files, plan accompanied {} = .ok files) ∧
      lone.SameEntities accompanied ∧ ∀ s, ownFiles lone {} s = ownFiles accompanied {} s := by
  have hlone : ∃ files, plan lone {} = .ok files :=
    isOk_iff.1 ((plan_isOk_iff (by decide)).2 ⟨by decide, by decide⟩)
  have haccompanied : ∃ files, plan accompanied {} = .ok files :=
    isOk_iff.1 ((plan_isOk_iff (by decide)).2 ⟨by decide, by decide⟩)
  have hsame : lone.SameEntities accompanied := fun _ => Iff.rfl
  obtain ⟨files, h⟩ := hlone
  obtain ⟨files', h'⟩ := haccompanied
  exact ⟨⟨files, h⟩, ⟨files', h'⟩, hsame, (files_independent h h' hsame).1⟩

end Output

end SchemaTypes
