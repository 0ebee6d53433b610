/-
# The files of a plan

When there is a plan (`planModules_eq_ok_iff`) and which modules it holds (`mem_planModules_iff`):
one for each enumeration of a schema, a plugin or a property, two or three for each visible entity,
and the three shared ones.  `Origin` has one case for each of them, so that what holds of all
planned modules is proved by cases on where they come from.
-/
import SchemaTypes.Output.Plan
import SchemaTypes.Proofs.Fallible

namespace SchemaTypes.Output

/-! ## 1. Enumerations -/

variable {collection : Collection} {config : Config}

/-- The module of an enumeration. -/
theorem planEnum_eq_ok_iff {room : Nat} {e : Enumeration} {m : PlannedModule} :
    planEnum room config e = .ok m ↔
      ∃ source, enumModule room e config.localeConfig.fallbackLocale = .ok source ∧
        m = { path := e.name ++ ".ts", source := source
              category := if e.plugin then .pluginEnum else .enum, types := [e.name] } := by
  unfold planEnum
  cases enumModule room e config.localeConfig.fallbackLocale with
  | error u => exact ⟨fun h => (nomatch h), fun ⟨_, h, _⟩ => nomatch h⟩
  | ok source =>
    constructor
    · intro h
      exact ⟨source, rfl, (Except.ok.inj h).symm⟩
    · rintro ⟨source', h, rfl⟩
      rw [Except.ok.inj h]

/-- An enumeration that cannot be written is no collision. -/
theorem planEnum_ne_collisions (room : Nat) (e : Enumeration) (cs : List Collision) :
    planEnum room config e ≠ .error (.collisions cs) := by
  unfold planEnum
  split
  · exact fun h => nomatch h
  · exact fun h => nomatch h

/-! ## 2. The plan -/

theorem mem_planEntities_iff {m : PlannedModule} {paths : ImportPaths} :
    m ∈ planEntities collection config paths ↔
      ∃ s ∈ visibleSchemas collection, m = planBase collection config paths s ∨
        m = planModel config paths s ∨
        (config.generateRules && !config.generateZodSchemas) = true ∧
          m = planRules config paths s := by
  unfold planEntities
  cases (config.generateRules && !config.generateZodSchemas) <;> grind

/-- The check lets exactly those entities pass whose numbers are all short. -/
theorem checkNumbers_eq_ok_iff :
    checkNumbers collection config = .ok () ↔
      ∀ s ∈ visibleSchemas collection, ∀ b ∈ numbersOf config s, b.IsShort := by
  unfold checkNumbers
  split
  · next s hs =>
    refine ⟨fun h => (nomatch h), fun h => ?_⟩
    have hlong := List.find?_some hs
    rw [Bool.not_eq_true', decide_eq_false_iff_not] at hlong
    exact absurd (h s (List.mem_of_find?_eq_some hs)) hlong
  · next hnone =>
    refine ⟨fun _ s hs => ?_, fun _ => rfl⟩
    have hshort := List.find?_eq_none.1 hnone s hs
    rwa [Bool.not_eq_true, Bool.not_eq_false', decide_eq_true_eq] at hshort

variable [Nesting]

theorem planEnums_eq_ok_iff {enums : List PlannedModule} :
    planEnums collection config = .ok enums ↔
      ∃ a b c, (Enumeration.all collection config).mapM (planEnum Nesting.named config) = .ok a ∧
        (Enumeration.allPlugin config).mapM (planEnum Nesting.named config) = .ok b ∧
        (InlineEnum.all collection config).mapM (planInline Nesting.inline config) = .ok c ∧
        enums = a ++ b ++ c := by
  unfold planEnums
  simp only [bind_eq_ok_iff]
  constructor
  · rintro ⟨a, ha, b, hb, c, hc, h⟩
    exact ⟨a, b, c, ha, hb, hc, (Except.ok.inj h).symm⟩
  · rintro ⟨a, b, c, ha, hb, hc, rfl⟩
    exact ⟨a, ha, b, hb, c, hc, rfl⟩

theorem planEnums_ne_collisions (cs : List Collision) :
    planEnums collection config ≠ .error (.collisions cs) := by
  intro h
  rcases eq_error_of_bind h with h | ⟨a, h⟩
  · obtain ⟨e, -, he⟩ := eq_error_of_mapM h
    exact planEnum_ne_collisions _ e cs he
  · rcases eq_error_of_bind h with h | ⟨b, h⟩
    · obtain ⟨e, -, he⟩ := eq_error_of_mapM h
      exact planEnum_ne_collisions _ e cs he
    · rcases eq_error_of_bind h with h | ⟨c, h⟩
      · obtain ⟨x, -, hx⟩ := eq_error_of_mapM h
        rcases x with ⟨_, _, e⟩ | ⟨_, _, a⟩
        · exact planEnum_ne_collisions _ e cs hx
        · exact nomatch hx
      · exact nomatch h

theorem planModules_eq_ok_iff {ms : List PlannedModule} :
    planModules collection config = .ok ms ↔
      Check.collisions collection config = [] ∧
        ∃ enums, planEnums collection config = .ok enums ∧
          checkNumbers collection config = .ok () ∧
          ms = enums ++ planEntities collection config (.ofConfig config)
            ++ [planCommon config (.ofConfig config), planI18n config (.ofConfig config),
                planIndex collection config (.ofConfig config)] := by
  unfold planModules
  by_cases hc : Check.collisions collection config = []
  · simp only [hc, List.isEmpty_nil, if_true, true_and, bind_eq_ok_iff]
    constructor
    · rintro ⟨enums, he, ⟨⟩, hn, h⟩
      exact ⟨enums, he, hn, (Except.ok.inj h).symm⟩
    · rintro ⟨enums, he, hn, rfl⟩
      exact ⟨enums, he, (), hn, rfl⟩
  · simp [hc]

/-- The files of a plan are those of its modules. -/
theorem plan_eq_ok_iff {files : List GeneratedFile} :
    plan collection config = .ok files ↔
      ∃ ms, planModules collection config = .ok ms ∧ files = ms.map PlannedModule.toFile := by
  unfold plan
  rw [bind_eq_ok_iff]
  constructor
  · rintro ⟨ms, hms, h⟩
    exact ⟨ms, hms, (Except.ok.inj h).symm⟩
  · rintro ⟨ms, hms, rfl⟩
    exact ⟨ms, hms, rfl⟩

/-- **A plan is refused for collisions exactly when there are some**, and then for all of them. -/
theorem plan_eq_error_collisions_iff {cs : List Collision} :
    plan collection config = .error (.collisions cs) ↔
      Check.collisions collection config ≠ [] ∧ cs = Check.collisions collection config := by
  by_cases hc : Check.collisions collection config = []
  · refine ⟨fun h => ?_, fun h => absurd hc h.1⟩
    rcases eq_error_of_bind h with h | ⟨ms, h⟩
    · rw [planModules, hc] at h
      rcases eq_error_of_bind h with h | ⟨enums, h⟩
      · exact absurd h (planEnums_ne_collisions cs)
      · rcases eq_error_of_bind h with h | ⟨_, h⟩
        · unfold checkNumbers at h
          split at h
          · cases h
          · cases h
        · cases h
    · cases h
  · rw [plan_eq_error_collisions hc]
    simp [hc, eq_comm]

/-! ## 3. Where modules come from -/

/-- The modules of a successful plan, by what they are made from. -/
inductive Origin (collection : Collection) (config : Config) : PlannedModule → Prop
  | schemaEnum {e : Enumeration} {m : PlannedModule} (mem : e ∈ Enumeration.all collection config)
      (eq : planEnum Nesting.named config e = .ok m) : Origin collection config m
  | pluginEnum {e : Enumeration} {m : PlannedModule} (mem : e ∈ Enumeration.allPlugin config)
      (eq : planEnum Nesting.named config e = .ok m) : Origin collection config m
  | inline {x : InlineEnum} {m : PlannedModule} (mem : x ∈ InlineEnum.all collection config)
      (eq : planInline Nesting.inline config x = .ok m) : Origin collection config m
  | base {s : Schema} (mem : s ∈ visibleSchemas collection) :
      Origin collection config (planBase collection config (.ofConfig config) s)
  | model {s : Schema} (mem : s ∈ visibleSchemas collection) :
      Origin collection config (planModel config (.ofConfig config) s)
  | rules {s : Schema} (wanted : (config.generateRules && !config.generateZodSchemas) = true)
      (mem : s ∈ visibleSchemas collection) :
      Origin collection config (planRules config (.ofConfig config) s)
  | common : Origin collection config (planCommon config (.ofConfig config))
  | i18n : Origin collection config (planI18n config (.ofConfig config))
  | index : Origin collection config (planIndex collection config (.ofConfig config))

/-- **The modules of a plan** are those with an origin. -/
theorem mem_planModules_iff {ms : List PlannedModule} (h : planModules collection config = .ok ms)
    (m : PlannedModule) : m ∈ ms ↔ Origin collection config m := by
  obtain ⟨-, enums, he, -, rfl⟩ := planModules_eq_ok_iff.1 h
  obtain ⟨a, b, c, ha, hb, hc, rfl⟩ := planEnums_eq_ok_iff.1 he
  simp only [List.mem_append, (mem_of_mapM ha).1, (mem_of_mapM hb).1, (mem_of_mapM hc).1,
    mem_planEntities_iff, List.mem_cons, List.not_mem_nil, or_false]
  constructor
  · rintro ((((⟨e, hm, he⟩ | ⟨e, hm, he⟩) | ⟨x, hm, hx⟩) | ⟨s, hm, rfl | rfl | ⟨hw, rfl⟩⟩) |
      rfl | rfl | rfl)
    · exact .schemaEnum hm he
    · exact .pluginEnum hm he
    · exact .inline hm hx
    · exact .base hm
    · exact .model hm
    · exact .rules hw hm
    · exact .common
    · exact .i18n
    · exact .index
  · rintro (⟨hm, he⟩ | ⟨hm, he⟩ | ⟨hm, hx⟩ | hm | hm | ⟨hw, hm⟩ | _ | _ | _)
    · exact .inl (.inl (.inl (.inl ⟨_, hm, he⟩)))
    · exact .inl (.inl (.inl (.inr ⟨_, hm, he⟩)))
    · exact .inl (.inl (.inr ⟨_, hm, hx⟩))
    · exact .inl (.inr ⟨_, hm, .inl rfl⟩)
    · exact .inl (.inr ⟨_, hm, .inr (.inl rfl)⟩)
    · exact .inl (.inr ⟨_, hm, .inr (.inr ⟨hw, rfl⟩)⟩)
    · exact .inr (.inl rfl)
    · exact .inr (.inr (.inl rfl))
    · exact .inr (.inr (.inr rfl))

/-- Every enumeration of a successful plan has its module. -/
theorem exists_module_of_mem {ms : List PlannedModule}
    (h : planModules collection config = .ok ms) :
    (∀ e ∈ Enumeration.all collection config, ∃ m, planEnum Nesting.named config e = .ok m) ∧
      (∀ e ∈ Enumeration.allPlugin config, ∃ m, planEnum Nesting.named config e = .ok m) ∧
      ∀ x ∈ InlineEnum.all collection config, ∃ m, planInline Nesting.inline config x = .ok m := by
  obtain ⟨-, enums, he, -⟩ := planModules_eq_ok_iff.1 h
  obtain ⟨a, b, c, ha, hb, hc, -⟩ := planEnums_eq_ok_iff.1 he
  exact ⟨(mem_of_mapM ha).2, (mem_of_mapM hb).2, (mem_of_mapM hc).2⟩

end SchemaTypes.Output
