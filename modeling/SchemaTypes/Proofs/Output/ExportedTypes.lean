/-
# The types of a planned file

A planned file names its types (`PlannedModule.types`).  For each kind of file these are names that
its text declares for others, with one exception (`types_exported`): the file of an entity that has
validators names the types for creating and updating the entity as the model file has them, but
declares them with a prefix (`utilityNames_not_exported`).
-/
import SchemaTypes.Proofs.Output.Exports
import SchemaTypes.Proofs.TypeScript.Declared

namespace SchemaTypes.Output

open TypeScript (Declares SourceFile)

variable {collection : Collection} {config : Config} {paths : ImportPaths}

/-! ## 1. Types that are declared -/

/-- The file declares all of its types. -/
def DeclaresTypes (m : PlannedModule) : Prop := ∀ n ∈ m.types, n ∈ m.source.declaredNames

theorem declaresTypes_planEnum {room : Nat} {e : Enumeration} {m : PlannedModule}
    (h : planEnum room config e = .ok m) : DeclaresTypes m := by
  obtain ⟨source, hsource, rfl⟩ := planEnum_eq_ok_iff.1 h
  obtain ⟨extra, -, hfile⟩ := bind_eq_ok_iff.1 hsource
  intro n hn
  obtain rfl := List.mem_singleton.1 hn
  rw [← Except.ok.inj hfile]
  refine mem_declaredNames_of_declare
    (List.mem_append_left _ (List.mem_append_left _ List.mem_cons_self)) rfl

theorem declaresTypes_planAlias (a : TypeAlias) : DeclaresTypes (planAlias a) := by
  intro n hn
  obtain rfl := List.mem_singleton.1 hn
  exact mem_declaredNames_of_declare List.mem_cons_self rfl

/-- A model file declares the entity, with validators or without. -/
theorem declaresTypes_planModel (s : Schema) : DeclaresTypes (planModel config paths s) := by
  intro n hn
  obtain rfl := List.mem_singleton.1 hn
  rw [planModel, modelModule]
  split
  · exact mem_declaredNames_of_declare (List.mem_cons_of_mem _ List.mem_cons_self) rfl
  · exact mem_declaredNames_of_declare List.mem_cons_self rfl

theorem declaresTypes_planRules (s : Schema) : DeclaresTypes (planRules config paths s) := by
  intro n hn
  rcases List.mem_pair.1 hn with rfl | rfl
  · exact mem_declaredNames_of_declare
      (List.mem_cons_of_mem _ (List.mem_cons_of_mem _ List.mem_cons_self)) rfl
  · exact mem_declaredNames_of_declare List.mem_cons_self rfl

theorem declaresTypes_planCommon : DeclaresTypes (planCommon config paths) := by
  intro n hn
  have hnames : (planCommon config paths).source.declaredNames = commonNames := rfl
  rw [hnames]
  exact hn

theorem declaresTypes_planI18n : DeclaresTypes (planI18n config paths) := by
  intro n hn
  have hnames : (planI18n config paths).source.declaredNames = i18nNames := rfl
  have htypes : ∀ n ∈ ["validationMessages", "getMessage", "getMessages"], n ∈ i18nNames := by
    decide
  rw [hnames]
  exact htypes n hn

/-! ## 2. The file of an entity -/

/-- What the file of an entity declares without validators. -/
theorem declaredNames_planBase_plain (h : config.generateZodSchemas = false) (s : Schema) :
    (planBase collection config paths s).source.declaredNames = s.name :: utilityNames s.name := by
  unfold planBase
  rw [h]
  rfl

/-- What it declares with validators. -/
theorem declaredNames_planBase_zod (h : config.generateZodSchemas = true) (s : Schema) :
    (planBase collection config paths s).source.declaredNames
      = [s.name, Naming.lowerFirst s.name ++ "I18n", "base" ++ s.name ++ "Schemas",
         "base" ++ s.name ++ "CreateSchema", "base" ++ s.name ++ "UpdateSchema",
         "Base" ++ s.name ++ "Create", "Base" ++ s.name ++ "Update", "get" ++ s.name ++ "Label",
         "get" ++ s.name ++ "FieldLabel", "get" ++ s.name ++ "FieldPlaceholder"] := by
  unfold planBase
  rw [h]
  rfl

/-- Nothing is passed on by the file of an entity. -/
theorem exportedNames_planBase (s : Schema) :
    (planBase collection config paths s).source.exportedNames
      = (planBase collection config paths s).source.declaredNames := by
  unfold planBase
  cases config.generateZodSchemas <;> exact List.append_nil _

/-- **With validators the types for creating and updating an entity are not declared under their
names**: all other names of the file end otherwise, or are longer or shorter. -/
theorem utilityNames_not_exported (h : config.generateZodSchemas = true) (s : Schema) {n : String}
    (hn : n ∈ utilityNames s.name) :
    n ∉ (planBase collection config paths s).source.exportedNames ∧
      "Base" ++ n ∈ (planBase collection config paths s).source.declaredNames := by
  rw [exportedNames_planBase, declaredNames_planBase_zod h]
  obtain ⟨tail, htail, rfl⟩ : ∃ tail ∈ ["Create", "Update"], n = s.name ++ tail := by
    rcases List.mem_pair.1 hn with rfl | rfl
    · exact ⟨"Create", by decide, rfl⟩
    · exact ⟨"Update", by decide, rfl⟩
  have hlength : (s.name ++ tail).toList.length = s.name.toList.length + 6 := by
    rcases List.mem_pair.1 htail with rfl | rfl <;> simp
  have hlast : (s.name ++ tail).toList.getLast? = some 'e' := by
    rcases List.mem_pair.1 htail with rfl | rfl <;> simp
  have hends {a b : String} (hne : b.toList ≠ []) (hb : b.toList.getLast? ≠ some 'e') :
      s.name ++ tail ≠ a ++ b := by
    intro heq
    rw [heq, String.toList_append, List.getLast?_append_of_ne_nil _ hne] at hlast
    exact hb hlast
  have hlong {a b : String} (hab : a.toList.length + b.toList.length = 10) :
      s.name ++ tail ≠ a ++ s.name ++ b := by
    intro heq
    rw [heq, String.toList_append, String.toList_append, List.length_append, List.length_append]
      at hlength
    omega
  have hself : s.name ++ tail ≠ s.name := by
    intro heq
    rw [heq] at hlength
    omega
  constructor
  · simp only [List.mem_cons, List.not_mem_nil, or_false, not_or]
    exact ⟨hself, hends (by decide) (by decide), hends (by decide) (by decide),
      hends (by decide) (by decide), hends (by decide) (by decide), hlong (by decide),
      hlong (by decide), hends (by decide) (by decide), hends (by decide) (by decide),
      hends (by decide) (by decide)⟩
  · rw [← String.append_assoc]
    rcases List.mem_pair.1 htail with rfl | rfl <;> simp

/-! ## 3. All planned files -/

/-- The file names its types truly: its text declares each of them for others. -/
def NamesTypes (m : PlannedModule) : Prop :=
  ∀ n ∈ m.types, n ∈ m.source.exportedNames ∧ Declares m.toFile.content n

theorem namesTypes_of_declaresTypes {m : PlannedModule} (h : DeclaresTypes m) : NamesTypes m :=
  fun n hn => ⟨List.mem_append_left _ (h n hn), SourceFile.declares_of_mem (h n hn)⟩

/-- Every file but that of an entity with validators declares its types. -/
theorem declaresTypes_of_origin {m : PlannedModule} (h : Origin collection config m)
    (hbase : config.generateZodSchemas = true → ∀ s ∈ visibleSchemas collection,
      m ≠ planBase collection config (.ofConfig config) s) : DeclaresTypes m := by
  cases h with
  | schemaEnum _ heq => exact declaresTypes_planEnum heq
  | pluginEnum _ heq => exact declaresTypes_planEnum heq
  | @inline x m _ heq =>
    cases x with
    | enum _ _ e => exact declaresTypes_planEnum heq
    | «alias» _ _ a =>
      obtain rfl := Except.ok.inj heq
      exact declaresTypes_planAlias a
  | @base s hs =>
    cases hzod : config.generateZodSchemas with
    | true => exact absurd rfl (hbase hzod s hs)
    | false =>
      intro n hn
      rw [declaredNames_planBase_plain hzod]
      exact hn
  | model _ => exact declaresTypes_planModel _
  | rules _ _ => exact declaresTypes_planRules _
  | common => exact declaresTypes_planCommon
  | i18n => exact declaresTypes_planI18n
  | index => exact fun n hn => nomatch hn

/-- What the planned files say about their types. -/
structure TypesExported (collection : Collection) (config : Config) (ms : List PlannedModule) :
    Prop where
  /-- A name among the types of a file is declared by it, or is that of a type for creating or
  updating an entity with validators; then the file declares it with a prefix instead. -/
  declared : ∀ m ∈ ms, ∀ n ∈ m.types,
    n ∈ m.source.exportedNames ∧ Declares m.toFile.content n ∨
      config.generateZodSchemas = true ∧
        (∃ s ∈ visibleSchemas collection,
          m = planBase collection config (.ofConfig config) s ∧ n ∈ utilityNames s.name) ∧
        n ∉ m.source.exportedNames ∧ Declares m.toFile.content ("Base" ++ n)
  /-- All files name their types truly exactly if no entity has validators. -/
  all : (∀ m ∈ ms, NamesTypes m) ↔
    config.generateZodSchemas = false ∨ visibleSchemas collection = []

/-- **The types of the planned files are exported by them** exactly if validators are off or there
is no visible entity. -/
theorem types_exported {ms : List PlannedModule} (hms : planModules collection config = .ok ms) :
    TypesExported collection config ms := by
  have horigin : ∀ m ∈ ms, Origin collection config m := fun m hm =>
    (mem_planModules_iff hms m).1 hm
  constructor
  case declared =>
    intro m hm n hn
    by_cases hbase : config.generateZodSchemas = true ∧ ∃ s ∈ visibleSchemas collection,
        m = planBase collection config (.ofConfig config) s
    · obtain ⟨hzod, s, hs, rfl⟩ := hbase
      rcases List.mem_cons.1 hn with rfl | hn
      · have hself : s.name
            ∈ (planBase collection config (.ofConfig config) s).source.declaredNames := by
          rw [declaredNames_planBase_zod hzod]
          exact List.mem_cons_self
        exact .inl ⟨List.mem_append_left _ hself, SourceFile.declares_of_mem hself⟩
      · obtain ⟨hnot, hprefixed⟩ := utilityNames_not_exported hzod s hn
        exact .inr ⟨hzod, ⟨s, hs, rfl, hn⟩, hnot, SourceFile.declares_of_mem hprefixed⟩
    · refine .inl (namesTypes_of_declaresTypes (declaresTypes_of_origin (horigin m hm) ?_) n hn)
      intro hzod s hs heq
      exact hbase ⟨hzod, s, hs, heq⟩
  case all =>
    constructor
    · intro h
      by_contra hnot
      rw [not_or, Bool.not_eq_false] at hnot
      obtain ⟨s, hs⟩ := List.exists_mem_of_ne_nil _ hnot.2
      have hfile := h _ ((mem_planModules_iff hms _).2 (.base hs))
      have hcreate : s.name ++ "Create" ∈ utilityNames s.name := List.mem_cons_self
      exact (utilityNames_not_exported hnot.1 s hcreate).1
        (hfile _ (List.mem_cons_of_mem _ hcreate)).1
    · intro h m hm
      refine namesTypes_of_declaresTypes (declaresTypes_of_origin (horigin m hm) ?_)
      intro hzod s hs
      rcases h with hplain | hnone
      · rw [hplain] at hzod
        cases hzod
      · rw [hnone] at hs
        exact nomatch hs

/-- An entity and an enumeration. -/
def members : Collection :=
  ⟨[{ name := "User" }, { name := "Role", kind := .enum, values := [{ value := "admin" }] }]⟩

theorem types_exported_members :
    ∃ ms, planModules members { generateZodSchemas := false } = .ok ms ∧
      TypesExported members { generateZodSchemas := false } ms ∧ ∀ m ∈ ms, NamesTypes m := by
  have hplan : ∃ ms, planModules members { generateZodSchemas := false } = .ok ms :=
    ⟨_, planModules_eq_ok_iff.2 ⟨by decide, _, rfl, rfl, rfl⟩⟩
  obtain ⟨ms, hms⟩ := hplan
  exact ⟨ms, hms, types_exported hms, (types_exported hms).all.2 (.inl rfl)⟩

/-- With validators the file of a user names a type that it does not export. -/
theorem userCreate_not_exported :
    ∃ ms, planModules members {} = .ok ms ∧ ∃ m ∈ ms, m.path = "base/User.ts" ∧
      "UserCreate" ∈ m.types ∧ "UserCreate" ∉ m.source.exportedNames := by
  have hplan : ∃ ms, planModules members {} = .ok ms :=
    ⟨_, planModules_eq_ok_iff.2 ⟨by decide, _, rfl, rfl, rfl⟩⟩
  obtain ⟨ms, hms⟩ := hplan
  have huser : ({ name := "User" } : Schema) ∈ visibleSchemas members := List.mem_cons_self
  exact ⟨ms, hms, _, (mem_planModules_iff hms _).2 (.base huser), by decide, by decide, by decide⟩

end SchemaTypes.Output
