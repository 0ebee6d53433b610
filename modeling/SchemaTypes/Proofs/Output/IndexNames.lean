/-
# The names that the index passes on

The index passes on every type of a tree together with what is named after it: lists of values,
guards, labels, validators, rules.  Such a name is the name of the type between two fixed texts
(`Helper.spell`), and the fixed texts of two names say whether the names can be one
(`Helper.meets_of_spell_eq`).  Few of them can; the index passes on a name twice exactly if the
types of a tree bring one of those cases about (`index_names_nodup_iff`).
-/
import SchemaTypes.Proofs.Check.Names
import SchemaTypes.Proofs.Output.Exports

namespace SchemaTypes.Output

open Text (startsWith endsWith startsWith_iff endsWith_iff)
open TypeScript (Block ExportDecl SourceFile Specifier)

/-! ## 1. Names from names -/

/-- How something is named after a type: what stands before the name of the type and behind it, and
whether that name begins in small form. -/
structure Helper where
  before : String := ""
  after : String := ""
  lowered : Bool := false
deriving DecidableEq, Repr

namespace Helper

/-- The name for a type. -/
def spell (h : Helper) (type : String) : String :=
  h.before ++ (if h.lowered then Naming.lowerFirst type else type) ++ h.after

/-- The type itself. -/
def self : Helper := {}

/-- The guard of an enumeration. -/
def guard : Helper := { before := "is" }

/-- The function for the labels of a type. -/
def label : Helper := { before := "get", after := "Label" }

/-- The function for the labels of fields. -/
def fieldLabel : Helper := { before := "get", after := "FieldLabel" }

/-- The function for the name of an entity that is shown. -/
def displayName : Helper := { before := "get", after := "DisplayName" }

/-- The function for the names of properties that are shown. -/
def propertyDisplayName : Helper := { before := "get", after := "PropertyDisplayName" }

/-- The validators of an entity. -/
def schemas : Helper := { after := "Schemas", lowered := true }

/-- What the index passes on of an enumeration or an alias. -/
def ofValues : List Helper :=
  [self, { after := "Values" }, guard, label, { before := "get", after := "Extra" }]

/-- What it passes on of an entity, with validators or without. -/
def ofEntities (zod : Bool) : List Helper :=
  [self, { after := "Create" }, { after := "Update" }]
    ++ if zod then
        [schemas, { after := "CreateSchema", lowered := true },
          { after := "UpdateSchema", lowered := true }, { after := "I18n", lowered := true }, label,
          fieldLabel, { before := "get", after := "FieldPlaceholder" }]
      else []

/-- What it passes on of the rules of an entity. -/
def ofRules : List Helper :=
  [{ before := "get", after := "Rules" }, displayName, propertyDisplayName]

/-- Both for one entity. -/
def ofEntity (zod rules : Bool) : List Helper := ofEntities zod ++ if rules then ofRules else []

/-- All of them. -/
def all : List Helper := ofValues ++ ofEntities true ++ ofRules

theorem map_spell_ofValues (x : String) : ofValues.map (·.spell x) = valueNames x := by
  simp [ofValues, spell, valueNames, self, guard, label]

theorem map_spell_ofEntities (x : String) (zod : Bool) : (ofEntities zod).map (·.spell x)
    = x :: utilityNames x ++ if zod then modelSchemaNames x ++ labelHelpers x else [] := by
  cases zod <;>
    simp [ofEntities, spell, utilityNames, modelSchemaNames, labelHelpers, self, label, fieldLabel,
      schemas]

theorem map_spell_ofRules (x : String) : ofRules.map (·.spell x) = ruleNames x := by
  simp [ofRules, spell, ruleNames, displayName, propertyDisplayName]

@[simp] theorem spell_self (x : String) : self.spell x = x := by simp [spell, self]

@[simp] theorem spell_guard (x : String) : guard.spell x = "is" ++ x := by simp [spell, guard]

/-- Without the change of case, a name tells the type. -/
theorem spell_inj {h : Helper} (hl : h.lowered = false) {x y : String}
    (heq : h.spell x = h.spell y) : x = y := by
  have hchars := congrArg String.toList heq
  simp only [spell, hl, Bool.false_eq_true, if_false, String.toList_append] at hchars
  exact String.toList_inj.1 (List.append_cancel_left (List.append_cancel_right hchars))

/-- With it, a name tells the type in small form. -/
theorem lowerFirst_eq_of_spell_eq {h : Helper} (hl : h.lowered = true) {x y : String}
    (heq : h.spell x = h.spell y) : Naming.lowerFirst x = Naming.lowerFirst y := by
  have hchars := congrArg String.toList heq
  simp only [spell, hl, if_true, String.toList_append] at hchars
  exact String.toList_inj.1 (List.append_cancel_left (List.append_cancel_right hchars))

/-- The labels of fields are named like the labels of a type whose name ends so. -/
theorem spell_fieldLabel (x : String) : fieldLabel.spell x = label.spell (x ++ "Field") := by
  show "get" ++ x ++ ("Field" ++ "Label") = "get" ++ (x ++ "Field") ++ "Label"
  simp only [String.append_assoc]

/-- The shown names of properties, too. -/
theorem spell_propertyDisplayName (x : String) :
    propertyDisplayName.spell x = displayName.spell (x ++ "Property") := by
  show "get" ++ x ++ ("Property" ++ "DisplayName") = "get" ++ (x ++ "Property") ++ "DisplayName"
  simp only [String.append_assoc]

/-! ## 2. Names that can be one -/

/-- The fixed texts of two names fit together. -/
def meets (h h' : Helper) : Bool :=
  (startsWith h.before h'.before || startsWith h'.before h.before)
    && (endsWith h.after h'.after || endsWith h'.after h.after)

/-- **Names that are one** have fixed texts that fit together. -/
theorem meets_of_spell_eq {h h' : Helper} {x y : String} (heq : h.spell x = h'.spell y) :
    h.meets h' = true := by
  have hchars := congrArg String.toList heq
  simp only [spell, String.toList_append, List.append_assoc] at hchars
  have hbefore : h.before.toList <+: h'.before.toList ∨ h'.before.toList <+: h.before.toList := by
    have hfront := List.prefix_append h.before.toList
      ((if h.lowered then Naming.lowerFirst x else x).toList ++ h.after.toList)
    rw [hchars] at hfront
    exact List.prefix_or_prefix_of_prefix hfront (List.prefix_append _ _)
  have hafter : h.after.toList <:+ h'.after.toList ∨ h'.after.toList <:+ h.after.toList := by
    rw [← List.append_assoc, ← List.append_assoc] at hchars
    have hback := List.suffix_append
      (h.before.toList ++ (if h.lowered then Naming.lowerFirst x else x).toList) h.after.toList
    rw [hchars] at hback
    exact List.suffix_or_suffix_of_suffix hback (List.suffix_append _ _)
  rw [meets, Bool.and_eq_true, Bool.or_eq_true, Bool.or_eq_true, startsWith_iff, startsWith_iff,
    endsWith_iff, endsWith_iff]
  exact ⟨hbefore.symm, hafter.symm⟩

/-- Two kinds of names whose fixed texts fit together without being the same. -/
inductive Close : Helper → Helper → Prop
  | self (h : Helper) : Close self h
  | guard {h : Helper} (front : h.before = "") : Close guard h
  | label : Close label fieldLabel
  | displayName : Close displayName propertyDisplayName

instance (h h' : Helper) : Decidable (Close h h') :=
  decidable_of_iff (h = .self ∨ h = .guard ∧ h'.before = "" ∨ h = .label ∧ h' = .fieldLabel ∨
      h = .displayName ∧ h' = .propertyDisplayName) <| by
    constructor
    · rintro (rfl | ⟨rfl, hfront⟩ | ⟨rfl, rfl⟩ | ⟨rfl, rfl⟩)
      · exact .self h'
      · exact .guard hfront
      · exact .label
      · exact .displayName
    · rintro (_ | hfront | _ | _)
      · exact .inl rfl
      · exact .inr (.inl ⟨rfl, hfront⟩)
      · exact .inr (.inr (.inl ⟨rfl, rfl⟩))
      · exact .inr (.inr (.inr ⟨rfl, rfl⟩))

/-- **Which names can be one**: those of one kind, and those of kinds that are close. -/
theorem close_of_meets : ∀ h ∈ all, ∀ h' ∈ all, h.meets h' = true →
    h = h' ∨ Close h h' ∨ Close h' h := by
  decide

/-- No shared name is made like that of a helper. -/
theorem spell_not_mem_shared {h : Helper} (hmem : h ∈ all) (hself : h ≠ self) (x : String) :
    h.spell x ∉ commonNames ++ i18nNames := by
  have hfree : ∀ h ∈ all, h ≠ self → ∀ n ∈ commonNames ++ i18nNames,
      ¬ (startsWith n h.before = true ∧ endsWith n h.after = true) := by decide
  intro hn
  refine hfree h hmem hself _ hn ⟨startsWith_iff.2 ?_, endsWith_iff.2 ?_⟩
  · rw [spell, String.append_assoc, String.toList_append]
    exact List.prefix_append _ _
  · rw [spell, String.toList_append]
    exact List.suffix_append _ _

end Helper

/-! ## 3. Passing names on -/

/-- Blocks that declare nothing and pass names on. -/
structure Passes (bs : List Block) (names : List String) : Prop where
  declares : Block.declarationsOf bs = []
  known : ((Block.exportDeclsOf bs).flatMap fun d => d.names.map Specifier.known) = names

namespace Passes

variable {bs bs' : List Block} {names names' : List String}

theorem nil : Passes [] [] := ⟨rfl, rfl⟩

theorem append (h : Passes bs names) (h' : Passes bs' names') :
    Passes (bs ++ bs') (names ++ names') := by
  constructor
  · rw [Block.declarationsOf_eq_flatMap, List.flatMap_append, ← Block.declarationsOf_eq_flatMap,
      ← Block.declarationsOf_eq_flatMap, h.declares, h'.declares, List.append_nil]
  · rw [Block.exportDeclsOf_eq_flatMap, List.flatMap_append, ← Block.exportDeclsOf_eq_flatMap,
      ← Block.exportDeclsOf_eq_flatMap, List.flatMap_append, h.known, h'.known]

theorem exports (d : ExportDecl) : Passes [.exports d] (d.names.map Specifier.known) :=
  ⟨rfl, List.append_nil _⟩

theorem flatMap {α : Type} {f : α → List Block} {g : α → List String} {xs : List α}
    (h : ∀ x ∈ xs, Passes (f x) (g x)) : Passes (xs.flatMap f) (xs.flatMap g) := by
  induction xs with
  | nil => exact nil
  | cons x r ih =>
    rw [List.flatMap_cons, List.flatMap_cons]
    exact (h x List.mem_cons_self).append (ih fun y hy => h y (List.mem_cons_of_mem _ hy))

/-- A comment in front of a group passes nothing on. -/
theorem group (h : Passes bs names) (title : String) :
    Passes [.group (.comment title :: bs)] names := by
  constructor
  · show (Block.declarationsOf bs) ++ [] = []
    rw [List.append_nil, h.declares]
  · show List.flatMap _ (Block.exportDeclsOf bs ++ []) = names
    rw [List.append_nil, h.known]

theorem groupUnder (h : Passes bs names) (title : String) :
    Passes (groupUnder title bs) names := by
  unfold Output.groupUnder
  split
  · rename_i hempty
    rw [List.isEmpty_iff.1 hempty] at h
    exact h
  · exact h.group title

/-- What a file of such blocks exports. -/
theorem exportedNames {f : SourceFile} (h : Passes f.blocks names) : f.exportedNames = names := by
  rw [SourceFile.exportedNames, SourceFile.declaredNames, h.declares]
  exact h.known

end Passes

/-- The names of an enumeration or an alias. -/
theorem passes_enumExports {α : Type} (xs : List α) (name module : α → String) (typeOnly : Bool) :
    Passes (xs.map fun x => enumExport (name x) (module x) typeOnly)
      ((xs.map name).flatMap valueNames) := by
  rw [List.map_eq_flatMap, List.flatMap_map]
  exact .flatMap fun x _ => .exports _

theorem passes_plain (names : List String) (module : Option String) (typeOnly multiline : Bool) :
    Passes [.exports { names := names.map .plain, module := module, typeOnly := typeOnly,
                       multiline := multiline }] names := by
  have hknown : (names.map Specifier.plain).map Specifier.known = names := by
    rw [List.map_map]
    exact List.map_id names
  have h := Passes.exports { names := names.map .plain, module := module, typeOnly := typeOnly,
                             multiline := multiline }
  rw [hknown] at h
  exact h

/-- The names of entities and of their rules. -/
theorem passes_entityBlocks (entities : List String) (config : Config) (paths : ImportPaths) :
    Passes (entityBlocks entities config paths)
      (entities.flatMap (fun e => (Helper.ofEntities config.generateZodSchemas).map (·.spell e))
        ++ if config.generateRules && !config.generateZodSchemas then
            entities.flatMap (fun e => Helper.ofRules.map (·.spell e)) else []) := by
  simp only [Helper.map_spell_ofEntities, Helper.map_spell_ofRules]
  unfold entityBlocks
  cases config.generateZodSchemas with
  | true =>
    rw [if_pos rfl, Bool.not_true, Bool.and_false, if_neg Bool.false_ne_true, List.append_nil]
    refine .groupUnder (.flatMap fun e _ => ?_) _
    exact (passes_plain (e :: utilityNames e) _ _ _).append
      (passes_plain (modelSchemaNames e ++ labelHelpers e) _ _ _)
  | false =>
    rw [if_neg Bool.false_ne_true, Bool.not_false, Bool.and_true]
    refine .append (.groupUnder (.flatMap fun e _ => ?_) _) ?_
    · exact (passes_plain [e] _ _ _).append (passes_plain (utilityNames e) _ _ _)
    · split
      · rw [List.map_eq_flatMap]
        exact .groupUnder (.flatMap fun e _ => passes_plain (ruleNames e) _ _ _) _
      · exact .nil

/-! ## 4. The names of the index -/

/-- The types that are enumerations or aliases, in the order of the index. -/
def valueTypes (collection : Collection) (config : Config) : List String :=
  (Enumeration.all collection config
      ++ (InlineEnum.all collection config).filterMap inlineEnumeration?).map (·.name)
    ++ (Enumeration.allPlugin config).map (·.name)
    ++ ((InlineEnum.all collection config).filterMap inlineAlias?).map (·.name)

/-- The types that are entities, in the order of the index. -/
def entityTypes (collection : Collection) : List String :=
  (visibleSchemas collection).map (·.name)

/-- The types that the index passes on. -/
def indexTypes (collection : Collection) (config : Config) : List String :=
  valueTypes collection config ++ entityTypes collection

/-- What is named after an entity. -/
def entityHelpers (config : Config) : List Helper :=
  Helper.ofEntity config.generateZodSchemas (config.generateRules && !config.generateZodSchemas)

/-- What the index passes on for types, as pairs of a type and what is named after it. -/
def derivations (collection : Collection) (config : Config) : List (String × Helper) :=
  valueTypes collection config ×ˢ Helper.ofValues
    ++ entityTypes collection ×ˢ entityHelpers config

variable {collection : Collection} {config : Config}

theorem mem_derivations_iff {d : String × Helper} :
    d ∈ derivations collection config ↔
      d.1 ∈ valueTypes collection config ∧ d.2 ∈ Helper.ofValues ∨
        d.1 ∈ entityTypes collection ∧ d.2 ∈ entityHelpers config :=
  List.mem_append.trans (or_congr List.pair_mem_product List.pair_mem_product)

/-- The names of one type after the other. -/
theorem map_spell_product (xs : List String) (hs : List Helper) :
    (xs ×ˢ hs).map (fun d => d.2.spell d.1) = xs.flatMap fun x => hs.map (·.spell x) := by
  show (xs.flatMap fun x => hs.map fun h => (x, h)).map _ = _
  rw [List.map_flatMap]
  simp only [List.map_map]
  rfl

/-- A group of shared names. -/
theorem passes_shared (names : List String) (title module : String) (typeOnly multiline : Bool) :
    Passes [.group [.comment title,
      .exports { names := names.map .plain, module := some module, typeOnly := typeOnly,
                 multiline := multiline }]] names :=
  (passes_plain names (some module) typeOnly multiline).group title

/-- The blocks of the index. -/
theorem passes_index (paths : ImportPaths) :
    Passes (planIndex collection config paths).source.blocks
      (commonNames ++ i18nNames ++ (valueTypes collection config).flatMap valueNames
        ++ ((entityTypes collection).flatMap
              (fun e => (Helper.ofEntities config.generateZodSchemas).map (·.spell e))
            ++ if config.generateRules && !config.generateZodSchemas then
                (entityTypes collection).flatMap (fun e => Helper.ofRules.map (·.spell e))
              else [])) := by
  have hschemas := (passes_enumExports (Enumeration.all collection config
      ++ (InlineEnum.all collection config).filterMap inlineEnumeration?) (·.name)
    (fun e => paths.module paths.indexEnums e.name) false).groupUnder "Schema Enums"
  have hplugins := (passes_enumExports (Enumeration.allPlugin config) (·.name)
    (fun e => paths.module paths.indexPluginEnums e.name) false).groupUnder "Plugin Enums"
  have haliases := (passes_enumExports
    ((InlineEnum.all collection config).filterMap inlineAlias?) (·.name)
    (fun a => paths.module paths.indexEnums a.name) true).groupUnder "Inline Enums (Type Aliases)"
  have hblocks := (((((passes_shared commonNames "Common Types" paths.commonFromRoot true
      false).append (passes_shared i18nNames "i18n (Internationalization)" paths.i18nFromRoot false
      true)).append hschemas).append hplugins).append haliases).append
    (passes_entityBlocks (entityTypes collection) config paths)
  rw [valueTypes, List.flatMap_append, List.flatMap_append]
  simp only [← List.append_assoc] at hblocks ⊢
  exact hblocks

/-- **The names that the index passes on**, up to their order. -/
theorem exportedNames_index (paths : ImportPaths) :
    (planIndex collection config paths).source.exportedNames.Perm
      (commonNames ++ i18nNames
        ++ (derivations collection config).map fun d => d.2.spell d.1) := by
  have hentities : ((entityTypes collection).flatMap
        (fun e => (Helper.ofEntities config.generateZodSchemas).map (·.spell e))
      ++ if config.generateRules && !config.generateZodSchemas then
          (entityTypes collection).flatMap (fun e => Helper.ofRules.map (·.spell e)) else []).Perm
      ((entityTypes collection).flatMap fun e => (entityHelpers config).map (·.spell e)) := by
    unfold entityHelpers Helper.ofEntity
    split
    · simp only [List.map_append]
      exact List.flatMap_append_perm _ _ _
    · rw [List.append_nil, List.append_nil]
  rw [(passes_index paths).exportedNames, derivations, List.map_append, map_spell_product,
    map_spell_product]
  simp only [Helper.map_spell_ofValues]
  rw [List.append_assoc]
  exact (hentities.append_left _).append_left _

/-! ## 5. Distinct types -/

/-- Enumerations are named like their schemas. -/
theorem names_all : (Enumeration.all collection config).map (·.name) = collection.enumNames := by
  have hall : ∀ ss : List Schema, (∀ s ∈ ss, s.isEnum = true) →
      (ss.filterMap (Enumeration.ofSchema? config)).map (·.name) = ss.map (·.name) := by
    intro ss h
    induction ss with
    | nil => rfl
    | cons s r ih =>
      have hs : Enumeration.ofSchema? config s = some _ := if_pos (h s List.mem_cons_self)
      rw [List.filterMap_cons_some hs, List.map_cons, List.map_cons,
        ih fun t ht => h t (List.mem_cons_of_mem _ ht)]
  exact hall _ fun s hs => (List.mem_filter.1 hs).2

/-- Every property that lists values has an enumeration or an alias. -/
theorem names_inline_perm (ts : List InlineEnum) :
    ((ts.filterMap inlineEnumeration?).map (·.name)
      ++ (ts.filterMap inlineAlias?).map (·.name)).Perm (ts.map (·.name)) := by
  induction ts with
  | nil => exact .nil
  | cons t r ih =>
    cases t with
    | enum _ _ e => exact ih.cons e.name
    | «alias» _ _ a => exact List.perm_middle.trans (ih.cons a.name)

/-- Every schema is an entity or an enumeration. -/
theorem names_schemas_perm (collection : Collection) :
    (collection.enumNames ++ collection.objectNames).Perm (collection.schemas.map (·.name)) := by
  rw [Collection.enumNames, Collection.objectNames, ← List.map_append]
  exact (List.filter_append_perm _ _).map _

/-- **The types of a plan are distinct.** -/
theorem nodup_types {ms : List PlannedModule} (hms : planModules collection config = .ok ms)
    (hkeys : ∀ e ∈ config.pluginEnums, e.2.name = e.1) :
    (indexTypes collection config).Nodup := by
  have hdeclared := Check.collisions_eq_nil_iff.1 (planModules_eq_ok_iff.1 hms).1
  have hnames : (Check.declarations collection config).map (·.name)
      = collection.schemas.map (·.name) ++ config.pluginEnums.map (·.1)
        ++ (InlineEnum.all collection config).map (·.name) := by
    simp only [Check.declarations, List.map_append, List.map_map]
    rfl
  have hplugins : (Enumeration.allPlugin config).map (·.name) = config.pluginEnums.map (·.1) := by
    rw [Enumeration.allPlugin, List.map_map]
    exact List.map_congr_left hkeys
  have hperm : (valueTypes collection config ++ collection.objectNames).Perm
      ((Check.declarations collection config).map (·.name)) := by
    have hschemas := Multiset.coe_eq_coe.2 (names_schemas_perm collection)
    have hinline := Multiset.coe_eq_coe.2 (names_inline_perm (InlineEnum.all collection config))
    rw [← Multiset.coe_eq_coe, hnames, valueTypes, List.map_append, names_all, hplugins]
    simp only [← Multiset.coe_add] at hschemas hinline ⊢
    rw [← hschemas, ← hinline]
    abel
  have hentities : (entityTypes collection).Sublist collection.objectNames :=
    List.filter_sublist.map _
  exact (hperm.nodup_iff.2 hdeclared).sublist (hentities.append_left _)

/-! ## 6. Distinct names -/

theorem mem_all_of_mem_derivations {d : String × Helper}
    (h : d ∈ derivations collection config) : d.2 ∈ Helper.all := by
  have hentities : ∀ zod rules : Bool, ∀ h ∈ Helper.ofEntity zod rules, h ∈ Helper.all := by decide
  rcases mem_derivations_iff.1 h with ⟨-, h⟩ | ⟨-, h⟩
  · exact List.mem_append_left _ (List.mem_append_left _ h)
  · exact hentities _ _ _ h

theorem nodup_derivations (h : (indexTypes collection config).Nodup) :
    (derivations collection config).Nodup := by
  obtain ⟨hvalues, hentities, hdisjoint⟩ := List.nodup_append'.1 h
  have hhelpers : ∀ zod rules : Bool, (Helper.ofEntity zod rules).Nodup := by decide
  refine List.nodup_append'.2 ⟨hvalues.product (by decide), hentities.product (hhelpers _ _), ?_⟩
  rintro ⟨x, h⟩ hx hx'
  exact hdisjoint (List.pair_mem_product.1 hx).1 (List.pair_mem_product.1 hx').1

/-- What keeps the names of the index apart, as conditions on the names of types. -/
structure IndexDistinct (collection : Collection) (config : Config) : Prop where
  /-- No type is named like a shared name. -/
  shared : ∀ x ∈ indexTypes collection config, x ∉ commonNames ++ i18nNames
  /-- No type is named like something that is named after a type. -/
  helpers : ∀ x ∈ indexTypes collection config, ∀ d ∈ derivations collection config,
    d.2 ≠ .self → d.2.spell d.1 ≠ x
  /-- No guard is named like something that begins with the name of a type. -/
  guards : ∀ x ∈ valueTypes collection config, ∀ d ∈ derivations collection config,
    d.2.before = "" → d.2.spell d.1 ≠ "is" ++ x
  /-- No labels of a type are taken for those of the fields of an entity. -/
  fieldLabels : config.generateZodSchemas = true → ∀ e ∈ entityTypes collection,
    e ++ "Field" ∉ indexTypes collection config
  /-- No two entities have one name in small form. -/
  validators : config.generateZodSchemas = true → ∀ e ∈ entityTypes collection,
    ∀ e' ∈ entityTypes collection, Naming.lowerFirst e = Naming.lowerFirst e' → e = e'
  /-- No shown name of an entity is taken for those of the properties of another one. -/
  propertyNames : (config.generateRules && !config.generateZodSchemas) = true →
    ∀ e ∈ entityTypes collection, e ++ "Property" ∉ entityTypes collection

/-- Labels of fields belong to entities with validators. -/
theorem of_mem_fieldLabel {x : String}
    (h : (x, Helper.fieldLabel) ∈ derivations collection config) :
    x ∈ entityTypes collection ∧ config.generateZodSchemas = true := by
  have hentities : ∀ zod rules : Bool,
      Helper.fieldLabel ∈ Helper.ofEntity zod rules → zod = true := by decide
  have hvalues : Helper.fieldLabel ∉ Helper.ofValues := by decide
  rcases mem_derivations_iff.1 h with ⟨-, h⟩ | ⟨hx, h⟩
  · exact absurd h hvalues
  · exact ⟨hx, hentities _ _ h⟩

/-- Names in small form, too. -/
theorem of_mem_lowered {d : String × Helper} (h : d ∈ derivations collection config)
    (hl : d.2.lowered = true) :
    d.1 ∈ entityTypes collection ∧ config.generateZodSchemas = true := by
  have hvalues : ∀ h ∈ Helper.ofValues, h.lowered = false := by decide
  have hentities : ∀ zod rules : Bool, ∀ h ∈ Helper.ofEntity zod rules,
      h.lowered = true → zod = true := by decide
  rcases mem_derivations_iff.1 h with ⟨-, h⟩ | ⟨hx, h⟩
  · exact nomatch (hvalues _ h).symm.trans hl
  · exact ⟨hx, hentities _ _ _ h hl⟩

/-- Shown names belong to entities with rules. -/
theorem of_mem_displayName {x : String} {h : Helper}
    (hh : h = .displayName ∨ h = .propertyDisplayName)
    (hmem : (x, h) ∈ derivations collection config) :
    x ∈ entityTypes collection ∧ (config.generateRules && !config.generateZodSchemas) = true := by
  have hvalues : Helper.displayName ∉ Helper.ofValues ∧
      Helper.propertyDisplayName ∉ Helper.ofValues := by decide
  have hentities : ∀ zod rules : Bool, ∀ h ∈ Helper.ofEntity zod rules,
      h = .displayName ∨ h = .propertyDisplayName → rules = true := by decide
  rcases mem_derivations_iff.1 hmem with ⟨-, hin⟩ | ⟨hx, hin⟩
  · rcases hh with rfl | rfl
    · exact absurd hin hvalues.1
    · exact absurd hin hvalues.2
  · exact ⟨hx, hentities _ _ _ hin hh⟩

theorem mem_indexTypes_of_mem_derivations {d : String × Helper}
    (h : d ∈ derivations collection config) : d.1 ∈ indexTypes collection config := by
  rcases mem_derivations_iff.1 h with ⟨hx, -⟩ | ⟨hx, -⟩
  · exact List.mem_append_left _ hx
  · exact List.mem_append_right _ hx

/-- Two kinds of names that could be taken for each other are not, in an index without doubles. -/
theorem IndexDistinct.eq_of_close (h : IndexDistinct collection config) {x y : String}
    {k k' : Helper} (hd : (x, k) ∈ derivations collection config)
    (hd' : (y, k') ∈ derivations collection config) (hclose : Helper.Close k k')
    (heq : k.spell x = k'.spell y) : k = k' := by
  cases hclose with
  | self =>
    by_contra hne
    have hname : x = k'.spell y := (Helper.spell_self x).symm.trans heq
    exact h.helpers x (mem_indexTypes_of_mem_derivations hd) _ hd' (Ne.symm hne) hname.symm
  | guard hfront =>
    have hx : x ∈ valueTypes collection config := by
      have hentities : ∀ zod rules : Bool, Helper.guard ∉ Helper.ofEntity zod rules := by decide
      rcases mem_derivations_iff.1 hd with ⟨hx, -⟩ | ⟨-, hin⟩
      · exact hx
      · exact absurd hin (hentities _ _)
    have hname : "is" ++ x = k'.spell y := (Helper.spell_guard x).symm.trans heq
    exact absurd hname.symm (h.guards x hx _ hd' hfront)
  | label =>
    obtain ⟨hy, hzod⟩ := of_mem_fieldLabel hd'
    have hx := Helper.spell_inj rfl (heq.trans (Helper.spell_fieldLabel y))
    exact absurd (hx ▸ mem_indexTypes_of_mem_derivations hd) (h.fieldLabels hzod y hy)
  | displayName =>
    obtain ⟨hx, hrules⟩ := of_mem_displayName (.inl rfl) hd
    obtain ⟨hy, -⟩ := of_mem_displayName (.inr rfl) hd'
    have hxy := Helper.spell_inj rfl (heq.trans (Helper.spell_propertyDisplayName y))
    exact absurd (hxy ▸ hx) (h.propertyNames hrules y hy)

/-- In such an index a name tells what it is made from. -/
theorem IndexDistinct.inj (h : IndexDistinct collection config) :
    ∀ d ∈ derivations collection config, ∀ d' ∈ derivations collection config,
      d.2.spell d.1 = d'.2.spell d'.1 → d = d' := by
  intro d hd d' hd' heq
  have hhelper : d.2 = d'.2 := by
    rcases Helper.close_of_meets _ (mem_all_of_mem_derivations hd) _
      (mem_all_of_mem_derivations hd') (Helper.meets_of_spell_eq heq) with hsame | hclose | hclose
    · exact hsame
    · exact h.eq_of_close hd hd' hclose heq
    · exact (h.eq_of_close hd' hd hclose heq.symm).symm
  refine Prod.ext ?_ hhelper
  rw [← hhelper] at heq
  cases hl : d.2.lowered with
  | false => exact Helper.spell_inj hl heq
  | true =>
    obtain ⟨hx, hzod⟩ := of_mem_lowered hd hl
    obtain ⟨hx', -⟩ := of_mem_lowered hd' (hhelper ▸ hl)
    exact h.validators hzod _ hx _ hx' (Helper.lowerFirst_eq_of_spell_eq hl heq)

/-- Every type passes on itself. -/
theorem mem_derivations_self {x : String} (h : x ∈ indexTypes collection config) :
    (x, Helper.self) ∈ derivations collection config := by
  have hentities : ∀ zod rules : Bool, Helper.self ∈ Helper.ofEntity zod rules := by decide
  rcases List.mem_append.1 h with h | h
  · exact mem_derivations_iff.2 (.inl ⟨h, List.mem_cons_self⟩)
  · exact mem_derivations_iff.2 (.inr ⟨h, hentities _ _⟩)

theorem entityHelpers_of_zod (h : config.generateZodSchemas = true) :
    entityHelpers config = Helper.ofEntities true := by
  rw [entityHelpers, h, Bool.not_true, Bool.and_false, Helper.ofEntity, if_neg Bool.false_ne_true,
    List.append_nil]

theorem entityHelpers_of_rules
    (h : (config.generateRules && !config.generateZodSchemas) = true) :
    entityHelpers config = Helper.ofEntities config.generateZodSchemas ++ Helper.ofRules := by
  rw [entityHelpers, Helper.ofEntity, if_pos h]

/-- **An index without doubles** comes of names that tell what they are made from. -/
theorem IndexDistinct.of_inj
    (hinj : ∀ d ∈ derivations collection config, ∀ d' ∈ derivations collection config,
      d.2.spell d.1 = d'.2.spell d'.1 → d = d')
    (hshared : ∀ d ∈ derivations collection config, d.2.spell d.1 ∉ commonNames ++ i18nNames) :
    IndexDistinct collection config where
  shared x hx := by
    have hname := hshared _ (mem_derivations_self hx)
    rwa [Helper.spell_self] at hname
  helpers x hx d hd hself heq := by
    have hsame := hinj d hd _ (mem_derivations_self hx) (heq.trans (Helper.spell_self x).symm)
    exact hself (congrArg Prod.snd hsame)
  guards x hx d hd hfront heq := by
    have hguard : (x, Helper.guard) ∈ derivations collection config :=
      mem_derivations_iff.2 (.inl ⟨hx, (by decide : Helper.guard ∈ Helper.ofValues)⟩)
    have hsame := hinj d hd _ hguard (heq.trans (Helper.spell_guard x).symm)
    rw [hsame] at hfront
    exact absurd hfront (by decide : Helper.guard.before ≠ "")
  fieldLabels hzod e he hmem := by
    have hfields : (e, Helper.fieldLabel) ∈ derivations collection config := by
      refine mem_derivations_iff.2 (.inr ⟨he, ?_⟩)
      rw [entityHelpers_of_zod hzod]
      exact (by decide : Helper.fieldLabel ∈ Helper.ofEntities true)
    have hlabel : (e ++ "Field", Helper.label) ∈ derivations collection config := by
      refine mem_derivations_iff.2 ((List.mem_append.1 hmem).imp (⟨·, ?_⟩) (⟨·, ?_⟩))
      · exact (by decide : Helper.label ∈ Helper.ofValues)
      · rw [entityHelpers_of_zod hzod]
        exact (by decide : Helper.label ∈ Helper.ofEntities true)
    have hsame := hinj _ hfields _ hlabel (Helper.spell_fieldLabel e)
    exact absurd (congrArg Prod.snd hsame) (by decide : Helper.fieldLabel ≠ Helper.label)
  validators hzod e he e' he' heq := by
    have hschemas {e : String} (he : e ∈ entityTypes collection) :
        (e, Helper.schemas) ∈ derivations collection config := by
      refine mem_derivations_iff.2 (.inr ⟨he, ?_⟩)
      rw [entityHelpers_of_zod hzod]
      exact (by decide : Helper.schemas ∈ Helper.ofEntities true)
    have hspell : Helper.schemas.spell e = Helper.schemas.spell e' := by
      show "" ++ Naming.lowerFirst e ++ "Schemas" = "" ++ Naming.lowerFirst e' ++ "Schemas"
      rw [heq]
    exact congrArg Prod.fst (hinj _ (hschemas he) _ (hschemas he') hspell)
  propertyNames hrules e he hmem := by
    have hnames {x : String} {h : Helper} (hx : x ∈ entityTypes collection)
        (hh : h ∈ Helper.ofRules) : (x, h) ∈ derivations collection config := by
      refine mem_derivations_iff.2 (.inr ⟨hx, ?_⟩)
      rw [entityHelpers_of_rules hrules]
      exact List.mem_append_right _ hh
    have hsame := hinj _ (hnames he (by decide : Helper.propertyDisplayName ∈ Helper.ofRules)) _
      (hnames hmem (by decide : Helper.displayName ∈ Helper.ofRules))
      (Helper.spell_propertyDisplayName e)
    exact absurd (congrArg Prod.snd hsame)
      (by decide : Helper.propertyDisplayName ≠ Helper.displayName)

/-- Only types can be named like shared names. -/
theorem IndexDistinct.not_mem_shared (h : IndexDistinct collection config) :
    ∀ d ∈ derivations collection config, d.2.spell d.1 ∉ commonNames ++ i18nNames := by
  intro d hd
  by_cases hself : d.2 = .self
  · rw [hself, Helper.spell_self]
    exact h.shared _ (mem_indexTypes_of_mem_derivations hd)
  · exact Helper.spell_not_mem_shared (mem_all_of_mem_derivations hd) hself _

/-- **When the index passes on a name twice.**  With plugins registered under the names of their
enumerations, the names that the index of a plan passes on are distinct exactly if no type is named
like a shared name or like something that is named after a type, no guard is named like something
that begins with the name of a type, with validators no two entities have one name in small form
and the labels of no type are taken for those of fields, and with rules the shown name of no entity
is taken for those of properties. -/
theorem index_names_nodup_iff {ms : List PlannedModule}
    (hms : planModules collection config = .ok ms)
    (hkeys : ∀ e ∈ config.pluginEnums, e.2.name = e.1) :
    (planIndex collection config (.ofConfig config)).source.exportedNames.Nodup ↔
      IndexDistinct collection config := by
  have hshared : (commonNames ++ i18nNames).Nodup := by decide
  rw [(exportedNames_index _).nodup_iff, List.nodup_append',
    List.nodup_map_iff_inj_on (nodup_derivations (nodup_types hms hkeys))]
  constructor
  · rintro ⟨-, hinj, hdisjoint⟩
    refine .of_inj hinj fun d hd hmem => ?_
    exact hdisjoint hmem (List.mem_map_of_mem hd)
  · intro h
    refine ⟨hshared, h.inj, fun n hn hmem => ?_⟩
    obtain ⟨d, hd, rfl⟩ := List.mem_map.1 hmem
    exact h.not_mem_shared d hd hn

/-- Two entities and an enumeration. -/
def staff : Collection :=
  ⟨[{ name := "User" }, { name := "Team" },
    { name := "Role", kind := .enum, values := [{ value := "admin" }] }]⟩

theorem index_names_nodup_staff :
    (∃ ms, planModules staff {} = .ok ms) ∧
      (planIndex staff {} (.ofConfig {})).source.exportedNames.Nodup ∧ IndexDistinct staff {} := by
  have hplan : ∃ ms, planModules staff {} = .ok ms :=
    ⟨_, planModules_eq_ok_iff.2 ⟨by decide, _, rfl, rfl, rfl⟩⟩
  have hnodup : (planIndex staff {} (.ofConfig {})).source.exportedNames.Nodup := by decide
  obtain ⟨ms, hms⟩ := hplan
  exact ⟨⟨ms, hms⟩, hnodup, (index_names_nodup_iff hms (by decide)).1 hnodup⟩

/-- The type for creating a user and an entity of that name. -/
theorem index_names_userCreate :
    (∃ ms, planModules ⟨[{ name := "User" }, { name := "UserCreate" }]⟩ {} = .ok ms) ∧
      ¬ (planIndex ⟨[{ name := "User" }, { name := "UserCreate" }]⟩ {}
        (.ofConfig {})).source.exportedNames.Nodup :=
  ⟨⟨_, planModules_eq_ok_iff.2 ⟨by decide, _, rfl, rfl, rfl⟩⟩, by decide⟩

end SchemaTypes.Output
