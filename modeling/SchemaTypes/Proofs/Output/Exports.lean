/-
# What generated modules export and import

For each kind of generated module, the names that others can import from it (`Exports`) and the
links that it has itself.  Neither depends on where modules are.
-/
import SchemaTypes.Proofs.Output.Plan
import SchemaTypes.Proofs.TypeScript.Links

namespace SchemaTypes.Output

open TypeScript (Block Declaration ExportDecl ImportDecl Link SourceFile Specifier Statement)

/-! ## 1. Declarations -/

/-- A file whose blocks have no links has those of its imports. -/
theorem links_of_unlinked {f : SourceFile} (h : ∀ b ∈ f.blocks, b.links = []) :
    f.links = f.imports.flatMap ImportDecl.links := by
  have hblocks : Block.linksOf f.blocks = [] := by
    rw [Block.linksOf_eq_flatMap, List.flatMap_eq_nil_iff]
    exact h
  rw [SourceFile.links, hblocks, List.append_nil]

/-- Others can import all of the names. -/
def Exports (f : SourceFile) (names : List String) : Prop := ∀ n ∈ names, n ∈ f.exportedNames

/-- A file declares the name of a statement of one of its declarations. -/
theorem mem_declaredNames_of_declaration {f : SourceFile} {d : Declaration} {s : Statement}
    {name : String} (hd : .declaration d ∈ f.blocks) (hs : s ∈ d.statements)
    (hname : s.exportedName? = some name) : name ∈ f.declaredNames := by
  refine List.mem_flatMap.2 ⟨d, ?_, List.mem_filterMap.2 ⟨s, hs, hname⟩⟩
  rw [Block.declarationsOf_eq_flatMap]
  exact List.mem_flatMap.2 ⟨_, hd, List.mem_singleton_self d⟩

/-- A declaration of one statement. -/
theorem mem_declaredNames_of_declare {f : SourceFile} {s : Statement} {name : String}
    {doc : Option (List String)} {blockDoc : Bool} (hb : .declare s doc blockDoc ∈ f.blocks)
    (hname : s.exportedName? = some name) : name ∈ f.declaredNames :=
  mem_declaredNames_of_declaration hb (List.mem_singleton_self s) hname

/-- What a file declares others can import. -/
theorem mem_exportedNames_of_declare {f : SourceFile} {s : Statement} {name : String}
    {doc : Option (List String)} {blockDoc : Bool} (hb : .declare s doc blockDoc ∈ f.blocks)
    (hname : s.exportedName? = some name) : name ∈ f.exportedNames :=
  List.mem_append_left _ (mem_declaredNames_of_declare hb hname)

/-! ## 2. Enumerations and aliases -/

/-- The names that the module of an enumeration or an alias exports. -/
def valueNames (name : String) : List String :=
  [name, name ++ "Values", "is" ++ name, "get" ++ name ++ "Label", "get" ++ name ++ "Extra"]

/-- Labels are read by one function, whatever they are. -/
theorem labelBlocks_spec (e : Enumeration) (fallback : String) :
    (∀ b ∈ labelBlocks e fallback, b.links = []) ∧
      ∃ params doc body, labelFunction e.name params doc body ∈ labelBlocks e fallback := by
  unfold labelBlocks
  split
  · refine ⟨fun b hb => ?_, _, _, _, List.mem_singleton_self _⟩
    rw [List.mem_singleton.1 hb]
    rfl
  · split
    · refine ⟨fun b hb => ?_, _, _, _, List.mem_cons_of_mem _ (List.mem_singleton_self _)⟩
      rcases List.mem_pair.1 hb with rfl | rfl
      · rfl
      · rfl
    · refine ⟨fun b hb => ?_, _, _, _, List.mem_cons_of_mem _ (List.mem_singleton_self _)⟩
      rcases List.mem_pair.1 hb with rfl | rfl
      · rfl
      · rfl

/-- Further data are read by one function, if they can be written at all. -/
theorem extraBlocks_spec {room : Nat} {e : Enumeration} {extra : List Block}
    (h : extraBlocks room e = .ok extra) :
    (∀ b ∈ extra, b.links = []) ∧
      ∃ param doc body, extraFunction e.name param doc body ∈ extra := by
  unfold extraBlocks at h
  split at h
  · rw [← Except.ok.inj h]
    refine ⟨fun b hb => ?_, _, _, _, List.mem_singleton_self _⟩
    rw [List.mem_singleton.1 hb]
    rfl
  · obtain ⟨lines, -, h⟩ := bind_eq_ok_iff.1 h
    rw [← Except.ok.inj h]
    refine ⟨fun b hb => ?_, _, _, _, List.mem_cons_of_mem _ (List.mem_singleton_self _)⟩
    rcases List.mem_pair.1 hb with rfl | rfl
    · rfl
    · rfl

/-- **The module of an enumeration** exports its names and has no links. -/
theorem enumModule_spec {room : Nat} {e : Enumeration} {fallback : String} {f : SourceFile}
    (h : enumModule room e fallback = .ok f) : Exports f (valueNames e.name) ∧ f.links = [] := by
  obtain ⟨extra, hextra, h⟩ := bind_eq_ok_iff.1 h
  obtain ⟨hlabels, _, _, _, hlabel⟩ := labelBlocks_spec e fallback
  obtain ⟨hextras, _, _, _, hdata⟩ := extraBlocks_spec hextra
  rw [← Except.ok.inj h]
  constructor
  · have hfront {front : List Block} {b : Block} (hb : b ∈ front) :
        b ∈ front ++ labelBlocks e fallback ++ extra :=
      List.mem_append_left _ (List.mem_append_left _ hb)
    intro n hn
    simp only [valueNames, List.mem_cons, List.not_mem_nil, or_false] at hn
    rcases hn with rfl | rfl | rfl | rfl | rfl
    · exact mem_exportedNames_of_declare (hfront List.mem_cons_self) rfl
    · exact mem_exportedNames_of_declare
        (hfront (List.mem_cons_of_mem _ List.mem_cons_self)) rfl
    · exact mem_exportedNames_of_declare
        (hfront (List.mem_cons_of_mem _ (List.mem_cons_of_mem _ List.mem_cons_self))) rfl
    · exact mem_exportedNames_of_declare
        (List.mem_append_left _ (List.mem_append_right _ hlabel)) rfl
    · exact mem_exportedNames_of_declare (List.mem_append_right _ hdata) rfl
  · refine links_of_unlinked fun b hb => ?_
    rcases List.mem_append.1 hb with hb | hb
    · rcases List.mem_append.1 hb with hb | hb
      · simp only [List.mem_cons, List.not_mem_nil, or_false] at hb
        rcases hb with rfl | rfl | rfl
        · rfl
        · rfl
        · rfl
      · exact hlabels b hb
    · exact hextras b hb

/-- **The module of an alias** exports the same names. -/
theorem aliasModule_spec (a : TypeAlias) :
    Exports (aliasModule a) (valueNames a.name) ∧ (aliasModule a).links = [] := by
  constructor
  · intro n hn
    simp only [valueNames, List.mem_cons, List.not_mem_nil, or_false] at hn
    simp only [SourceFile.exportedNames, SourceFile.declaredNames, aliasModule,
      Block.declarationsOf, Block.declarations, Block.declare, Block.described, typeGuard,
      plainLabelFunction, labelFunction, extraFunction]
    rcases hn with rfl | rfl | rfl | rfl | rfl <;> simp [Statement.exportedName?]
  · refine links_of_unlinked fun b hb => ?_
    simp only [aliasModule, List.mem_cons, List.not_mem_nil, or_false] at hb
    rcases hb with rfl | rfl | rfl | rfl | rfl <;> rfl

/-! ## 3. Shared modules -/

/-- **The common module** exports the common types and has no links. -/
theorem commonModule_spec (config : Config) :
    Exports (commonModule config) commonNames ∧ (commonModule config).links = [] := by
  constructor
  · intro n hn
    rw [show (commonModule config).exportedNames = commonNames from rfl]
    exact hn
  · refine links_of_unlinked fun b hb => ?_
    simp only [commonModule, List.mem_cons, List.not_mem_nil, or_false] at hb
    rcases hb with rfl | rfl | rfl | rfl | rfl <;> rfl

/-- **The internationalisation module** takes the type of texts by locale from the common one. -/
theorem i18nModule_spec (config : Config) (paths : ImportPaths) :
    Exports (i18nModule config paths) i18nNames ∧
      (i18nModule config paths).links = [⟨"LocaleMap", paths.commonFromRoot⟩] := by
  constructor
  · intro n hn
    rw [show (i18nModule config paths).exportedNames = i18nNames from rfl]
    exact hn
  · refine links_of_unlinked fun b hb => ?_
    simp only [i18nModule, List.mem_cons, List.not_mem_nil, or_false] at hb
    rcases hb with rfl | rfl | rfl | rfl | rfl | rfl <;> rfl

/-! ## 4. Modules of entities -/

/-- The names of the validators in the file of an entity. -/
def baseSchemaNames (name : String) : List String :=
  ["base" ++ name ++ "Schemas", "base" ++ name ++ "CreateSchema", "base" ++ name ++ "UpdateSchema"]

/-- The names of the validators in the model file of an entity. -/
def modelSchemaNames (name : String) : List String :=
  let lower := Naming.lowerFirst name
  [lower ++ "Schemas", lower ++ "CreateSchema", lower ++ "UpdateSchema"]

/-- The names of the types for creating and updating an entity. -/
def utilityNames (name : String) : List String := [name ++ "Create", name ++ "Update"]

/-- The names that the module of the rules of an entity gives to the index. -/
def ruleNames (name : String) : List String :=
  ["get" ++ name ++ "Rules", "get" ++ name ++ "DisplayName", "get" ++ name ++ "PropertyDisplayName"]

/-- **The file of an entity** has the links of its imports alone. -/
theorem links_baseModule (i : Interface) (paths : ImportPaths) (zod : Option ZodPart)
    (excluded pluginEnums : List String) :
    (baseModule i paths zod excluded pluginEnums).links
      = (baseImports i paths zod.isSome pluginEnums).flatMap ImportDecl.links := by
  refine links_of_unlinked fun b hb => ?_
  rcases List.mem_cons.1 hb with rfl | hb
  · rfl
  · cases zod with
    | none =>
      simp only [utilityBlocks, List.mem_cons, List.not_mem_nil, or_false] at hb
      rcases hb with rfl | rfl <;> rfl
    | some z =>
      simp only [zodBlocks, labelFunctions, List.mem_append, List.mem_cons, List.not_mem_nil,
        or_false] at hb
      rcases hb with (rfl | rfl | rfl | rfl | rfl | rfl | rfl | rfl | rfl) | rfl | rfl | rfl <;>
        rfl

theorem baseModule_exports (i : Interface) (paths : ImportPaths) (zod : Option ZodPart)
    (excluded pluginEnums : List String) :
    Exports (baseModule i paths zod excluded pluginEnums)
      (i.name :: match zod with
        | some _ => baseSchemaNames i.name ++ labelHelpers i.name
        | none => utilityNames i.name) := by
  intro n hn
  cases zod with
  | none =>
    simp only [utilityNames, List.mem_cons, List.not_mem_nil, or_false] at hn
    simp only [SourceFile.exportedNames, SourceFile.declaredNames, baseModule, utilityBlocks,
      Block.declarationsOf, Block.declarations, Block.declare, Block.described,
      interfaceStatement]
    rcases hn with rfl | rfl | rfl <;> simp [Statement.exportedName?]
  | some z =>
    simp only [baseSchemaNames, labelHelpers, List.mem_append, List.mem_cons, List.not_mem_nil,
      or_false] at hn
    simp only [SourceFile.exportedNames, SourceFile.declaredNames, baseModule, zodBlocks,
      labelFunctions, labelTable, List.cons_append, List.nil_append, Block.declarationsOf,
      Block.declarations, Block.declare, Block.described, interfaceStatement]
    rcases hn with rfl | (rfl | rfl | rfl) | rfl | rfl | rfl | rfl <;>
      simp [Statement.exportedName?]

/-- What the file of an entity takes from other modules. -/
inductive BaseLink (i : Interface) (paths : ImportPaths) (pluginEnums : List String) (l : Link) :
    Prop
  | zod (source : l.module = "zod")
  | common (source : l.module = paths.commonFromBase) (mem : l.name ∈ commonTypesOf i)
  | enum (source : l.module = paths.enumFromBase l.name (pluginEnums.contains l.name))
      (mem : l.name ∈ i.enumDependencies)
  | entity (source : l.module = paths.entityFromBase l.name) (mem : l.name ∈ i.dependencies)

theorem baseLink_of_mem {i : Interface} {paths : ImportPaths} {zod : Option ZodPart}
    {excluded pluginEnums : List String} {l : Link}
    (h : l ∈ (baseModule i paths zod excluded pluginEnums).links) :
    BaseLink i paths pluginEnums l := by
  rw [links_baseModule] at h
  obtain ⟨d, hd, hl⟩ := List.mem_flatMap.1 h
  simp only [baseImports, List.mem_append, List.mem_map] at hd
  rcases hd with ((hd | hd) | ⟨e, he, rfl⟩) | ⟨e, he, rfl⟩
  · split at hd
    · rw [List.mem_singleton.1 hd] at hl
      rw [List.mem_singleton.1 hl]
      exact .zod rfl
    · exact nomatch hd
  · split at hd
    · exact nomatch hd
    · rw [List.mem_singleton.1 hd] at hl
      obtain ⟨n, hn, rfl⟩ := List.mem_map.1 hl
      obtain ⟨name, hname, rfl⟩ := List.mem_map.1 hn
      exact .common rfl hname
  · rw [List.mem_singleton.1 hl]
    exact .enum rfl he
  · rw [List.mem_singleton.1 hl]
    exact .entity rfl he

/-- What a model file with validators exports. -/
theorem exportedNames_zodModel (name : String) (paths : ImportPaths) :
    (zodModel name paths).exportedNames
      = name :: (modelSchemaNames name ++ utilityNames name ++ labelHelpers name)
        ++ [name ++ "Base"] := rfl

/-- The links of a model file with validators. -/
theorem links_zodModel (name : String) (paths : ImportPaths) :
    (zodModel name paths).links
      = ⟨"z", "zod"⟩ :: (name :: (baseSchemaNames name ++ labelHelpers name)).map
          fun n => ⟨n, paths.baseFromModel name⟩ := rfl

/-- The links of a model file without validators. -/
theorem links_plainModel (name : String) (paths : ImportPaths) :
    (plainModel name paths).links = [⟨name, paths.baseFromModel name⟩] := rfl

/-- **The model file of an entity** exports the entity and, with validators, all that belongs to
it. -/
theorem modelModule_exports (name : String) (paths : ImportPaths) (zod : Bool) :
    Exports (modelModule name paths zod)
      (name :: if zod then modelSchemaNames name ++ utilityNames name ++ labelHelpers name
        else []) := by
  intro n hn
  cases zod with
  | false =>
    rw [List.mem_singleton.1 hn]
    exact mem_exportedNames_of_declare List.mem_cons_self rfl
  | true =>
    show n ∈ (zodModel name paths).exportedNames
    rw [exportedNames_zodModel]
    exact List.mem_append_left _ hn

/-- The links of a model file lead to the file of its entity. -/
theorem mem_links_modelModule {name : String} {paths : ImportPaths} {zod : Bool} {l : Link}
    (h : l ∈ (modelModule name paths zod).links) (hzod : l.module ≠ "zod") :
    l.module = paths.baseFromModel name ∧
      (l.name = name ∨ zod = true ∧ l.name ∈ baseSchemaNames name ++ labelHelpers name) := by
  cases zod with
  | false =>
    replace h : l ∈ (plainModel name paths).links := h
    rw [links_plainModel, List.mem_singleton] at h
    rw [h]
    exact ⟨rfl, .inl rfl⟩
  | true =>
    replace h : l ∈ (zodModel name paths).links := h
    rw [links_zodModel, List.mem_cons, List.mem_map] at h
    rcases h with rfl | ⟨n, hn, rfl⟩
    · exact absurd rfl hzod
    · exact ⟨rfl, (List.mem_cons.1 hn).imp_right fun h => ⟨rfl, h⟩⟩

/-- **The module of the rules of an entity.** -/
theorem rulesModule_spec (name : String) (rules : EntityRules) (paths : ImportPaths) :
    Exports (rulesModule name rules paths) (ruleNames name) ∧
      (rulesModule name rules paths).links = [⟨"LocaleMap", paths.commonFromRules⟩,
        ⟨"ValidationRule", paths.commonFromRules⟩] := by
  constructor
  · intro n hn
    simp only [ruleNames, List.mem_cons, List.not_mem_nil, or_false] at hn
    simp only [SourceFile.exportedNames, SourceFile.declaredNames, rulesModule,
      Block.declarationsOf, Block.declarations, Block.declare, Block.described]
    rcases hn with rfl | rfl | rfl <;> simp [Statement.exportedName?]
  · refine links_of_unlinked fun b hb => ?_
    simp only [rulesModule, List.mem_cons, List.not_mem_nil, or_false] at hb
    rcases hb with rfl | rfl | rfl | rfl | rfl | rfl <;> rfl

/-! ## 5. The index -/

/-- Passing names on from a module makes a link for each of them. -/
theorem mem_links_exports {names : List String} {d : ExportDecl} {source : String} {l : Link}
    (hnames : d.names.map Specifier.name = names) (hsource : d.module = some source) :
    l ∈ (Block.exports d).links ↔ l.module = source ∧ l.name ∈ names := by
  show l ∈ d.links ↔ _
  rw [ExportDecl.links, hsource, ← hnames]
  constructor
  · intro h
    obtain ⟨n, hn, rfl⟩ := List.mem_map.1 h
    exact ⟨rfl, List.mem_map_of_mem hn⟩
  · rintro ⟨rfl, h⟩
    obtain ⟨n, hn, hname⟩ := List.mem_map.1 h
    exact List.mem_map.2 ⟨n, hn, by rw [hname]⟩

/-- A comment above does not change that. -/
theorem mem_links_titled {title : String} {names : List String} {d : ExportDecl} {source : String}
    {l : Link} (hnames : d.names.map Specifier.name = names) (hsource : d.module = some source) :
    l ∈ (Block.group [.comment title, .exports d]).links ↔ l.module = source ∧ l.name ∈ names := by
  rw [← mem_links_exports hnames hsource]
  show l ∈ [] ++ ((Block.exports d).links ++ []) ↔ _
  rw [List.nil_append, List.append_nil]

theorem mem_links_enumExport {name source : String} {typeOnly : Bool} {l : Link} :
    l ∈ (enumExport name source typeOnly).links ↔ l.module = source ∧ l.name ∈ valueNames name :=
  mem_links_exports rfl rfl

/-- A group has the links of its items. -/
theorem mem_linksOf_groupUnder {title : String} {items : List Block} {l : Link} :
    l ∈ Block.linksOf (groupUnder title items) ↔ ∃ b ∈ items, l ∈ b.links := by
  unfold groupUnder
  split
  · rename_i h
    rw [List.isEmpty_iff.1 h]
    exact ⟨fun h => (nomatch h), fun ⟨_, h, _⟩ => nomatch h⟩
  · rw [← Block.mem_linksOf_iff]
    show l ∈ (Block.links (.comment title) ++ Block.linksOf items) ++ [] ↔ _
    rw [List.append_nil]
    rfl

/-- What the index passes on of an entity. -/
inductive EntityLink (config : Config) (paths : ImportPaths) (name : String) (l : Link) : Prop
  | model (source : l.module = paths.modelFromIndex name) (mem : l.name ∈ name ::
      if config.generateZodSchemas then
        modelSchemaNames name ++ utilityNames name ++ labelHelpers name else [])
  | base (plain : config.generateZodSchemas = false) (source : l.module = paths.baseFromModel name)
      (mem : l.name ∈ utilityNames name)
  | rules (wanted : (config.generateRules && !config.generateZodSchemas) = true)
      (source : l.module = paths.rulesFromIndex name) (mem : l.name ∈ ruleNames name)

theorem entityLink_of_mem {entities : List String} {config : Config} {paths : ImportPaths}
    {l : Link} (h : l ∈ Block.linksOf (entityBlocks entities config paths)) :
    ∃ name ∈ entities, EntityLink config paths name l := by
  unfold entityBlocks at h
  cases hz : config.generateZodSchemas with
  | true =>
    rw [hz, if_pos rfl, mem_linksOf_groupUnder] at h
    obtain ⟨b, hb, hl⟩ := h
    obtain ⟨name, hname, hb⟩ := List.mem_flatMap.1 hb
    refine ⟨name, hname, ?_⟩
    rcases List.mem_pair.1 hb with rfl | rfl
    · have hlink : l.module = paths.modelFromIndex name ∧ l.name ∈ name :: utilityNames name :=
        (mem_links_exports rfl rfl).1 hl
      refine .model hlink.1 ?_
      rw [hz, if_pos rfl]
      rcases List.mem_cons.1 hlink.2 with hmem | hmem
      · exact List.mem_cons.2 (.inl hmem)
      · exact List.mem_cons_of_mem _ (List.mem_append_left _ (List.mem_append_right _ hmem))
    · have hlink : l.module = paths.modelFromIndex name ∧
          l.name ∈ modelSchemaNames name ++ labelHelpers name :=
        (mem_links_exports rfl rfl).1 hl
      refine .model hlink.1 (List.mem_cons_of_mem _ ?_)
      rw [hz, if_pos rfl]
      rcases List.mem_append.1 hlink.2 with hmem | hmem
      · exact List.mem_append_left _ (List.mem_append_left _ hmem)
      · exact List.mem_append_right _ hmem
  | false =>
    rw [hz, if_neg Bool.false_ne_true, Block.linksOf_append, List.mem_append,
      mem_linksOf_groupUnder] at h
    rcases h with ⟨b, hb, hl⟩ | h
    · obtain ⟨name, hname, hb⟩ := List.mem_flatMap.1 hb
      refine ⟨name, hname, ?_⟩
      rcases List.mem_pair.1 hb with rfl | rfl
      · obtain ⟨hsource, hmem⟩ := (mem_links_exports rfl rfl).1 hl
        exact .model hsource (List.mem_cons.2 (.inl (List.mem_singleton.1 hmem)))
      · obtain ⟨hsource, hmem⟩ := (mem_links_exports rfl rfl).1 hl
        exact .base hz hsource hmem
    · cases hr : config.generateRules with
      | false =>
        rw [hr] at h
        exact nomatch h
      | true =>
        rw [hr, if_pos rfl, mem_linksOf_groupUnder] at h
        obtain ⟨b, hb, hl⟩ := h
        obtain ⟨name, hname, rfl⟩ := List.mem_map.1 hb
        obtain ⟨hsource, hmem⟩ := (mem_links_exports rfl rfl).1 hl
        refine ⟨name, hname, .rules ?_ hsource hmem⟩
        rw [hr, hz]
        rfl

/-- What the index passes on. -/
inductive IndexLink (entities : List String) (enums pluginEnums : List Enumeration)
    (aliases : List TypeAlias) (config : Config) (paths : ImportPaths) (l : Link) : Prop
  | common (source : l.module = paths.commonFromRoot) (mem : l.name ∈ commonNames)
  | i18n (source : l.module = paths.i18nFromRoot) (mem : l.name ∈ i18nNames)
  | enum {e : Enumeration} (given : e ∈ enums)
      (source : l.module = paths.module paths.indexEnums e.name) (mem : l.name ∈ valueNames e.name)
  | plugin {e : Enumeration} (given : e ∈ pluginEnums)
      (source : l.module = paths.module paths.indexPluginEnums e.name)
      (mem : l.name ∈ valueNames e.name)
  | typeAlias {a : TypeAlias} (given : a ∈ aliases)
      (source : l.module = paths.module paths.indexEnums a.name) (mem : l.name ∈ valueNames a.name)
  | entity {name : String} (given : name ∈ entities) (link : EntityLink config paths name l)

/-- **The index** has links to every kind of module. -/
theorem indexLink_of_mem {entities : List String} {enums pluginEnums : List Enumeration}
    {aliases : List TypeAlias} {config : Config} {paths : ImportPaths} {l : Link}
    (h : l ∈ (indexModule entities enums pluginEnums aliases config paths).links) :
    IndexLink entities enums pluginEnums aliases config paths l := by
  replace h : l ∈ Block.linksOf
    (indexModule entities enums pluginEnums aliases config paths).blocks := h
  simp only [indexModule, Block.linksOf_append, List.mem_append, mem_linksOf_groupUnder,
    List.mem_map] at h
  rcases h with (((hshared | ⟨b, ⟨e, he, rfl⟩, hl⟩) | ⟨b, ⟨e, he, rfl⟩, hl⟩) |
    ⟨b, ⟨a, ha, rfl⟩, hl⟩) | hentity
  · obtain ⟨b, hb, hl⟩ := Block.mem_linksOf_iff.1 hshared
    rcases List.mem_pair.1 hb with rfl | rfl
    · obtain ⟨hsource, hmem⟩ := (mem_links_titled rfl rfl).1 hl
      exact .common hsource hmem
    · obtain ⟨hsource, hmem⟩ := (mem_links_titled rfl rfl).1 hl
      exact .i18n hsource hmem
  · obtain ⟨hsource, hmem⟩ := mem_links_enumExport.1 hl
    exact .enum he hsource hmem
  · obtain ⟨hsource, hmem⟩ := mem_links_enumExport.1 hl
    exact .plugin he hsource hmem
  · obtain ⟨hsource, hmem⟩ := mem_links_enumExport.1 hl
    exact .typeAlias ha hsource hmem
  · obtain ⟨name, hname, hlink⟩ := entityLink_of_mem hentity
    exact .entity hname hlink

end SchemaTypes.Output
