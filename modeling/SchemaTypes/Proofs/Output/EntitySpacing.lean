/-
# Spacing of entities

The generated file of an entity, its model file and the file of its rules have solid parts if the
entity is on one line, with validators and without, whether there are fields, labels or rules or
none (`sound_baseModule`, `sound_modelModule`, `sound_rulesModule`).  Each ends with one line break
whatever the entity is.
-/
import SchemaTypes.Output.ModelModule
import SchemaTypes.Proofs.DisplayNames
import SchemaTypes.Proofs.Output.EnumSpacing

namespace SchemaTypes

open Text TypeScript

variable {name : String} {config : Config}

/-! ## 1. Labels and rules of an entity -/

/-- The names of the fields with labels are on one line. -/
def DisplayNames.IsUnbroken (d : DisplayNames) : Prop :=
  ∀ n ∈ Dictionary.keys d.fields, Unbroken n

namespace DisplayNames

variable {d : DisplayNames}

theorem IsUnbroken.addSingle (h : d.IsUnbroken) (hname : Unbroken name) (p : Property) :
    (addSingle config name p d).IsUnbroken := by
  intro n hn
  rcases mem_keys_addSingle.1 hn with rfl | hn
  · exact Naming.unbroken_snake hname
  · exact h n hn

theorem IsUnbroken.addCompound (h : d.IsUnbroken) (hname : Unbroken name) (p : Property)
    {t : CustomType} (ht : t.IsUnbroken) : (addCompound config name p t d).IsUnbroken := by
  intro n hn
  rcases mem_keys_foldl_addEntry.1 hn with ⟨e, he, rfl⟩ | hn
  · exact Zod.unbroken_partName hname (ht.expand e he).suffix
  · split at hn
    · rcases mem_keys_putField.1 hn with rfl | hn
      · exact Naming.unbroken_snake hname
      · exact h n hn
    · exact h n hn

theorem IsUnbroken.addProperty (h : d.IsUnbroken) (hconfig : config.IsUnbroken)
    {e : String × Property} (hname : Unbroken e.1) : (addProperty config d e).IsUnbroken := by
  unfold DisplayNames.addProperty
  split
  · rename_i t ht
    have htype := Zod.isUnbroken_customTypeOf? hconfig t (Option.filter_eq_some_iff.1 ht).1
    split
    · exact h.addSingle hname e.2
    · exact h.addCompound hname e.2 htype
  · exact h.addSingle hname e.2

theorem isUnbroken_foldl_addProperty (hconfig : config.IsUnbroken)
    {ps : List (String × Property)} (hps : ∀ e ∈ ps, Unbroken e.1) :
    ∀ {d : DisplayNames}, d.IsUnbroken → (ps.foldl (addProperty config) d).IsUnbroken := by
  induction ps with
  | nil => exact fun h => h
  | cons e r ih =>
    obtain ⟨he, hr⟩ := List.forall_mem_cons.1 hps
    exact fun h => ih hr (h.addProperty hconfig he)

/-- **The fields with labels have names on one line** if the schema and the settings are. -/
theorem isUnbroken_ofSchema (hconfig : config.IsUnbroken) {s : Schema} (hs : s.IsUnbroken) :
    (ofSchema config s).IsUnbroken :=
  isUnbroken_foldl_addProperty hconfig (fun e he => (hs.properties e he).1) fun _ hn => nomatch hn

end DisplayNames

/-- The type and the pattern of a rule are on one line. -/
structure PropertyRule.IsUnbroken (r : PropertyRule) : Prop where
  type : ∀ t ∈ r.type, Unbroken t
  pattern : ∀ t ∈ r.pattern, Unbroken t

/-- The names and the rules of properties are on one line. -/
def EntityRules.IsUnbroken (rules : EntityRules) : Prop :=
  ∀ e ∈ rules.properties, Unbroken e.1 ∧ ∀ r ∈ e.2.rules, r.IsUnbroken

namespace EntityRules

/-- The type and the pattern of a rule before its message is made. -/
def Draft.IsUnbroken (d : Draft) : Prop :=
  (∀ t ∈ d.type, Unbroken t) ∧ ∀ t ∈ d.pattern, Unbroken t

theorem isUnbroken_least {type : Option String} (h : ∀ t ∈ type, Unbroken t) (rule : String)
    (b : Bound) : (Draft.least rule type b).IsUnbroken :=
  ⟨h, fun _ ht => nomatch ht⟩

theorem isUnbroken_greatest {type : Option String} (h : ∀ t ∈ type, Unbroken t) (rule : String)
    (b : Bound) : (Draft.greatest rule type b).IsUnbroken :=
  ⟨h, fun _ ht => nomatch ht⟩

theorem forall_mem_toList_map {P : Draft → Prop} {f : α → Draft} (h : ∀ a, P (f a))
    (o : Option α) : ∀ d ∈ (o.map f).toList, P d := by
  intro d hd
  obtain ⟨a, -, rfl⟩ := Option.map_eq_some_iff.1 (Option.mem_toList.1 hd)
  exact h a

theorem isUnbroken_draftsOf {p : Property} (hp : p.IsUnbroken) :
    ∀ d ∈ draftsOf p, d.IsUnbroken := by
  have hnone : ∀ t ∈ (none : Option String), Unbroken t := fun _ ht => nomatch ht
  have hrange : ∀ t ∈ some (if p.tag == "Float" then "number" else "integer"), Unbroken t := by
    intro t ht
    obtain rfl := Option.some.inj ht
    split <;> decide
  simp only [draftsOf, List.forall_mem_append]
  refine ⟨⟨⟨⟨?_, ?_⟩, ?_⟩, ?_⟩, fun d hd => ?_⟩
  · split
    · exact fun _ hd => nomatch hd
    · exact List.forall_mem_singleton.2 ⟨hnone, hnone⟩
  · split
    · exact List.forall_mem_singleton.2 ⟨by simp +decide, hnone⟩
    · exact fun _ hd => nomatch hd
  · unfold lengthDrafts
    split
    · exact List.forall_mem_append.2
        ⟨forall_mem_toList_map (fun _ => isUnbroken_least hnone _ _) _,
          forall_mem_toList_map (fun _ => isUnbroken_greatest hnone _ _) _⟩
    · exact fun _ hd => nomatch hd
  · unfold rangeDrafts
    split
    · exact List.forall_mem_append.2
        ⟨forall_mem_toList_map (isUnbroken_least hrange _) _,
          forall_mem_toList_map (isUnbroken_greatest hrange _) _⟩
    · exact fun _ hd => nomatch hd
  · obtain ⟨t, ht, rfl⟩ := Option.map_eq_some_iff.1 (Option.mem_toList.1 hd)
    exact ⟨hnone, forall_mem_some.2 (hp.pattern t (Option.filter_eq_some_iff.1 ht).1)⟩

/-- **The rules of a schema are on one line** if the schema is. -/
theorem isUnbroken_ofSchema {s : Schema} (hs : s.IsUnbroken) (config : Config) :
    (ofSchema config s).IsUnbroken := by
  intro e he
  obtain ⟨x, hx, rfl⟩ := List.mem_map.1 he
  obtain ⟨hname, hp⟩ := hs.properties x hx
  refine ⟨hname, fun r hr => ?_⟩
  obtain ⟨d, hd, rfl⟩ := List.mem_map.1 hr
  exact ⟨(isUnbroken_draftsOf hp d hd).1, (isUnbroken_draftsOf hp d hd).2⟩

end EntityRules

namespace Output

/-! ## 2. Imports -/

theorem isUnbroken_plain (names : List String) (h : ∀ n ∈ names, Unbroken n) :
    ∀ s ∈ names.map Specifier.plain, s.IsUnbroken := by
  intro s hs
  obtain ⟨n, hn, rfl⟩ := List.mem_map.1 hs
  exact ⟨h n hn, fun _ ha => nomatch ha⟩

/-- An import of names as they are. -/
theorem solid_import (names : List String) {module : String} {typeOnly multiline : Bool}
    (hnames : ∀ n ∈ names, Unbroken n) (hmodule : Unbroken module) :
    Solid (ImportDecl.mk (names.map .plain) module typeOnly multiline).text :=
  ImportDecl.solid_text (isUnbroken_plain names hnames) hmodule

/-- An export of names as they are. -/
theorem solid_export (names : List String) {module : Option String} {typeOnly multiline : Bool}
    (hnames : ∀ n ∈ names, Unbroken n) (hmodule : ∀ m ∈ module, Unbroken m) :
    Solid (Block.exports ⟨names.map .plain, module, typeOnly, multiline⟩).text :=
  ExportDecl.solid_text (isUnbroken_plain names hnames) hmodule

variable {paths : ImportPaths} {i : Interface}

theorem solid_baseImports (hi : i.IsUnbroken) (hpaths : paths.IsUnbroken) (withZod : Bool)
    (pluginEnums : List String) : ∀ d ∈ baseImports i paths withZod pluginEnums, Solid d.text := by
  have hcommon : ∀ t ∈ commonTypesOf i, Unbroken t := fun t ht =>
    (by decide : ∀ t ∈ ["DateTimeString", "DateString"], Unbroken t) t (List.mem_filter.1 ht).1
  simp only [baseImports, List.forall_mem_append]
  refine ⟨⟨⟨?_, ?_⟩, fun d hd => ?_⟩, fun d hd => ?_⟩
  · cases withZod with
    | false => exact fun _ hd => nomatch hd
    | true =>
      exact List.forall_mem_singleton.2 (solid_import ["z"] (by decide) (by decide))
  · split
    · exact fun _ hd => nomatch hd
    · exact List.forall_mem_singleton.2 (solid_import _ hcommon hpaths.commonFromBase)
  · obtain ⟨e, he, rfl⟩ := List.mem_map.1 hd
    have hname := hi.enumDependencies e he
    exact solid_import [e] (List.forall_mem_singleton.2 hname) (hpaths.enumFromBase hname _)
  · obtain ⟨e, he, rfl⟩ := List.mem_map.1 hd
    have hname := hi.dependencies e he
    exact solid_import [e] (List.forall_mem_singleton.2 hname) (hpaths.module (by decide) hname)

/-! ## 3. The file of an entity -/

theorem solid_fieldText {f : InterfaceField} (h : f.IsUnbroken) : Solid (fieldText f) := by
  have hreadonly : Unbroken (if f.readonly then "readonly " else "") := by split <;> decide
  have hoptional : Unbroken (if f.optional then "?" else "") := by split <;> decide
  have hline : Solid ("  " ++ (if f.readonly then "readonly " else "") ++ f.name
      ++ (if f.optional then "?" else "") ++ ": " ++ f.type ++ ";") :=
    Unbroken.solid (by simp +decide only [unbroken_append, hreadonly, hoptional, h.name, h.type,
      and_self]) (by simp)
  simp only [fieldText]
  split
  · rename_i c hc
    have hcomment : Unbroken c := h.comment c (Option.filter_eq_some_iff.1 hc).1
    have habove : Solid ("  /** " ++ c ++ " */") :=
      Unbroken.solid (unbroken_between (by decide) hcomment (by decide)) (by simp)
    have hbelow := habove.below hline
    rw [@String.append_assoc ("  /** " ++ c)] at hbelow
    exact hbelow
  · exact hline

theorem solid_interfaceStatement (hi : i.IsUnbroken) : (interfaceStatement i []).Sound := by
  refine .interface hi.name (fun _ hh => nomatch hh) fun t ht => ?_
  obtain ⟨f, hf, rfl⟩ := List.mem_map.1 ht
  exact solid_fieldText (hi.fields f hf)

theorem lines_labelLinesOf (d : DisplayNames) {field : String × LocaleTexts}
    (h : Unbroken field.1) : ∀ l ∈ labelLinesOf d field, IsLine l := by
  have hlabel := Json.unbroken_textMap field.2
  have hplaceholder := Json.unbroken_textMap ((d.placeholders.lookup field.1).getD [])
  simp only [labelLinesOf, List.forall_mem_append]
  refine ⟨⟨by simp +decide [h, hlabel], ?_⟩, by decide⟩
  split
  · exact List.forall_mem_nil _
  · simp +decide [hplaceholder]

theorem sound_labelTable (h : Unbroken name) {d : DisplayNames} (hd : d.IsUnbroken) :
    (labelTable name d).Sound := by
  have hlabel := Json.unbroken_textMap d.label
  refine .const (by simp +decide [Naming.unbroken_lowerFirst h]) (by simp) ?_
  refine solid_lines (by simp) (solid_of_lines ?_)
  simp only [List.forall_mem_append]
  refine ⟨⟨by simp +decide [hlabel], fun l hl => ?_⟩, by decide⟩
  obtain ⟨field, hfield, hl⟩ := List.mem_flatMap.1 hl
  exact lines_labelLinesOf d (hd _ (List.mem_map_of_mem hfield)) l hl

theorem solid_labelFunctions (h : Unbroken name) : ∀ b ∈ labelFunctions name, Solid b.text := by
  have hlower := Naming.unbroken_lowerFirst h
  have hquoted := unbroken_quote h
  have hfield : Unbroken ("const fieldI18n = " ++ (Naming.lowerFirst name ++ "I18n")
      ++ ".fields[field as keyof typeof " ++ (Naming.lowerFirst name ++ "I18n")
      ++ ".fields];") := by
    simp +decide [hlower]
  refine List.forall_mem_cons.2 ⟨?_, List.forall_mem_cons.2 ⟨?_, List.forall_mem_singleton.2 ?_⟩⟩
  · exact solid_function (by simp +decide [h]) (by decide) (by decide)
      (by simp +decide [hlower, hquoted]) (unbroken_chars (by decide))
  · refine solid_function (by simp +decide [h]) (by decide) (by decide) ?_
      (unbroken_chars (by decide))
    exact lines_cons hfield (by simp) (lines_cons (unbroken_chars (by decide)) (by simp)
      (lines_cons (unbroken_append.2 ⟨unbroken_chars (by decide), unbroken_chars (by decide)⟩)
        (by simp) lines_nil))
  · refine solid_function (by simp +decide [h]) (by decide) (by decide) ?_
      (unbroken_chars (by decide))
    exact lines_cons hfield (by simp) (lines_cons (unbroken_chars (by decide)) (by simp)
      (lines_cons (unbroken_chars (by decide)) (by simp)
        (lines_cons (unbroken_chars (by decide)) (by simp) lines_nil)))

theorem solid_lineTable {lines : List String} (h : ∀ l ∈ lines, Solid l) :
    Solid (lineTable lines) :=
  solid_table (Unbroken.solid (by decide : Unbroken "\x7b") (by decide))
    (Unbroken.solid (by decide : Unbroken "\x7d") (by decide)) h

theorem lines_schemaLines {f : Zod.Field} (h : f.IsUnbroken) :
    ∀ l ∈ schemaLines f, IsLine l := by
  have hschema := h.schema.text
  refine List.forall_mem_append.2 ⟨fun l hl => ?_, by simp +decide [h.name, hschema]⟩
  obtain ⟨c, hc, rfl⟩ := Option.map_eq_some_iff.1 (Option.mem_toList.1 hl)
  have hcomment : Unbroken c := h.comment c (Option.filter_eq_some_iff.1 hc).1
  exact ⟨unbroken_between (by decide) hcomment (by decide), by simp⟩

theorem solid_zodBlocks (h : Unbroken name) {fields : List Zod.Field}
    (hfields : ∀ f ∈ fields, f.IsUnbroken) {d : DisplayNames} (hd : d.IsUnbroken)
    (excluded : List String) : ∀ b ∈ zodBlocks name fields d excluded, Solid b.text := by
  have hschemas : Solid (lineTable (fields.flatMap schemaLines)) := by
    refine solid_lineTable (solid_of_lines fun l hl => ?_)
    obtain ⟨f, hf, hl⟩ := List.mem_flatMap.1 hl
    exact lines_schemaLines (hfields f hf) l hl
  have hcreate : Solid (lineTable ((createFields fields excluded).map fun f =>
      "  " ++ f.name ++ ": " ++ ("base" ++ name ++ "Schemas") ++ "." ++ f.name ++ ",")) := by
    refine solid_lineTable fun l hl => ?_
    obtain ⟨f, hf, rfl⟩ := List.mem_map.1 hl
    have hfield := (hfields f (List.mem_filter.1 hf).1).name
    exact Unbroken.solid (by simp +decide [hfield, h]) (by simp)
  refine List.forall_mem_append.2 ⟨?_, solid_labelFunctions h⟩
  refine List.forall_mem_cons.2 ⟨solid_banner (by decide), List.forall_mem_cons.2 ⟨?_,
    List.forall_mem_cons.2 ⟨solid_banner (by decide), List.forall_mem_cons.2 ⟨?_,
    List.forall_mem_cons.2 ⟨?_, List.forall_mem_cons.2 ⟨?_, List.forall_mem_cons.2
    ⟨solid_banner (by decide), List.forall_mem_cons.2 ⟨?_,
    List.forall_mem_singleton.2 (solid_banner (by decide))⟩⟩⟩⟩⟩⟩⟩⟩
  · exact solid_declare (sound_labelTable h hd) (by simp +decide [h]) _
  · exact solid_described (.const (by simp +decide [h]) (by simp)
      (hschemas.append_unbroken (by decide))) (by simp +decide [h])
  · exact solid_described (.const (by simp +decide [h]) (by simp)
      ((Unbroken.append_solid (by decide) hcreate).append_unbroken (by decide)))
      (by simp +decide [h])
  · exact solid_described (sound_constOnLine (by simp +decide [h]) (by simp +decide [h]) (by simp))
      (by simp +decide [h])
  · refine solid_declaration (by simp) ?_ (by simp)
    refine List.forall_mem_cons.2 ⟨?_, List.forall_mem_singleton.2 ?_⟩
    · exact .typeAlias (by simp +decide [h]) (by simp +decide [h])
    · exact .typeAlias (by simp +decide [h]) (by simp +decide [h])

theorem solid_utilityBlocks (h : Unbroken name) {excluded : List String}
    (hexcluded : ∀ n ∈ excluded, Unbroken n) : ∀ b ∈ utilityBlocks name excluded, Solid b.text := by
  have homitted : Unbroken (if excluded.isEmpty then name
      else "Omit<" ++ name ++ ", " ++ TypeExpr.literalUnion excluded ++ ">") := by
    split
    · exact h
    · exact unbroken_between (unbroken_between (by decide) h (by decide))
        (TypeExpr.unbroken_literalUnion hexcluded) (by decide)
  refine List.forall_mem_cons.2 ⟨?_, List.forall_mem_singleton.2 ?_⟩
  · exact solid_described (.typeAlias (by simp +decide [h]) homitted) (by simp +decide [h])
  · exact solid_described (.typeAlias (by simp +decide [h]) (by simp +decide [h]))
      (by simp +decide [h])

/-- **The file of an entity has solid parts**, with validators and without. -/
theorem sound_baseModule (hi : i.IsUnbroken) (hpaths : paths.IsUnbroken) {zod : Option ZodPart}
    (hzod : ∀ z ∈ zod, (∀ f ∈ z.fields, f.IsUnbroken) ∧ z.names.IsUnbroken)
    {excluded : List String} (hexcluded : ∀ n ∈ excluded, Unbroken n) (pluginEnums : List String) :
    (baseModule i paths zod excluded pluginEnums).Sound := by
  refine ⟨forall_mem_some.2 solid_defaultHeader, solid_baseImports hi hpaths _ _, ?_⟩
  refine List.forall_mem_cons.2 ⟨?_, ?_⟩
  · exact solid_declare (solid_interfaceStatement hi) (by simpa using hi.comment) _
  · cases zod with
    | some z =>
      obtain ⟨hfields, hnames⟩ := hzod z rfl
      exact solid_zodBlocks hi.name hfields hnames excluded
    | none => exact solid_utilityBlocks hi.name hexcluded

/-- **The file of an entity ends with one line break.** -/
theorem endsOnce_baseModule (i : Interface) (paths : ImportPaths) (zod : Option ZodPart)
    (excluded pluginEnums : List String) :
    EndsOnce (baseModule i paths zod excluded pluginEnums).text := by
  cases zod with
  | some z =>
    exact endsOnce_of_function (show (baseModule i paths (some z) excluded pluginEnums).blocks
      = [_, _, _, _, _, _, _, _, _, _, _, _] ++ [_] from rfl)
  | none =>
    refine SourceFile.endsOnce_text (show (baseModule i paths none excluded pluginEnums).blocks
      = [_, _] ++ [_] from rfl) ?_
    exact firm_declare (by simp) _ _

/-! ## 4. The model file -/

theorem unbroken_labelHelpers (h : Unbroken name) : ∀ n ∈ labelHelpers name, Unbroken n := by
  simp +decide [labelHelpers, h, Naming.unbroken_lowerFirst h]

theorem isUnbroken_baseSpecifier (h : Unbroken name) :
    ∀ s ∈ [baseSpecifier name], s.IsUnbroken :=
  List.forall_mem_singleton.2
    ⟨h, forall_mem_some.2 (unbroken_append.2 ⟨h, by decide⟩)⟩

theorem sound_modelInterface (h : Unbroken name) : (modelInterface name).Sound :=
  .interface h (by simp +decide [h]) (solid_of_lines (by decide))

theorem solid_baseReexport (h : Unbroken name) : Solid (baseReexport name).text := by
  refine solid_group (by simp) (List.forall_mem_cons.2 ⟨solid_comment (by decide),
    List.forall_mem_singleton.2 ?_⟩)
  exact solid_export [name ++ "Base"] (by simp +decide [h]) (by simp)

theorem sound_plainModel (h : Unbroken name) (hpaths : paths.IsUnbroken) :
    (plainModel name paths).Sound := by
  have hmodule : Unbroken (paths.baseFromModel name) := hpaths.module hpaths.base h
  refine ⟨forall_mem_some.2 (solid_modelHeader h _), ?_, ?_⟩
  · exact List.forall_mem_singleton.2
      (ImportDecl.solid_text (isUnbroken_baseSpecifier h) hmodule)
  · refine List.forall_mem_cons.2 ⟨?_, List.forall_mem_singleton.2 (solid_baseReexport h)⟩
    exact solid_declare (sound_modelInterface h) (by simp +decide [h]) _

theorem sound_zodModel (h : Unbroken name) (hpaths : paths.IsUnbroken) :
    (zodModel name paths).Sound := by
  have hlower := Naming.unbroken_lowerFirst h
  have hmodule : Unbroken (paths.baseFromModel name) := hpaths.module hpaths.base h
  have hhelpers := unbroken_labelHelpers h
  refine ⟨forall_mem_some.2 (solid_modelHeader h _), ?_, ?_⟩
  · refine List.forall_mem_cons.2 ⟨solid_import ["z"] (by decide) (by decide),
      List.forall_mem_cons.2 ⟨ImportDecl.solid_text (isUnbroken_baseSpecifier h) hmodule,
        List.forall_mem_singleton.2 (ImportDecl.solid_text ?_ hmodule)⟩⟩
    refine List.forall_mem_append.2 ⟨?_, isUnbroken_plain _ hhelpers⟩
    exact isUnbroken_plain ["base" ++ name ++ "Schemas", "base" ++ name ++ "CreateSchema",
      "base" ++ name ++ "UpdateSchema"] (by simp +decide [h])
  · refine List.forall_mem_cons.2 ⟨solid_banner (by decide), List.forall_mem_cons.2 ⟨?_,
      List.forall_mem_cons.2 ⟨solid_banner (by decide), List.forall_mem_cons.2 ⟨?_,
      List.forall_mem_cons.2 ⟨solid_banner (by decide), List.forall_mem_cons.2 ⟨?_,
      List.forall_mem_cons.2 ⟨?_, List.forall_mem_singleton.2 (solid_baseReexport h)⟩⟩⟩⟩⟩⟩⟩
    · exact solid_declare (sound_modelInterface h) (by simp) _
    · refine solid_declaration (by simp) (List.forall_mem_cons.2 ⟨?_, List.forall_mem_cons.2 ⟨?_,
        List.forall_mem_singleton.2 ?_⟩⟩) (by simp)
      · exact sound_constOnLine (by simp +decide [hlower]) (by simp +decide [h]) (by simp)
      · exact sound_constOnLine (by simp +decide [hlower]) (by simp +decide [h]) (by simp)
      · exact sound_constOnLine (by simp +decide [hlower]) (by simp +decide [h]) (by simp)
    · refine solid_declaration (by simp) (List.forall_mem_cons.2 ⟨?_,
        List.forall_mem_singleton.2 ?_⟩) (by simp)
      · exact .typeAlias (by simp +decide [h]) (by simp +decide [hlower])
      · exact .typeAlias (by simp +decide [h]) (by simp +decide [hlower])
    · exact solid_group (by simp) (List.forall_mem_cons.2 ⟨solid_comment (by decide),
        List.forall_mem_singleton.2 (solid_export _ hhelpers (by simp))⟩)

/-- **The model file has solid parts.** -/
theorem sound_modelModule (h : Unbroken name) (hpaths : paths.IsUnbroken) (zod : Bool) :
    (modelModule name paths zod).Sound := by
  cases zod with
  | true => exact sound_zodModel h hpaths
  | false => exact sound_plainModel h hpaths

/-- **The model file ends with one line break.** -/
theorem endsOnce_modelModule (name : String) (paths : ImportPaths) (zod : Bool) :
    EndsOnce (modelModule name paths zod).text := by
  have hlast : Firm (baseReexport name).text := firm_group [_] (firm_exports _)
  cases zod with
  | true =>
    exact SourceFile.endsOnce_text (show (zodModel name paths).blocks
      = [_, _, _, _, _, _, _] ++ [_] from rfl) hlast
  | false =>
    exact SourceFile.endsOnce_text (show (plainModel name paths).blocks = [_] ++ [_] from rfl) hlast

/-! ## 5. The file of rules -/

theorem unbroken_ruleText {r : PropertyRule} (h : r.IsUnbroken) : Unbroken (ruleText r) := by
  have hmessage := Json.unbroken_textMap r.message
  refine unbroken_between (by decide) (unbroken_intercalate (by decide) ?_) (by decide)
  simp only [List.forall_mem_append]
  refine ⟨⟨⟨⟨⟨?_, fun t ht => ?_⟩, fun t ht => ?_⟩, fun t ht => ?_⟩, fun t ht => ?_⟩, ?_⟩
  · split
    · decide
    · exact fun _ ht => nomatch ht
  · obtain ⟨u, hu, rfl⟩ := Option.map_eq_some_iff.1 (Option.mem_toList.1 ht)
    exact unbroken_between (by decide) (h.type u (Option.filter_eq_some_iff.1 hu).1) (by decide)
  · obtain ⟨b, -, rfl⟩ := Option.map_eq_some_iff.1 (Option.mem_toList.1 ht)
    exact unbroken_append.2 ⟨by decide, b.isNumeral_literal.unbroken⟩
  · obtain ⟨b, -, rfl⟩ := Option.map_eq_some_iff.1 (Option.mem_toList.1 ht)
    exact unbroken_append.2 ⟨by decide, b.isNumeral_literal.unbroken⟩
  · obtain ⟨u, hu, rfl⟩ := Option.map_eq_some_iff.1 (Option.mem_toList.1 ht)
    exact unbroken_between (by decide) (h.pattern u (Option.filter_eq_some_iff.1 hu).1) (by decide)
  · exact List.forall_mem_singleton.2 (unbroken_append.2 ⟨by decide, hmessage⟩)

theorem lines_ruleLines {e : String × PropertyRules} (hname : Unbroken e.1)
    (hrules : ∀ r ∈ e.2.rules, r.IsUnbroken) : ∀ l ∈ ruleLines e, IsLine l := by
  unfold ruleLines
  split
  · exact fun _ hl => nomatch hl
  · simp only [List.forall_mem_append]
    refine ⟨⟨by simp +decide [hname], fun l hl => ?_⟩, by decide⟩
    obtain ⟨r, hr, rfl⟩ := List.mem_map.1 hl
    exact ⟨unbroken_between (by decide) (unbroken_ruleText (hrules r hr)) (by decide), by simp⟩

theorem unbroken_rulesByProperty : Unbroken rulesByProperty :=
  unbroken_between (by decide) (unbroken_append.2 ⟨unbroken_chars (by decide),
    unbroken_chars (by decide)⟩) (by decide)

/-- **The file of rules has solid parts**, also without properties or rules. -/
theorem sound_rulesModule (h : Unbroken name) {rules : EntityRules} (hrules : rules.IsUnbroken)
    (hpaths : paths.IsUnbroken) : (rulesModule name rules paths).Sound := by
  have hshape := unbroken_rulesByProperty
  have hquoted := unbroken_quote h
  have hnames : ∀ l ∈ rules.properties.map fun e =>
      "  " ++ e.1 ++ ": " ++ Json.textMap .compact e.2.displayName ++ ",", Solid l := by
    intro l hl
    obtain ⟨e, he, rfl⟩ := List.mem_map.1 hl
    have hlabels := Json.unbroken_textMap e.2.displayName
    exact Unbroken.solid (by simp +decide [(hrules e he).1, hlabels]) (by simp)
  have hlines : ∀ l ∈ rules.properties.flatMap ruleLines, Solid l := by
    refine solid_of_lines fun l hl => ?_
    obtain ⟨e, he, hl⟩ := List.mem_flatMap.1 hl
    exact lines_ruleLines (hrules e he).1 (hrules e he).2 l hl
  refine ⟨forall_mem_some.2 (solid_generatedHeader (by simp +decide [h])), ?_, ?_⟩
  · exact List.forall_mem_singleton.2
      (solid_import ["LocaleMap", "ValidationRule"] (by decide) hpaths.commonFromRules)
  · refine List.forall_mem_cons.2 ⟨?_, List.forall_mem_cons.2 ⟨?_, List.forall_mem_cons.2 ⟨?_,
      List.forall_mem_cons.2 ⟨?_, List.forall_mem_cons.2 ⟨?_, List.forall_mem_singleton.2 ?_⟩⟩⟩⟩⟩
    · exact solid_described (.const (by simp +decide [h]) (by simp +decide)
        (Json.solid_textMap 2 _)) (by simp +decide [h])
    · exact solid_described (.const (by simp +decide [h]) (by simp +decide)
        (solid_lineTable hnames)) (by simp +decide [h])
    · exact solid_described (.const (by simp +decide [h]) (by simp +decide)
        (solid_lineTable hlines)) (by simp +decide [h])
    · refine solid_function (by simp +decide [h]) (by decide) hshape ?_ (unbroken_chars (by decide))
      exact lines_cons (unbroken_between (by decide) hshape (by decide)) (by simp)
        (lines_cons (unbroken_between (unbroken_chars (by decide)) h (by decide)) (by simp)
        (lines_cons (unbroken_chars (by decide)) (by simp)
        (lines_cons (by decide) (by simp)
        (lines_cons (unbroken_chars (by decide)) (by simp) (by decide)))))
    · exact solid_function (by simp +decide [h]) (by decide) (by decide)
        (by simp +decide [h, hquoted]) (unbroken_chars (by decide))
    · refine solid_function (by simp +decide [h]) (by decide) (by decide) ?_
        (unbroken_chars (by decide))
      exact lines_cons (unbroken_between (by decide) h (by decide)) (by simp)
        (lines_cons (unbroken_chars (by decide)) (by simp) lines_nil)

/-- **The file of rules ends with one line break.** -/
theorem endsOnce_rulesModule (name : String) (rules : EntityRules) (paths : ImportPaths) :
    EndsOnce (rulesModule name rules paths).text :=
  endsOnce_of_function (show (rulesModule name rules paths).blocks
    = [_, _, _, _, _] ++ [_] from rfl)

end Output

end SchemaTypes
