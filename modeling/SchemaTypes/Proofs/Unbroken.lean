/-
# Snapshots on one line

The texts of a snapshot that are printed as they are, or between quotes, are on one line
(`Collection.IsUnbroken`, `Config.IsUnbroken`): names, labels of types and of properties, values,
patterns, affixes, type hints, locales and the locations of modules.  Placeholders, messages and
further data are not among them, for they are printed as JSON, which escapes line breaks.  What is
made from such texts is on one line again: shapes of names, labels in a locale, normal forms of
paths, and the names of modules.
-/
import Mathlib
import SchemaTypes.ImportPaths
import SchemaTypes.Proofs.Locale
import SchemaTypes.Proofs.Naming
import SchemaTypes.Proofs.Text.Normal
import SchemaTypes.Proofs.Text.Spacing

namespace SchemaTypes

open Text (Unbroken unbroken_append unbroken_intercalate)

/-- What holds of all elements of an option with one. -/
theorem forall_mem_some {α : Type} {P : α → Prop} {a : α} : (∀ x ∈ some a, P x) ↔ P a := by
  simp

/-! ## 1. Inputs -/

/-- The texts of a label are on one line, and so are its locales. -/
def Label.IsUnbroken : Label → Prop
  | .plain t => Unbroken t
  | .byLocale texts => ∀ e ∈ texts, Unbroken e.1 ∧ Unbroken e.2

/-- The affixes are on one line. -/
def Affixes.IsUnbroken : Affixes → Prop
  | .one t => Unbroken t
  | .many ts => ∀ t ∈ ts, Unbroken t

/-- The affixes and the pattern of a rule set are on one line. -/
structure RuleSet.IsUnbroken (r : RuleSet) : Prop where
  startsWith : ∀ a ∈ r.startsWith, a.IsUnbroken
  endsWith : ∀ a ∈ r.endsWith, a.IsUnbroken
  pattern : ∀ t ∈ r.pattern, Unbroken t

/-- A value and its label are on one line. -/
structure EnumValue.IsUnbroken (v : EnumValue) : Prop where
  value : Unbroken v.value
  label : ∀ l ∈ v.label, l.IsUnbroken

/-- The names and values that a kind has are on one line. -/
def PropertyKind.IsUnbroken : PropertyKind → Prop
  | .association _ target targets => (∀ t ∈ target, Unbroken t) ∧ ∀ t ∈ targets, Unbroken t
  | .enumRef enum => Unbroken enum
  | .inlineEnum values => ∀ v ∈ values, v.IsUnbroken
  | .select options => ∀ v ∈ options, v.IsUnbroken
  | .primitive | .file _ | .custom => True

/-- The printed texts of a property are on one line. -/
structure Property.IsUnbroken (p : Property) : Prop where
  displayName : ∀ l ∈ p.displayName, l.IsUnbroken
  pattern : ∀ t ∈ p.pattern, Unbroken t
  rules : ∀ r ∈ p.rules, r.IsUnbroken
  overrides : ∀ e ∈ p.overrides, ∀ r ∈ e.2.rules, r.IsUnbroken
  kind : p.kind.IsUnbroken

/-- The printed texts of a schema are on one line. -/
structure Schema.IsUnbroken (s : Schema) : Prop where
  name : Unbroken s.name
  displayName : ∀ l ∈ s.displayName, l.IsUnbroken
  properties : ∀ e ∈ s.properties, Unbroken e.1 ∧ e.2.IsUnbroken
  values : ∀ v ∈ s.values, v.IsUnbroken

/-- The printed texts of a collection are on one line. -/
def Collection.IsUnbroken (c : Collection) : Prop := ∀ s ∈ c.schemas, s.IsUnbroken

/-- The printed texts of one entry of a compound type are on one line. -/
structure CompoundEntry.IsUnbroken (e : CompoundEntry) : Prop where
  suffix : Unbroken e.suffix
  typeHint : Unbroken e.typeHint
  rules : ∀ r ∈ e.rules, r.IsUnbroken

/-- The printed texts of a plugin type are on one line. -/
structure CustomType.IsUnbroken (t : CustomType) : Prop where
  expand : ∀ e ∈ t.expand, e.IsUnbroken
  accessors : ∀ a ∈ t.accessors, Unbroken a
  typeHint : Unbroken t.typeHint

/-- The printed texts of an enumeration of a plugin are on one line. -/
structure PluginEnum.IsUnbroken (e : PluginEnum) : Prop where
  name : Unbroken e.name
  displayName : ∀ l ∈ e.displayName, l.IsUnbroken
  values : ∀ v ∈ e.values, v.IsUnbroken

/-- The locales are on one line. -/
structure LocaleConfig.IsUnbroken (c : LocaleConfig) : Prop where
  locales : ∀ l ∈ c.locales, Unbroken l
  defaultLocale : Unbroken c.defaultLocale
  fallbackLocale : Unbroken c.fallbackLocale

/-- The printed texts of the settings are on one line. -/
structure Config.IsUnbroken (c : Config) : Prop where
  localeConfig : c.localeConfig.IsUnbroken
  customTypes : ∀ t ∈ c.customTypes, t.2.IsUnbroken
  pluginEnums : ∀ e ∈ c.pluginEnums, e.2.IsUnbroken
  enumImportPrefix : ∀ t ∈ c.enumImportPrefix, Unbroken t
  schemaEnumImportPrefix : ∀ t ∈ c.schemaEnumImportPrefix, Unbroken t
  pluginEnumImportPrefix : ∀ t ∈ c.pluginEnumImportPrefix, Unbroken t
  baseImportPrefix : ∀ t ∈ c.baseImportPrefix, Unbroken t
  packageName : Unbroken c.packageName

theorem Collection.IsUnbroken.objectSchemas {c : Collection} (h : c.IsUnbroken) :
    ∀ s ∈ c.objectSchemas, s.IsUnbroken := fun s hs => h s (List.mem_filter.1 hs).1

theorem Collection.IsUnbroken.objectNames {c : Collection} (h : c.IsUnbroken) :
    ∀ n ∈ c.objectNames, Unbroken n := by
  intro n hn
  obtain ⟨s, hs, rfl⟩ := List.mem_map.1 hn
  exact (h.objectSchemas s hs).name

/-! ## 2. Names -/

namespace Naming

theorem outlastsCase_lineBreak : Text.OutlastsCase (· ≠ '\n') :=
  Text.outlastsCase_ne (by decide) (by decide)

theorem unbroken_ofList {cs : List Char} :
    Unbroken (String.ofList cs) ↔ ∀ c ∈ cs, c ≠ '\n' := by
  rw [Unbroken, String.toList_ofList]
  exact ⟨fun h c hc he => h (he ▸ hc), fun h hc => h _ hc rfl⟩

variable {s : String}

theorem forall_ne_of_unbroken (h : Unbroken s) : ∀ c ∈ s.toList, c ≠ '\n' :=
  unbroken_ofList.1 (by rwa [String.ofList_toList])

theorem unbroken_snake (h : Unbroken s) : Unbroken (snake s) :=
  unbroken_ofList.2 (outlastsCase_lineBreak.snakeChars (forall_ne_of_unbroken h))

theorem unbroken_pascal (h : Unbroken s) : Unbroken (pascal s) :=
  unbroken_ofList.2 (outlastsCase_lineBreak.pascalChars (forall_ne_of_unbroken h))

theorem unbroken_lowerFirst (h : Unbroken s) : Unbroken (lowerFirst s) :=
  unbroken_ofList.2 (outlastsCase_lineBreak.lowerFirstChars (forall_ne_of_unbroken h))

/-- A member's name is made of letters and digits, whatever its value is. -/
theorem unbroken_member (s : String) : Unbroken (member s) := by
  have hchars : ∀ c ∈ (joinWords s.toList).filter Text.isAlphanumeric, c ≠ '\n' := by
    rintro c hc rfl
    exact absurd (List.mem_filter.1 hc).2 (by decide)
  refine unbroken_ofList.2 fun c hc => ?_
  unfold memberChars guardHead at hc
  split at hc
  · rw [List.mem_singleton.1 hc]
    decide
  · rename_i d r hd
    rw [hd] at hchars
    split at hc
    · rcases List.mem_cons.1 hc with rfl | hc
      · decide
      · exact hchars c hc
    · exact hchars c hc

end Naming

/-! ## 3. Literals -/

namespace TypeScript

theorem mem_of_mem_escapeBy {special : Char → Bool} {cs : List Char} {c : Char}
    (h : c ∈ escapeBy special cs) : c ∈ cs ∨ c = '\\' := by
  induction cs with
  | nil => exact nomatch h
  | cons d r ih =>
    rw [escapeBy] at h
    split at h
    · rcases List.mem_cons.1 h with rfl | h
      · exact .inr rfl
      · rcases List.mem_cons.1 h with rfl | h
        · exact .inl List.mem_cons_self
        · exact (ih h).imp_left (List.mem_cons_of_mem _)
    · rcases List.mem_cons.1 h with rfl | h
      · exact .inl List.mem_cons_self
      · exact (ih h).imp_left (List.mem_cons_of_mem _)

theorem unbroken_escapeBy (special : Char → Bool) {s : String} (h : Unbroken s) :
    Unbroken (String.ofList (escapeBy special s.toList)) := by
  refine Naming.unbroken_ofList.2 fun c hc => ?_
  rcases mem_of_mem_escapeBy hc with hc | rfl
  · exact Naming.forall_ne_of_unbroken h c hc
  · decide

theorem unbroken_escapeString {s : String} (h : Unbroken s) : Unbroken (escapeString s) :=
  unbroken_escapeBy _ h

theorem unbroken_escapeRegex {s : String} (h : Unbroken s) : Unbroken (escapeRegex s) :=
  unbroken_escapeBy _ h

theorem unbroken_quote {s : String} (h : Unbroken s) : Unbroken (quote s) := by
  simp +decide [quote, unbroken_escapeString h]

/-- Quoted values with something between them. -/
theorem unbroken_quotes {sep : String} (hsep : Unbroken sep) {values : List String}
    (h : ∀ v ∈ values, Unbroken v) : Unbroken (String.intercalate sep (values.map quote)) := by
  refine unbroken_intercalate hsep fun t ht => ?_
  obtain ⟨v, hv, rfl⟩ := List.mem_map.1 ht
  exact unbroken_quote (h v hv)

end TypeScript

/-! ## 4. Labels in a locale -/

namespace Locale

variable {label : Option Label} {locale : Option String} {config : Option LocaleConfig}

theorem unbroken_resolve (h : ∀ l ∈ label, l.IsUnbroken) :
    ∀ t ∈ resolve label locale config, Unbroken t := by
  intro t ht
  unfold resolve at ht
  split at ht
  · exact nomatch ht
  · rename_i text
    exact Option.some.inj ht ▸ h (.plain text) rfl
  · rename_i texts
    have htexts : ∀ e ∈ texts, Unbroken e.1 ∧ Unbroken e.2 := h (.byLocale texts) rfl
    unfold pick at ht
    split at ht
    · rename_i u hu
      obtain ⟨l, -, hl⟩ := List.exists_of_findSome?_eq_some hu
      exact Option.some.inj ht ▸ (htexts _ (Dictionary.mem_of_lookup hl)).2
    · obtain ⟨e, he, rfl⟩ := Option.map_eq_some_iff.1 ht
      exact (htexts e (List.mem_of_mem_head? he)).2

theorem unbroken_resolveOrKeep (h : ∀ l ∈ label, l.IsUnbroken) (multiLocale : Bool) :
    ∀ l ∈ resolveOrKeep label multiLocale locale config, l.IsUnbroken := by
  intro l hl
  unfold resolveOrKeep at hl
  split at hl
  · exact Option.some.inj hl ▸ h _ rfl
  · obtain ⟨t, ht, rfl⟩ := Option.map_eq_some_iff.1 hl
    exact unbroken_resolve h t ht

/-- The text of a label for one of the configured locales. -/
theorem unbroken_lookup_perLocale (h : ∀ l ∈ label, l.IsUnbroken) {default? : Option String}
    (hdefault : ∀ t ∈ default?, Unbroken t) (locales : List String) (fallback locale : String) :
    ∀ t ∈ (perLocale label locales fallback default?).lookup locale, Unbroken t := by
  intro t ht
  have htabulated : ∀ f : String → Option String, (∀ n, ∀ t ∈ f n, Unbroken t) →
      t ∈ (Dictionary.tabulate locales f).lookup locale → Unbroken t := by
    intro f hf ht
    rw [Dictionary.lookup_tabulate] at ht
    split at ht
    · exact hf _ t ht
    · exact nomatch ht
  unfold perLocale at ht
  split at ht
  · exact htabulated _ (fun _ => hdefault) ht
  · rename_i text
    refine htabulated _ (fun _ t ht => ?_) ht
    split at ht
    · exact hdefault t ht
    · exact Option.some.inj ht ▸ h (.plain text) rfl
  · rename_i texts
    have htexts : ∀ e ∈ texts, Unbroken e.1 ∧ Unbroken e.2 := h (.byLocale texts) rfl
    have hlookup : ∀ n, ∀ t ∈ texts.lookup n, Unbroken t := fun n t ht =>
      (htexts _ (Dictionary.mem_of_lookup ht)).2
    refine htabulated _ (fun n t ht => ?_) ht
    rw [textFor_eq] at ht
    simp only [Option.mem_def, Option.or_eq_some_iff] at ht
    rcases ht with ht | ⟨-, ht | ⟨-, ht | ⟨-, ht⟩⟩⟩
    · exact hlookup _ t ht
    · exact hlookup _ t ht
    · exact hlookup _ t ht
    · exact hdefault t ht

end Locale

/-! ## 5. Paths -/

namespace Text

/-- The pieces between separators are the pieces between the characters of a class of one. -/
theorem splitOn_eq_splitAt (sep : Char) (cs : List Char) :
    splitOn sep cs = Naming.splitAt (· == sep) cs := by
  induction cs with
  | nil => rfl
  | cons c r ih =>
    rw [splitOn, Naming.splitAt, ih]
    cases Naming.splitAt (· == sep) r <;> simp

end Text

theorem Path.unbroken_normalise {path : String} (h : Unbroken path) :
    Unbroken (normalise path) := by
  have hnames : ∀ n ∈ names path, Unbroken n := by
    intro n hn
    obtain ⟨w, hw, rfl⟩ := List.mem_map.1 hn
    exact Naming.unbroken_ofList.2 fun c hc =>
      Naming.forall_ne_of_unbroken h c
        (Naming.mem_of_mem_splitAt (Text.splitOn_eq_splitAt '/' path.toList ▸ hw) hc)
  have hreduced : ∀ n ∈ (reduce (isAbsolute path) (names path)).reverse, Unbroken n := by
    intro n hn
    rcases mem_reduce_cases (List.mem_reverse.1 hn) with ⟨hn, -⟩ | rfl
    · exact hnames n hn
    · decide
  have hroot : Unbroken (root path) := by
    unfold root
    split <;> [decide; split <;> [decide; split <;> decide]]
  rw [normalise]
  split
  · decide
  · exact unbroken_append.2 ⟨hroot, unbroken_intercalate (by decide) hreduced⟩

/-! ## 6. Names of modules -/

namespace ImportPaths

/-- The locations of a table are on one line. -/
structure IsUnbroken (p : ImportPaths) : Prop where
  ext : Unbroken p.ext
  schemaEnums : Unbroken p.schemaEnums
  pluginEnums : Unbroken p.pluginEnums
  indexEnums : Unbroken p.indexEnums
  indexPluginEnums : Unbroken p.indexPluginEnums
  base : Unbroken p.base

theorem unbroken_orPackage {config : Config} (hname : Unbroken config.packageName)
    {location : Option String} (h : ∀ t ∈ location, Unbroken t) (directory : String)
    (hdirectory : Unbroken directory) : ∀ t ∈ orPackage config location directory, Unbroken t := by
  intro t ht
  unfold orPackage at ht
  split at ht
  · rename_i u hu
    exact Option.some.inj ht ▸ h u (Option.filter_eq_some_iff.1 hu).1
  · obtain rfl := Option.some.inj ht
    simp +decide [hname, hdirectory]
  · exact nomatch ht

theorem unbroken_getD {o : Option String} (h : ∀ t ∈ o, Unbroken t) {t : String} (ht : Unbroken t) :
    Unbroken (o.getD t) := by
  cases o with
  | none => exact ht
  | some u => exact h u rfl

/-- **The table of a run is on one line** if its settings are. -/
theorem isUnbroken_ofConfig {config : Config} (h : config.IsUnbroken) :
    (ofConfig config).IsUnbroken := by
  have henums := unbroken_orPackage h.packageName h.enumImportPrefix "enum" (by decide)
  have hplugins := unbroken_orPackage h.packageName h.pluginEnumImportPrefix "enum"
    (by decide)
  have hbase := unbroken_orPackage h.packageName h.baseImportPrefix "schemas"
    (by decide)
  have hschema :
      Unbroken (enumsFromBase config (orPackage config config.enumImportPrefix "enum")) := by
    unfold enumsFromBase
    split
    · rename_i p hp
      exact h.schemaEnumImportPrefix p (Option.filter_eq_some_iff.1 hp).1
    · rename_i p _ hp
      have hp : Unbroken p := henums p hp
      split
      · exact hp
      · exact Path.unbroken_normalise (by simp +decide [hp])
    · decide
  have hindex : Unbroken ((orPackage config config.enumImportPrefix "enum").getD "./enum") :=
    unbroken_getD henums (by decide)
  exact
    { ext := by
        simp only [ofConfig, Config.importExtension]
        split <;> decide
      schemaEnums := hschema
      pluginEnums := unbroken_getD hplugins (by simp +decide [hschema])
      indexEnums := hindex
      indexPluginEnums := unbroken_getD hplugins (by simp +decide [hindex])
      base := unbroken_getD hbase (by decide) }

variable {p : ImportPaths}

theorem IsUnbroken.module (h : p.IsUnbroken) {location name : String}
    (hlocation : Unbroken location) (hname : Unbroken name) :
    Unbroken (p.module location name) := by
  simp +decide [ImportPaths.module, hlocation, hname, h.ext]

theorem IsUnbroken.commonFromBase (h : p.IsUnbroken) : Unbroken p.commonFromBase := by
  unfold ImportPaths.commonFromBase
  split <;> simp +decide [h.ext]

theorem IsUnbroken.commonFromRoot (h : p.IsUnbroken) : Unbroken p.commonFromRoot := by
  unfold ImportPaths.commonFromRoot
  split <;> simp +decide [h.ext, h.base]

theorem IsUnbroken.i18nFromRoot (h : p.IsUnbroken) : Unbroken p.i18nFromRoot := by
  unfold ImportPaths.i18nFromRoot
  split <;> simp +decide [h.ext, h.base]

theorem IsUnbroken.commonFromRules (h : p.IsUnbroken) : Unbroken p.commonFromRules := by
  unfold ImportPaths.commonFromRules
  split <;> simp +decide [h.ext, h.base]

theorem IsUnbroken.enumFromBase (h : p.IsUnbroken) {name : String} (hname : Unbroken name)
    (plugin : Bool) : Unbroken (p.enumFromBase name plugin) := by
  cases plugin with
  | false => exact h.module h.schemaEnums hname
  | true => exact h.module h.pluginEnums hname

end ImportPaths

end SchemaTypes
