/-
# Settings one at a time

The settings of a run are read from the entries of one map, each under its own spellings and apart
from the others (`config_eq_assemble`).  So settings that were accepted hold what was read for each
of them (`read_of_config_accepted`), and nothing else of the map counts (`config_congr`).
-/
import SchemaTypes.Reading.Config

namespace SchemaTypes.Reading

/-! ## 1. Names, readers, defaults -/

/-- A setting of a run. -/
inductive Setting where
  | readonly
  | strictNullChecks
  | localeConfig
  | locale
  | multiLocale
  | customTypes
  | pluginEnums
  | generateZodSchemas
  | generateRules
  | validationTemplates
  | enumImportPrefix
  | schemaEnumImportPrefix
  | pluginEnumImportPrefix
  | baseImportPrefix
  | useJsExtension
  | layout
  | packageName
  | modelsPath
deriving DecidableEq, Repr

namespace Setting

/-- All settings. -/
def all : List Setting :=
  [readonly, strictNullChecks, localeConfig, locale, multiLocale, customTypes, pluginEnums,
    generateZodSchemas, generateRules, validationTemplates, enumImportPrefix,
    schemaEnumImportPrefix, pluginEnumImportPrefix, baseImportPrefix, useJsExtension, layout,
    packageName, modelsPath]

/-- The spellings of a setting. -/
def fieldName : Setting → FieldName
  | readonly => word "readonly"
  | strictNullChecks => ⟨"strictNullChecks", "strict_null_checks"⟩
  | localeConfig => ⟨"localeConfig", "locale_config"⟩
  | locale => word "locale"
  | multiLocale => ⟨"multiLocale", "multi_locale"⟩
  | customTypes => ⟨"customTypes", "custom_types"⟩
  | pluginEnums => ⟨"pluginEnums", "plugin_enums"⟩
  | generateZodSchemas => ⟨"generateZodSchemas", "generate_zod_schemas"⟩
  | generateRules => ⟨"generateRules", "generate_rules"⟩
  | validationTemplates => ⟨"validationTemplates", "validation_templates"⟩
  | enumImportPrefix => ⟨"enumImportPrefix", "enum_import_prefix"⟩
  | schemaEnumImportPrefix => ⟨"schemaEnumImportPrefix", "schema_enum_import_prefix"⟩
  | pluginEnumImportPrefix => ⟨"pluginEnumImportPrefix", "plugin_enum_import_prefix"⟩
  | baseImportPrefix => ⟨"baseImportPrefix", "base_import_prefix"⟩
  | useJsExtension => ⟨"useJsExtension", "use_js_extension"⟩
  | layout => word "layout"
  | packageName => ⟨"packageName", "package_name"⟩
  | modelsPath => ⟨"modelsPath", "models_path"⟩

/-- The name of a setting. -/
def key (s : Setting) : String := s.fieldName.second

/-- The values of a setting. -/
abbrev Kind : Setting → Type
  | readonly | strictNullChecks | multiLocale | generateZodSchemas | generateRules
  | useJsExtension => Bool
  | localeConfig => LocaleConfig
  | locale | enumImportPrefix | schemaEnumImportPrefix | pluginEnumImportPrefix
  | baseImportPrefix => Option String
  | customTypes => List (String × CustomType)
  | pluginEnums => List (String × PluginEnum)
  | validationTemplates => MessageTable
  | layout => OutputLayout
  | packageName | modelsPath => String

/-- How the value of a setting is read. -/
def reader : (s : Setting) → Reader s.Kind
  | readonly => switch
  | strictNullChecks => switch
  | localeConfig => Reading.localeConfig
  | locale => optional text
  | multiLocale => switch
  | customTypes => byName customType
  | pluginEnums => byName pluginEnum
  | generateZodSchemas => switch
  | generateRules => switch
  | validationTemplates => messageTable
  | enumImportPrefix => optional text
  | schemaEnumImportPrefix => optional text
  | pluginEnumImportPrefix => optional text
  | baseImportPrefix => optional text
  | useJsExtension => switch
  | layout => outputLayout
  | packageName => nonEmptyText
  | modelsPath => nonEmptyText

/-- The value of a setting in the settings of a run. -/
def get : (s : Setting) → Config → s.Kind
  | readonly, c => c.isReadonly
  | strictNullChecks, c => c.strictNullChecks
  | localeConfig, c => c.localeConfig
  | locale, c => c.locale
  | multiLocale, c => c.multiLocale
  | customTypes, c => c.customTypes
  | pluginEnums, c => c.pluginEnums
  | generateZodSchemas, c => c.generateZodSchemas
  | generateRules, c => c.generateRules
  | validationTemplates, c => c.validationTemplates
  | enumImportPrefix, c => c.enumImportPrefix
  | schemaEnumImportPrefix, c => c.schemaEnumImportPrefix
  | pluginEnumImportPrefix, c => c.pluginEnumImportPrefix
  | baseImportPrefix, c => c.baseImportPrefix
  | useJsExtension, c => c.useJsExtension
  | layout, c => c.layout
  | packageName, c => c.packageName
  | modelsPath, c => c.modelsPath

/-- The value of a setting that is not given. -/
def absent (s : Setting) : s.Kind := s.get {}

/-- A setting read from the entries of a map. -/
def read (s : Setting) (es : Entries) : Outcome s.Kind := fieldOr s.fieldName s.absent s.reader es

theorem mem_all (s : Setting) : s ∈ all := by cases s <;> decide

/-- The setting that has a spelling. -/
def ofSpelling? (name : String) : Option Setting :=
  all.find? fun s => s.fieldName.first == name || s.fieldName.second == name

theorem ofSpelling?_first (s : Setting) : ofSpelling? s.fieldName.first = some s := by
  cases s <;> decide +kernel

theorem ofSpelling?_second (s : Setting) : ofSpelling? s.fieldName.second = some s := by
  cases s <;> decide +kernel

/-- No two settings share a spelling. -/
theorem eq_of_shared {s t : Setting} {name : String}
    (hs : name = s.fieldName.first ∨ name = s.fieldName.second)
    (ht : name = t.fieldName.first ∨ name = t.fieldName.second) : s = t := by
  have hof : ∀ r : Setting, name = r.fieldName.first ∨ name = r.fieldName.second →
      ofSpelling? name = some r := by
    rintro r (rfl | rfl)
    · exact ofSpelling?_first r
    · exact ofSpelling?_second r
  exact Option.some.inj ((hof s hs).symm.trans (hof t ht))

theorem key_inj {s t : Setting} (h : s.key = t.key) : s = t := eq_of_shared (.inr rfl) (.inr h)

end Setting

/-! ## 2. All settings -/

/-- The settings of a run from the outcomes of each of them. -/
def assemble (o : (s : Setting) → Outcome s.Kind) : Outcome Config :=
  Config.mk
    <$> o .readonly
    <*> o .strictNullChecks
    <*> o .localeConfig
    <*> o .locale
    <*> o .multiLocale
    <*> o .customTypes
    <*> o .pluginEnums
    <*> o .generateZodSchemas
    <*> o .generateRules
    <*> o .validationTemplates
    <*> o .enumImportPrefix
    <*> o .schemaEnumImportPrefix
    <*> o .pluginEnumImportPrefix
    <*> o .baseImportPrefix
    <*> o .useJsExtension
    <*> o .layout
    <*> o .packageName
    <*> o .modelsPath

/-- Each setting is read on its own. -/
theorem config_eq_assemble (es : Entries) : config (.map es) = assemble fun s => s.read es := by
  simp only [config, record, fieldOpt]
  rfl

/-- The settings depend on the entries only through what each of them reads there. -/
theorem config_congr {es es' : Entries} (h : ∀ s : Setting, s.read es = s.read es') :
    config (.map es) = config (.map es') := by
  rw [config_eq_assemble, config_eq_assemble, funext h]

/-- A changed reading was accepted before the change. -/
theorem Outcome.map_eq_accepted {f : α → β} {x : Outcome α} {b : β}
    (h : f <$> x = Outcome.accepted b) : ∃ a, x = Outcome.accepted a ∧ b = f a := by
  cases x <;> simp_all [Functor.map, Outcome.map]

/-- Settings that were accepted hold what was read for each of them. -/
theorem assemble_accepted {o : (s : Setting) → Outcome s.Kind} {c : Config}
    (h : assemble o = .accepted c) (s : Setting) : o s = .accepted (s.get c) := by
  obtain ⟨_, _, f₁₇, h₁₈, rfl⟩ := Outcome.both_eq_accepted h
  obtain ⟨_, _, f₁₆, h₁₇, rfl⟩ := Outcome.both_eq_accepted f₁₇
  obtain ⟨_, _, f₁₅, h₁₆, rfl⟩ := Outcome.both_eq_accepted f₁₆
  obtain ⟨_, _, f₁₄, h₁₅, rfl⟩ := Outcome.both_eq_accepted f₁₅
  obtain ⟨_, _, f₁₃, h₁₄, rfl⟩ := Outcome.both_eq_accepted f₁₄
  obtain ⟨_, _, f₁₂, h₁₃, rfl⟩ := Outcome.both_eq_accepted f₁₃
  obtain ⟨_, _, f₁₁, h₁₂, rfl⟩ := Outcome.both_eq_accepted f₁₂
  obtain ⟨_, _, f₁₀, h₁₁, rfl⟩ := Outcome.both_eq_accepted f₁₁
  obtain ⟨_, _, f₉, h₁₀, rfl⟩ := Outcome.both_eq_accepted f₁₀
  obtain ⟨_, _, f₈, h₉, rfl⟩ := Outcome.both_eq_accepted f₉
  obtain ⟨_, _, f₇, h₈, rfl⟩ := Outcome.both_eq_accepted f₈
  obtain ⟨_, _, f₆, h₇, rfl⟩ := Outcome.both_eq_accepted f₇
  obtain ⟨_, _, f₅, h₆, rfl⟩ := Outcome.both_eq_accepted f₆
  obtain ⟨_, _, f₄, h₅, rfl⟩ := Outcome.both_eq_accepted f₅
  obtain ⟨_, _, f₃, h₄, rfl⟩ := Outcome.both_eq_accepted f₄
  obtain ⟨_, _, f₂, h₃, rfl⟩ := Outcome.both_eq_accepted f₃
  obtain ⟨_, _, f₁, h₂, rfl⟩ := Outcome.both_eq_accepted f₂
  obtain ⟨_, h₁, rfl⟩ := Outcome.map_eq_accepted f₁
  cases s <;> assumption

theorem read_of_config_accepted {es : Entries} {c : Config} (h : config (.map es) = .accepted c)
    (s : Setting) : s.read es = .accepted (s.get c) :=
  assemble_accepted ((config_eq_assemble es).symm.trans h) s

end SchemaTypes.Reading
