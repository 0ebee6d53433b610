/-
# Labels in every locale

What the labels of an entity hold, whatever its properties are (`exhaustive_ofSchema`): every field
with a validator has a label, every map of texts has one text for each configured locale, and a
placeholder stands only beside a label, so that the table of labels shows it.

The labels grow property by property.  `Complete` is what each addition keeps, and `Covers` says
that no addition takes a label away; a validated field has its label from the addition of its own
property (`covers_addProperty`) and keeps it from there on.
-/
import Mathlib
import SchemaTypes.Output.BaseModule
import SchemaTypes.Proofs.Check.Names
import SchemaTypes.Proofs.Data.Dictionary

namespace SchemaTypes

open Dictionary (keys)

/-! ## 1. Texts of every locale -/

/-- With a text of last resort a map by locale has a text for every locale. -/
theorem Locale.isSome_textFor (texts : List (String × String)) (fallback text locale : String) :
    (textFor texts fallback (some text) locale).isSome = true := by
  unfold textFor
  cases texts.lookup locale <;> cases texts.lookup fallback <;> cases texts.lookup english <;> rfl

/-- With a text of last resort every label has a text for every locale. -/
theorem Locale.keys_perLocale (label : Option Label) (locales : List String)
    (fallback text : String) :
    keys (perLocale label locales fallback (some text)) = locales.eraseDups := by
  unfold perLocale
  split
  · exact Dictionary.keys_tabulate fun _ _ => rfl
  · refine Dictionary.keys_tabulate fun _ _ => ?_
    split <;> rfl
  · exact Dictionary.keys_tabulate fun n _ => isSome_textFor _ fallback text n

namespace DisplayNames

variable {config : Config} {d : DisplayNames}

/-! ## 2. What every addition keeps -/

/-- The texts are in the configured locales and in no others, each once. -/
def InAllLocales (config : Config) (texts : LocaleTexts) : Prop :=
  keys texts = config.localeConfig.locales.eraseDups

/-- All texts are in the configured locales, and a placeholder stands beside a label. -/
structure Complete (config : Config) (d : DisplayNames) : Prop where
  label : InAllLocales config d.label
  fields : ∀ e ∈ d.fields, InAllLocales config e.2
  placeholders : ∀ e ∈ d.placeholders, InAllLocales config e.2
  labelled : ∀ name ∈ keys d.placeholders, name ∈ keys d.fields
  distinct : (keys d.placeholders).Nodup

/-- The fields of the one have labels in the other. -/
def Covers (d d' : DisplayNames) : Prop := ∀ name ∈ keys d.fields, name ∈ keys d'.fields

theorem Covers.trans {d d' d'' : DisplayNames} (h : Covers d d') (h' : Covers d' d'') :
    Covers d d'' := fun name hname => h' name (h name hname)

theorem inAllLocales_inLocales (label : Option Label) (text : String) :
    InAllLocales config (inLocales config label (some text)) :=
  Locale.keys_perLocale label _ _ text

theorem inAllLocales_entryTexts (name : String) (p : Property) (e : CompoundEntry) :
    InAllLocales config (entryTexts config name p e) := by
  unfold entryTexts
  dsimp only
  split
  · exact inAllLocales_inLocales _ _
  · exact (Dictionary.keys_map _ _).trans (inAllLocales_inLocales _ _)

theorem Complete.putField (h : Complete config d) {name : String} {texts : LocaleTexts}
    (htexts : InAllLocales config texts) : Complete config (d.putField name texts) where
  label := h.label
  fields e he := by
    rcases Dictionary.mem_put he with rfl | he
    · exact htexts
    · exact h.fields e he
  placeholders := h.placeholders
  labelled n hn := Dictionary.mem_keys_put.2 (.inr (h.labelled n hn))
  distinct := h.distinct

theorem Complete.putPlaceholder (h : Complete config d) {name : String}
    (hname : name ∈ keys d.fields) (label : Option Label) :
    Complete config (d.putPlaceholder config name label) := by
  unfold DisplayNames.putPlaceholder
  split
  · exact {
      label := h.label
      fields := h.fields
      placeholders := by
        intro e he
        rcases Dictionary.mem_put he with rfl | he
        · exact inAllLocales_inLocales _ _
        · exact h.placeholders e he
      labelled := by
        intro n hn
        rcases Dictionary.mem_keys_put.1 hn with rfl | hn
        · exact hname
        · exact h.labelled n hn
      distinct := Dictionary.nodup_keys_put h.distinct }
  · exact h

theorem mem_keys_putField {name n : String} {texts : LocaleTexts} :
    n ∈ keys (d.putField name texts).fields ↔ n = name ∨ n ∈ keys d.fields :=
  Dictionary.mem_keys_put

/-- Placeholders leave the labels alone. -/
theorem fields_putPlaceholder (name : String) (label : Option Label) :
    (d.putPlaceholder config name label).fields = d.fields := by
  unfold DisplayNames.putPlaceholder
  split <;> rfl

/-! ## 3. Single additions -/

theorem mem_keys_addEntry {name n : String} {p : Property} {e : CompoundEntry} :
    n ∈ keys (addEntry config name p d e).fields
      ↔ n = Zod.partName name e.suffix ∨ n ∈ keys d.fields := by
  unfold addEntry
  rw [fields_putPlaceholder]
  exact mem_keys_putField

theorem mem_keys_addSingle {name n : String} {p : Property} :
    n ∈ keys (addSingle config name p d).fields ↔ n = Naming.snake name ∨ n ∈ keys d.fields := by
  unfold addSingle
  rw [fields_putPlaceholder]
  exact mem_keys_putField

theorem Complete.addEntry (h : Complete config d) (name : String) (p : Property)
    (e : CompoundEntry) : Complete config (addEntry config name p d e) :=
  (h.putField (inAllLocales_entryTexts name p e)).putPlaceholder
    (mem_keys_putField.2 (.inl rfl)) _

theorem Complete.addSingle (h : Complete config d) (name : String) (p : Property) :
    Complete config (addSingle config name p d) :=
  (h.putField (inAllLocales_inLocales _ _)).putPlaceholder (mem_keys_putField.2 (.inl rfl)) _

/-- The entries of a compound type, one after the other. -/
theorem complete_foldl_addEntry (name : String) (p : Property) (es : List CompoundEntry) :
    ∀ {d : DisplayNames}, Complete config d →
      Complete config (es.foldl (DisplayNames.addEntry config name p) d) := by
  induction es with
  | nil => exact fun h => h
  | cons e r ih => exact fun h => ih (h.addEntry name p e)

theorem mem_keys_foldl_addEntry {name n : String} {p : Property} {es : List CompoundEntry} :
    ∀ {d : DisplayNames}, n ∈ keys (es.foldl (addEntry config name p) d).fields
      ↔ (∃ e ∈ es, n = Zod.partName name e.suffix) ∨ n ∈ keys d.fields := by
  induction es with
  | nil => simp
  | cons e r ih =>
    intro d
    rw [List.foldl_cons, ih, mem_keys_addEntry, List.exists_mem_cons_iff, or_left_comm, or_assoc]

theorem Complete.addCompound (h : Complete config d) (name : String) (p : Property)
    (t : CustomType) : Complete config (addCompound config name p t d) := by
  unfold DisplayNames.addCompound
  dsimp only
  split
  · exact complete_foldl_addEntry name p t.expand (h.putField (inAllLocales_inLocales _ _))
  · exact complete_foldl_addEntry name p t.expand h

/-- **One property more** keeps the labels complete. -/
theorem Complete.addProperty (h : Complete config d) (e : String × Property) :
    Complete config (addProperty config d e) := by
  unfold DisplayNames.addProperty
  split
  · split
    · exact h.addSingle e.1 e.2
    · exact h.addCompound e.1 e.2 _
  · exact h.addSingle e.1 e.2

/-- One property more takes no label away. -/
theorem covers_addProperty (e : String × Property) : Covers d (addProperty config d e) := by
  intro n hn
  unfold addProperty
  split
  · split
    · exact mem_keys_addSingle.2 (.inr hn)
    · unfold addCompound
      refine mem_keys_foldl_addEntry.2 (.inr ?_)
      split
      · exact mem_keys_putField.2 (.inr hn)
      · exact hn
  · exact mem_keys_addSingle.2 (.inr hn)

/-- **One property more** brings the labels of its validated fields. -/
theorem mem_keys_addProperty {e : String × Property} {f : Zod.Field}
    (hf : f ∈ Zod.fieldsOfProperty config e.1 e.2) :
    f.name ∈ keys (addProperty config d e).fields := by
  unfold Zod.fieldsOfProperty at hf
  unfold addProperty
  cases hcompound : Zod.compoundOf? config e.2 with
  | some t =>
    simp only [hcompound] at hf ⊢
    obtain ⟨entry, hentry, rfl⟩ := List.mem_map.1 hf
    -- A compound type with a validated field has an entry, and so it is added as one.
    have hexpand : t.expand.isEmpty = false :=
      List.isEmpty_eq_false_iff.2 (List.ne_nil_of_mem hentry)
    simp only [hexpand, Bool.false_eq_true, if_false]
    exact mem_keys_foldl_addEntry.2 (.inl ⟨entry, hentry, rfl⟩)
  | none =>
    simp only [hcompound] at hf ⊢
    obtain ⟨x, -, rfl⟩ := Option.map_eq_some_iff.1 (Option.mem_toList.1 hf)
    exact mem_keys_addSingle.2 (.inl rfl)

/-! ## 4. All properties -/

theorem complete_foldl_addProperty (ps : List (String × Property)) :
    ∀ {d : DisplayNames}, Complete config d →
      Complete config (ps.foldl (addProperty config) d) := by
  induction ps with
  | nil => exact fun h => h
  | cons e r ih => exact fun h => ih (h.addProperty e)

theorem covers_foldl_addProperty (ps : List (String × Property)) :
    ∀ d : DisplayNames, Covers d (ps.foldl (addProperty config) d) := by
  induction ps with
  | nil => exact fun _ _ hn => hn
  | cons e r ih => exact fun d => (covers_addProperty e).trans (ih _)

theorem mem_keys_foldl_addProperty {ps : List (String × Property)} {e : String × Property}
    (he : e ∈ ps) {f : Zod.Field} (hf : f ∈ Zod.fieldsOfProperty config e.1 e.2) :
    ∀ d : DisplayNames, f.name ∈ keys (ps.foldl (addProperty config) d).fields := by
  induction ps with
  | nil => exact nomatch he
  | cons x r ih =>
    intro d
    rw [List.foldl_cons]
    rcases List.mem_cons.1 he with rfl | he
    · exact covers_foldl_addProperty r _ _ (mem_keys_addProperty hf)
    · exact ih he _

/-! ## 5. The table of labels -/

/-- In the table of labels a field with a placeholder has three lines of its own: the label, the
placeholder and the end. -/
theorem labelLinesOf_of_mem (h : Complete config d) (hlocales : config.localeConfig.locales ≠ [])
    {e : String × LocaleTexts} (he : e ∈ d.placeholders) (label : LocaleTexts) :
    Output.labelLinesOf d (e.1, label)
      = ["    " ++ e.1 ++ ": \x7b",
         "      label: " ++ Json.textMap .compact label ++ ",",
         "      placeholder: " ++ Json.textMap .compact e.2 ++ ",",
         "    \x7d,"] := by
  have hne : e.2.isEmpty = false := by
    refine List.isEmpty_eq_false_iff.2 fun hnil => ?_
    have hkeys := h.placeholders e he
    obtain ⟨l, hl⟩ := List.exists_mem_of_ne_nil _ hlocales
    rw [InAllLocales, hnil] at hkeys
    exact List.not_mem_nil (hkeys ▸ List.mem_eraseDups.2 hl)
  simp only [Output.labelLinesOf, Dictionary.lookup_of_mem h.distinct he, Option.getD_some, hne,
    Bool.false_eq_true, if_false]
  rfl

/-- The labels of an entity leave nothing out. -/
structure Exhaustive (config : Config) (s : Schema) (d : DisplayNames) : Prop
    extends Complete config d where
  validated : ∀ f ∈ Zod.fieldsOf config s, f.name ∈ keys d.fields
  shown : config.localeConfig.locales ≠ [] → ∀ e ∈ d.placeholders,
    ∃ label, (e.1, label) ∈ d.fields ∧
      "      placeholder: " ++ Json.textMap .compact e.2 ++ "," ∈ Output.labelLinesOf d (e.1, label)

/-- **The labels of an entity leave nothing out**: each validated field has a label, all texts are
in exactly the configured locales, and each placeholder belongs to a field with a label, in whose
lines the table of labels shows it. -/
theorem exhaustive_ofSchema (config : Config) (s : Schema) :
    Exhaustive config s (ofSchema config s) := by
  have hcomplete : Complete config (ofSchema config s) := by
    refine complete_foldl_addProperty s.properties ?_
    exact {
      label := inAllLocales_inLocales _ _
      fields := fun e he => nomatch he
      placeholders := fun e he => nomatch he
      labelled := fun n hn => nomatch hn
      distinct := List.nodup_nil }
  refine ⟨hcomplete, fun f hf => ?_, fun hlocales e he => ?_⟩
  · obtain ⟨e, he, hf⟩ := List.mem_flatMap.1 hf
    exact mem_keys_foldl_addProperty he hf _
  · obtain ⟨x, hx, hname⟩ := List.mem_map.1 (hcomplete.labelled e.1 (List.mem_map_of_mem he))
    refine ⟨x.2, hname ▸ hx, ?_⟩
    rw [labelLinesOf_of_mem hcomplete hlocales he]
    exact List.mem_cons_of_mem _ (List.mem_cons_of_mem _ List.mem_cons_self)

end DisplayNames

end SchemaTypes
