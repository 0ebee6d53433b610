/-
# Either spelling of a field

Each record of a snapshot reads its fields under two spellings.  Here are the fields of each record
with what may be rewritten inside them, and what follows for its reader: it overlooks the spelling
of its own fields and of all fields further in.

The shorthand that is put into full form first does not get in the way.  What it adds stands under
the second spelling of a field, or under its only one, and is used only if the field is not given
under either (`Agree.lifted`, `Agree.withDefault`).
-/
import SchemaTypes.Proofs.Reading.Respelled
import SchemaTypes.Proofs.Reading.Settings

namespace SchemaTypes.Reading

/-! ## 1. Rule sets and values of enumerations -/

/-- The fields of a rule set. -/
def ruleSetFields : Fields where
  list :=
    [(word "url", Eq), (word "uuid", Eq), (word "ip", Eq), (word "ipv4", Eq), (word "ipv6", Eq),
      (⟨"minLength", "min_length"⟩, Eq), (⟨"maxLength", "max_length"⟩, Eq), (word "alpha", Eq),
      (⟨"alphaNum", "alpha_num"⟩, Eq), (⟨"alphaDash", "alpha_dash"⟩, Eq), (word "numeric", Eq),
      (word "digits", Eq), (⟨"digitsBetween", "digits_between"⟩, Eq),
      (⟨"startsWith", "starts_with"⟩, Eq), (⟨"endsWith", "ends_with"⟩, Eq),
      (word "lowercase", Eq), (word "uppercase", Eq), (word "min", Eq), (word "max", Eq),
      (word "between", Eq), (word "gt", Eq), (word "lt", Eq),
      (⟨"multipleOf", "multiple_of"⟩, Eq), (word "pattern", Eq), (word "format", Eq)]
  apart := by decide +kernel

theorem ruleSet_overlooks : Overlooks (Agreeing ruleSetFields) ruleSet := by
  refine .record fun es es' h => ?_
  simp only [Agree, ruleSetFields, List.forall_mem_cons, option_rel_eq] at h
  simp only [fieldOpt, Outcome.unplaced_seq, Outcome.unplaced_fmap, unplaced_fieldOr, h]

theorem rules_overlooks : Overlooks (Respelled ruleSetFields) (optional ruleSet) :=
  ruleSet_overlooks.optional.respelled

/-- The fields of a value of an enumeration. -/
def enumValueFields : Fields where
  list := [(word "value", Eq), (word "label", Eq), (word "extra", Eq)]
  apart := by decide +kernel

/-- A record whose fields have one spelling each is not changed. -/
theorem Respelled.eq_of_words {fs : Fields}
    (hwords : ∀ f ∈ fs.list, f.1.first = f.1.second ∧ f.2 = Eq) {v v' : Value}
    (h : Respelled fs v v') : v = v' := by
  cases h with
  | same => rfl
  | map once h =>
    congr 1
    induction h with
    | nil => rfl
    | cons he _ ih =>
      rw [ih fun f hf => (once f hf).tail]
      congr 1
      cases he with
      | other => rfl
      | @field f R k k' v v' hf hk hk' hv =>
        obtain ⟨hone, rfl⟩ := hwords _ hf
        have hkey : ∀ k : Key, f.Spells k → k = .text f.second := fun k hk =>
          hk.elim (fun h => h.trans (congrArg _ hone)) id
        rw [hkey k hk, hkey k' hk', hv]

/-- A list of unchanged items is not changed. -/
theorem Each.eq {v v' : Value} (h : Each Eq v v') : v = v' := by
  cases h with
  | same => rfl
  | list hitems =>
    congr 1
    induction hitems with
    | nil => rfl
    | cons hv _ ih => rw [ih, hv]
  | pair ha hb => rw [ha, hb]
  | map hes =>
    congr 1
    induction hes with
    | nil => rfl
    | cons he _ ih => rw [ih, Prod.ext he.1 he.2]

/-- The fields of values of an enumeration have one spelling each, so lists of such values do not
change. -/
theorem option_rel_enumValues {x y : Option Value} :
    Option.Rel (Each (Respelled enumValueFields)) x y ↔ x = y := by
  constructor
  · rintro (h | _)
    · exact congrArg some
        (h.mono fun _ _ => Respelled.eq_of_words (by simp [enumValueFields, word])).eq
    · rfl
  · rintro rfl
    cases x with
    | none => exact .none
    | some v => exact .some (.same v)

/-! ## 2. Plugin types -/

section

variable {fs : Fields} {es es' : Entries}

theorem Agree.liftEntry (h : Agree fs es es') {name : String} (hname : fs.Takes name)
    (nested : Entries) : Agree fs (liftEntry name nested es) (liftEntry name nested es') := by
  unfold Reading.liftEntry
  cases Value.entry? name nested with
  | none => exact h
  | some v => exact h.withDefault hname v

theorem Agree.entry?_eq (h : Agree fs es es') {name : String} (hname : (word name, Eq) ∈ fs.list) :
    Value.entry? name es = Value.entry? name es' := by
  simpa using h.value?_eq hname

/-- **Putting a plugin entry into flat form keeps records in agreement**: what is lifted is taken
only by a field that holds nothing. -/
theorem Agree.lifted (h : Agree fs es es') (hsql : (word "sql", Eq) ∈ fs.list)
    (htypescript : (word "typescript", Eq) ∈ fs.list) (hnullable : fs.Takes "nullable")
    (hlength : fs.Takes "length") (htype : fs.Takes "type_hint") :
    Agree fs (lifted es) (lifted es') := by
  -- The nested parts have one spelling each, so the same is lifted on both sides.
  have hfirst : Agree fs (liftSql es) (liftSql es') := by
    unfold liftSql
    rw [← h.entry?_eq hsql]
    split
    · exact ((h.without hsql).liftEntry hnullable _).liftEntry hlength _
    · exact h.without hsql
  unfold Reading.lifted liftTypescript
  rw [← hfirst.entry?_eq htypescript]
  split
  · split
    · exact (hfirst.without htypescript).withDefault htype _
    · exact hfirst.without htypescript
  · exact hfirst.without htypescript

end

/-- The fields of one field of a compound type, with the nested parts. -/
def compoundEntryFields : Fields where
  list :=
    [(word "suffix", Eq), (word "nullable", Eq), (⟨"typeHint", "type_hint"⟩, Eq),
      (word "length", Eq), (word "rules", Respelled ruleSetFields), (word "label", Eq),
      (word "placeholder", Eq), (word "sql", Eq), (word "typescript", Eq)]
  apart := by decide +kernel

theorem compoundEntry_overlooks : Overlooks (Agreeing compoundEntryFields) compoundEntry := by
  refine .record fun es es' h => ?_
  replace h := h.lifted (by simp [compoundEntryFields]) (by simp [compoundEntryFields])
    (Fields.takes_second (f := word "nullable") (by simp [compoundEntryFields]))
    (Fields.takes_second (f := word "length") (by simp [compoundEntryFields]))
    (Fields.takes_second (f := ⟨"typeHint", "type_hint"⟩) (by simp [compoundEntryFields]))
  simp only [Agree, compoundEntryFields, List.forall_mem_cons, option_rel_eq] at h
  have hrules := rules_overlooks.option_map_eq h.2.2.2.2.1
  simp only [fieldOpt, Outcome.unplaced_seq, Outcome.unplaced_fmap, unplaced_fieldOr,
    unplaced_field, h, hrules]

/-- The fields of a plugin type, with the nested parts. -/
def customTypeFields : Fields where
  list :=
    [(word "name", Eq), (word "compound", Eq),
      (word "expand", Each (Respelled compoundEntryFields)), (word "accessors", Eq),
      (⟨"typeHint", "type_hint"⟩, Eq), (word "length", Eq), (word "sql", Eq),
      (word "typescript", Eq)]
  apart := by decide +kernel

theorem customType_overlooks : Overlooks (Agreeing customTypeFields) customType := by
  refine .record fun es es' h => ?_
  have hnullable : customTypeFields.Takes "nullable" := by
    intro f hf hs
    have hnone : ∀ f ∈ customTypeFields.list, ¬ f.1.Spells (.text "nullable") := by decide +kernel
    exact absurd hs (hnone f hf)
  replace h := h.lifted (by simp [customTypeFields]) (by simp [customTypeFields]) hnullable
    (Fields.takes_second (f := word "length") (by simp [customTypeFields]))
    (Fields.takes_second (f := ⟨"typeHint", "type_hint"⟩) (by simp [customTypeFields]))
  simp only [Agree, customTypeFields, List.forall_mem_cons, option_rel_eq] at h
  have hexpand := compoundEntry_overlooks.respelled.list.option_map_eq h.2.2.1
  simp only [fieldOpt, Outcome.unplaced_seq, Outcome.unplaced_fmap, unplaced_fieldOr, h, hexpand]

/-- The fields of the override of one entry of a compound type. -/
def entryOverrideFields : Fields where
  list :=
    [(word "nullable", Eq), (word "length", Eq), (⟨"displayName", "display_name"⟩, Eq),
      (word "placeholder", Eq), (word "rules", Respelled ruleSetFields)]
  apart := by decide +kernel

theorem entryOverride_overlooks : Overlooks (Agreeing entryOverrideFields) entryOverride := by
  refine .record fun es es' h => ?_
  simp only [Agree, entryOverrideFields, List.forall_mem_cons, option_rel_eq] at h
  have hrules := rules_overlooks.option_map_eq h.2.2.2.2.1
  simp only [fieldOpt, Outcome.unplaced_seq, Outcome.unplaced_fmap, unplaced_fieldOr, h, hrules]

/-- The fields of an enumeration of a plugin. -/
def pluginEnumFields : Fields where
  list :=
    [(word "name", Eq), (⟨"displayName", "display_name"⟩, Eq),
      (word "values", Each (Respelled enumValueFields))]
  apart := by decide +kernel

theorem pluginEnum_overlooks : Overlooks (Agreeing pluginEnumFields) pluginEnum := by
  refine .record fun es es' h => ?_
  simp only [Agree, pluginEnumFields, List.forall_mem_cons, option_rel_eq,
    option_rel_enumValues] at h
  simp only [fieldOpt, Outcome.unplaced_seq, Outcome.unplaced_fmap, unplaced_fieldOr,
    unplaced_field, h]

/-! ## 3. Properties and schemas -/

/-- The fields of properties of all kinds. -/
def propertyFields : Fields where
  list :=
    [(word "type", Eq), (⟨"displayName", "display_name"⟩, Eq), (word "placeholder", Eq),
      (word "nullable", Eq), (word "length", Eq), (⟨"minLength", "min_length"⟩, Eq),
      (⟨"maxLength", "max_length"⟩, Eq), (word "min", Eq), (word "max", Eq), (word "pattern", Eq),
      (word "rules", Respelled ruleSetFields),
      (⟨"fields", "field_overrides"⟩, Each (Respelled entryOverrideFields)),
      (word "relation", Eq), (word "target", Eq), (word "targets", Eq),
      (word "enum", Each (Respelled enumValueFields)),
      (word "options", Each (Respelled enumValueFields)), (word "multiple", Eq)]
  apart := by decide +kernel

theorem property_overlooks : Overlooks (Agreeing propertyFields) property := by
  intro v v' hv
  cases hv with
  | same => rfl
  | @map es es' h =>
    simp only [Agree, propertyFields, List.forall_mem_cons, option_rel_eq,
      option_rel_enumValues] at h
    obtain ⟨htype, hdisplay, hplaceholder, hnullable, hlength, hmin, hmax, hleast, hmost, hpattern,
      hrules, hfields, hrelation, htarget, htargets, henum, hoptions, hmultiple, -⟩ := h
    replace hrules := rules_overlooks.option_map_eq hrules
    replace hfields := entryOverride_overlooks.respelled.map.option_map_eq hfields
    -- The kind is told from the tag and the enumeration, which have one spelling.
    have hkind : kindOf es = kindOf es' := by
      rw [FieldName.value?_word, FieldName.value?_word] at htype henum
      rw [kindOf, htype, henum]
      rfl
    have hdata : ∀ tag, (kindData es tag).unplaced = (kindData es' tag).unplaced := by
      intro tag
      cases tag <;>
        simp only [kindData, fieldOpt, Outcome.unplaced_seq, Outcome.unplaced_fmap,
          unplaced_fieldOr, unplaced_field, hrelation, htarget, htargets, henum, hoptions,
          hmultiple]
    rw [property, property, hkind]
    refine Outcome.unplaced_andThen_congr fun tag => ?_
    rw [Outcome.unplaced_under, Outcome.unplaced_under]
    simp only [propertyOf, fieldOpt, Outcome.unplaced_seq, Outcome.unplaced_fmap, unplaced_fieldOr,
      unplaced_field, htype, hdisplay, hplaceholder, hnullable, hlength, hmin, hmax, hleast, hmost,
      hpattern, hrules, hfields, hdata]

/-- The fields of the switches of a schema. -/
def schemaOptionsFields : Fields where
  list :=
    [(word "id", Eq), (⟨"idType", "id_type"⟩, Eq), (word "timestamps", Eq),
      (⟨"softDelete", "soft_delete"⟩, Eq), (word "hidden", Eq)]
  apart := by decide +kernel

theorem schemaOptions_overlooks : Overlooks (Agreeing schemaOptionsFields) schemaOptions := by
  refine .record fun es es' h => ?_
  simp only [Agree, schemaOptionsFields, List.forall_mem_cons, option_rel_eq] at h
  simp only [Outcome.unplaced_seq, Outcome.unplaced_fmap, unplaced_fieldOr, h]

/-- The fields of a schema. -/
def schemaFields : Fields where
  list :=
    [(word "name", Eq), (word "kind", Eq), (⟨"displayName", "display_name"⟩, Eq),
      (word "properties", Each (Respelled propertyFields)),
      (word "values", Each (Respelled enumValueFields)),
      (word "options", Respelled schemaOptionsFields), (⟨"sourcePath", "source_path"⟩, Eq)]
  apart := by decide +kernel

theorem schema_overlooks : Overlooks (Agreeing schemaFields) schema := by
  refine .record fun es es' h => ?_
  simp only [Agree, schemaFields, List.forall_mem_cons, option_rel_eq, option_rel_enumValues] at h
  have hproperties := property_overlooks.respelled.map.option_map_eq h.2.2.2.1
  have hoptions := schemaOptions_overlooks.respelled.option_map_eq h.2.2.2.2.2.1
  simp only [fieldOpt, Outcome.unplaced_seq, Outcome.unplaced_fmap, unplaced_fieldOr,
    unplaced_field, h, hproperties, hoptions]

/-! ## 4. Records by name -/

section

variable {fs : Fields} {α : Type} {r : Reader α}

/-- Entries with the same keys and agreeing records. -/
abbrev Keyed (fs : Fields) (x y : Entries) : Prop :=
  List.Forall₂ (fun e e' => e.1 = e'.1 ∧ Agreeing fs e.2 e'.2) x y

theorem Keyed.putEntry {x y : Entries} (h : Keyed fs x y) (k : Key) {v w : Value}
    (hv : Agreeing fs v w) : Keyed fs (putEntry k v x) (putEntry k w y) := by
  induction h with
  | nil => exact .cons ⟨rfl, hv⟩ .nil
  | @cons e e' rest rest' he hrest ih =>
    obtain ⟨k₁, v₁⟩ := e
    obtain ⟨k₂, v₂⟩ := e'
    obtain ⟨rfl, hv₁⟩ := he
    unfold SchemaTypes.putEntry
    split
    · exact .cons ⟨rfl, hv⟩ hrest
    · exact .cons ⟨rfl, hv₁⟩ ih

/-- Two outcomes accept related values or fail alike. -/
inductive Outcome.Related (R : α → α → Prop) : Outcome α → Outcome α → Prop where
  | accepted {a b : α} (h : R a b) : Related R (.accepted a) (.accepted b)
  | rejected (xs : List Issue) : Related R (.rejected xs) (.rejected xs)
  | broken (b : Breakage) : Related R (.broken b) (.broken b)

theorem keyedList_related (hname : (word "name", Eq) ∈ fs.list) {items items' : List Value}
    (h : List.Forall₂ (Agreeing fs) items items') {x y : Entries} (hxy : Keyed fs x y) :
    Outcome.Related (Keyed fs) (keyedList x items) (keyedList y items') := by
  induction h generalizing x y with
  | nil => exact .accepted hxy
  | @cons v v' rest rest' hv _ ih =>
    have hrecord : ∀ es es', Value.entry? "name" es = Value.entry? "name" es' →
        Agreeing fs (.map es) (.map es') →
        Outcome.Related (Keyed fs) (keyedList x (.map es :: rest))
          (keyedList y (.map es' :: rest')) := by
      intro es es' heq hes
      unfold keyedList
      rw [← heq]
      split
      · exact .rejected _
      · split
        · exact .broken _
        · exact ih (hxy.putEntry _ hes)
    cases hv with
    | map hes => exact hrecord _ _ (hes.entry?_eq hname) (.map hes)
    | same v =>
      cases v with
      | map es => exact hrecord es es rfl (.same _)
      | _ => exact ih hxy

theorem named_map (k : Key) (es : Entries) :
    named (k, .map es) = (k, .map (withDefault "name" k.value es)) := by
  rw [named, withDefault]
  split_ifs <;> rfl

theorem keyed_named (hname : (word "name", Eq) ∈ fs.list) {x y : Entries} (h : Keyed fs x y) :
    Keyed fs (x.map named) (y.map named) := by
  refine List.forall₂_map_left_iff.2 (List.forall₂_map_right_iff.2 (h.imp ?_))
  rintro ⟨k, v⟩ ⟨_, v'⟩ ⟨rfl, hv⟩
  cases hv with
  | map hes =>
    rw [named_map, named_map]
    exact ⟨rfl, .map (hes.withDefault (Fields.takes_second hname) _)⟩
  | same v => exact ⟨rfl, .same _⟩

theorem keyedByName_related (hname : (word "name", Eq) ∈ fs.list) {v v' : Value}
    (h : Each (Agreeing fs) v v') :
    Outcome.Related (Each (Agreeing fs)) (keyedByName v) (keyedByName v') := by
  cases h with
  | @list items items' hitems =>
    have hlist := keyedList_related hname hitems .nil
    show Outcome.Related _ ((keyedList [] items).map Value.map)
      ((keyedList [] items').map Value.map)
    generalize keyedList [] items = x, keyedList [] items' = y at hlist
    cases hlist with
    | accepted h => exact .accepted (.map h)
    | rejected xs => exact .rejected xs
    | broken b => exact .broken b
  | map h => exact .accepted (.map (keyed_named hname h))
  | pair ha hb => exact .accepted (.pair ha hb)
  | same v =>
    cases hv : keyedByName v with
    | accepted w => exact .accepted (.same w)
    | rejected xs => exact .rejected xs
    | broken b => exact .broken b

theorem Overlooks.byName (hname : (word "name", Eq) ∈ fs.list)
    (hr : Overlooks (Agreeing fs) r) : Overlooks (Each (Respelled fs)) (byName r) := by
  intro v v' h
  have hkeyed := keyedByName_related hname (h.mono fun _ _ h => h.agreeing)
  unfold Reading.byName
  generalize keyedByName v = x, keyedByName v' = y at hkeyed
  cases hkeyed with
  | accepted h => exact hr.map _ _ h
  | rejected xs => rfl
  | broken b => rfl

end

/-! ## 5. Settings -/

/-- The fields of the locales. -/
def localeConfigFields : Fields where
  list :=
    [(word "locales", Eq), (⟨"defaultLocale", "default_locale"⟩, Eq),
      (⟨"fallbackLocale", "fallback_locale"⟩, Eq), (word "messages", Eq)]
  apart := by decide +kernel

theorem localeConfig_overlooks : Overlooks (Agreeing localeConfigFields) localeConfig := by
  refine .record fun es es' h => ?_
  simp only [Agree, localeConfigFields, List.forall_mem_cons, option_rel_eq] at h
  simp only [Outcome.unplaced_seq, Outcome.unplaced_fmap, unplaced_fieldOr, h]

/-- What may be rewritten inside a setting. -/
def Setting.rewriting : Setting → Rewriting
  | .localeConfig => Respelled localeConfigFields
  | .customTypes => Each (Respelled customTypeFields)
  | .pluginEnums => Each (Respelled pluginEnumFields)
  | _ => Eq

theorem Setting.overlooks (s : Setting) : Overlooks s.rewriting s.reader := by
  cases s with
  | localeConfig => exact localeConfig_overlooks.respelled
  | customTypes => exact customType_overlooks.byName (by simp [customTypeFields])
  | pluginEnums => exact pluginEnum_overlooks.byName (by simp [pluginEnumFields])
  | _ => exact overlooks_eq _

/-- The settings of a run. -/
def configFields : Fields where
  list := Setting.all.map fun s => (s.fieldName, s.rewriting)
  apart := by decide +kernel

theorem unplaced_assemble (o : (s : Setting) → Outcome s.Kind) :
    (assemble o).unplaced = assemble fun s => (o s).unplaced := by
  simp only [assemble, Outcome.unplaced_seq, Outcome.unplaced_fmap]

theorem config_overlooks : Overlooks (Agreeing configFields) config := by
  intro v v' hv
  cases hv with
  | same => rfl
  | map h =>
    rw [config_eq_assemble, config_eq_assemble, unplaced_assemble, unplaced_assemble]
    refine congrArg assemble (funext fun s => ?_)
    exact h.fieldOr (List.mem_map_of_mem (Setting.mem_all s)) s.overlooks s.absent

end SchemaTypes.Reading
