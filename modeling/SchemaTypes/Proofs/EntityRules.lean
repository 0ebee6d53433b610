/-
# Messages of rules

The message of a rule is made in three passes: its bound is put into the template, a hole for the
label into the place of itself, and then the label into all holes for labels.  This is one pass over
the template (`messagesOf_eq`), since a bound is printed as a numeral and so never becomes part of a
hole for a label: what a label or a bound puts in is never looked at again, and other holes stay.

The template of a rule for a locale (`selectedTemplate`) is its own, else that of the fallback
locale unless this one has no name (`fallback_without_name`), else the English one, and of each the
one of the user before the one of the generator.
-/
import SchemaTypes.Proofs.DisplayNames
import SchemaTypes.Proofs.Messages
import SchemaTypes.Proofs.Number.Literal
import SchemaTypes.EntityRules

namespace SchemaTypes.EntityRules

open Messages (Inert Nameable Separate fill fillAtOnce fill_eq_fillAtOnce hole)

variable {config : Config} {l : String} {p : Property} {d : Draft}

/-! ## 1. Templates -/

/-- The template of a known rule for a locale: that of the user, else that of the generator.  What
the user gives is read as a dictionary. -/
def ownTemplate (config : Config) (rule l : String) : Option String :=
  (Messages.ruleTemplates.lookup rule).bind fun templates =>
    let users := Dictionary.ofList ((config.validationTemplates.lookup rule).getD [])
    (users.lookup l).or (templates.lookup l)

/-- The template that is filled for a locale: its own, else that of the fallback locale if this one
has a name, else the English one. -/
def selectedTemplate (config : Config) (rule l : String) : String :=
  let fallback := config.localeConfig.fallbackLocale
  ((ownTemplate config rule l).or
    ((if fallback = "" then none else ownTemplate config rule fallback).or
      (ownTemplate config rule Locale.english))).getD ""

/-- The templates of the user laid over the others, for one locale. -/
theorem lookup_withUserTemplates (config : Config) (rule l : String) :
    (((Messages.withUserTemplates config.validationTemplates).lookup rule).getD []).lookup l
      = ownTemplate config rule l := by
  rw [Messages.withUserTemplates, ownTemplate]
  rw [Dictionary.lookup_map fun e : String × LocaleTexts =>
    Dictionary.merge e.2 ((config.validationTemplates.lookup e.1).getD [])]
  cases Messages.ruleTemplates.lookup rule with
  | none => rfl
  | some templates => exact Dictionary.lookup_merge_ofList _ _ _

theorem templateFor_eq_selectedTemplate (config : Config) (rule l : String) :
    Messages.templateFor
        (((Messages.withUserTemplates config.validationTemplates).lookup rule).getD [])
        (some config.localeConfig.fallbackLocale) l
      = selectedTemplate config rule l := by
  simp only [Messages.templateFor, selectedTemplate, lookup_withUserTemplates, Locale.english]
  by_cases h : config.localeConfig.fallbackLocale = "" <;> simp [h, Option.filter]

/-! ## 2. Drafts -/

/-- Rules of a least value. -/
def leastRules : List String := ["minLength", "min"]

/-- Rules of a greatest value. -/
def greatestRules : List String := ["maxLength", "max"]

theorem notMem_leastRules : ∀ rule ∈ greatestRules, rule ∉ leastRules := by decide

/-- What the drafts of a property are: of a least value, of a greatest value, or without bounds. -/
inductive Draft.Known : Draft → Prop
  | least {name : String} (rule : name ∈ leastRules) (type : Option String) (b : Bound) :
      Known (.least name type b)
  | greatest {name : String} (rule : name ∈ greatestRules) (type : Option String) (b : Bound) :
      Known (.greatest name type b)
  | plain {d : Draft} (rule : d.name ∉ leastRules ++ greatestRules) (unbounded : d.bound = none) :
      Known d

/-- The drafts of a least and of a greatest value, each if there is one. -/
theorem known_of_mem_bounds {α : Type} {least greatest : String} (hleast : least ∈ leastRules)
    (hgreatest : greatest ∈ greatestRules) (type : Option String) (bound : α → Bound)
    {lower? upper? : Option α}
    (h : d ∈ (lower?.map fun a => Draft.least least type (bound a)).toList
      ++ (upper?.map fun a => Draft.greatest greatest type (bound a)).toList) : d.Known := by
  rcases List.mem_append.1 h with h | h
  · obtain ⟨a, -, rfl⟩ := Option.map_eq_some_iff.1 (Option.mem_toList.1 h)
    exact .least hleast type _
  · obtain ⟨a, -, rfl⟩ := Option.map_eq_some_iff.1 (Option.mem_toList.1 h)
    exact .greatest hgreatest type _

/-- **Every draft of a property is known**: it has the bound of its rule. -/
theorem known_of_mem_draftsOf (h : d ∈ draftsOf p) : d.Known := by
  simp only [draftsOf, List.mem_append] at h
  rcases h with (((hrequired | hemail) | hlength) | hrange) | hpattern
  · split at hrequired
    · exact nomatch hrequired
    · rw [List.mem_singleton.1 hrequired]
      exact .plain (by decide) rfl
  · split at hemail
    · rw [List.mem_singleton.1 hemail]
      exact .plain (by decide) rfl
    · exact nomatch hemail
  · unfold lengthDrafts at hlength
    split at hlength
    · exact known_of_mem_bounds (by decide) (by decide) none natBound hlength
    · exact nomatch hlength
  · unfold rangeDrafts at hrange
    split at hrange
    · exact known_of_mem_bounds (by decide) (by decide) _ id hrange
    · exact nomatch hrange
  · obtain ⟨s, -, rfl⟩ := Option.map_eq_some_iff.1 (Option.mem_toList.1 hpattern)
    exact .plain (by simp [leastRules, greatestRules]) rfl

/-- The bound of a draft as the value of its hole. -/
def boundOf (d : Draft) : List (String × String) :=
  (d.bound.map fun b => (b.1, b.2.text)).toList

set_option maxRecDepth 1000 in
theorem not_marked_hole : ¬Marked (hole labelVariable) := by decide

theorem nameable_label : Nameable labelVariable := by decide

/-- A printed bound cannot become part of the hole for a label. -/
theorem inert_text (b : Bound) : Inert b.text labelVariable where
  begins h := absurd (b.isNumeral_text _ h) (by decide)
  ends h := absurd (b.isNumeral_text _ h) (by decide)
  foreign := by
    obtain ⟨c, hc, hmark⟩ := b.marked_text
    exact ⟨c, hc, fun hm => not_marked_hole ⟨c, hm, hmark⟩⟩

/-- The bound and the label of a rule can be put in one after the other. -/
theorem Draft.Known.separate (h : d.Known) (label : String) :
    Separate (boundOf d ++ [(labelVariable, label)]) := by
  have hlabel : Separate [(labelVariable, label)] :=
    ⟨nameable_label, fun _ hw => (nomatch hw), trivial⟩
  have hbound (name : String) (hname : Nameable name) (hne : name ≠ labelVariable) (b : Bound) :
      Separate [(name, b.text), (labelVariable, label)] := by
    refine ⟨hname, fun w hw => ?_, hlabel⟩
    rw [List.mem_singleton.1 hw]
    exact ⟨nameable_label, hne, inert_text b⟩
  cases h with
  | least _ _ b => exact hbound "min" (by decide) (by decide) b
  | greatest _ _ b => exact hbound "max" (by decide) (by decide) b
  | plain _ unbounded =>
    rw [boundOf, unbounded]
    exact hlabel

/-! ## 3. Three passes are one -/

/-- A hole for a label that is put into its own place stays. -/
theorem fill_variablesOf (template : String) (d : Draft) :
    fill template (variablesOf d) = fill template (boundOf d) := by
  have happend : fill template (variablesOf d)
      = Text.replace (fill template (boundOf d)) labelHole labelHole := by
    rw [fill, variablesOf, List.foldl_append]
    rfl
  have hne : labelHole.toList ≠ [] := Messages.toList_hole_ne_nil labelVariable
  rw [happend, Text.replace, Text.replaceAll_self hne, String.ofList_toList]

/-- A bound is never printed as the empty text. -/
theorem fill_boundOf_eq_empty (template : String) (d : Draft) :
    fill template (boundOf d) = "" ↔ template = "" := by
  cases hb : d.bound with
  | none => rw [boundOf, hb]; rfl
  | some b =>
    obtain ⟨c, hc, -⟩ := b.2.marked_text
    have hstep : fill template (boundOf d) = Text.replace template (hole b.1) b.2.text := by
      rw [boundOf, hb]
      rfl
    rw [hstep, Text.replace, ← String.toList_inj, String.toList_ofList, ← String.toList_inj]
    exact Text.replaceAll_eq_nil (List.ne_nil_of_mem hc)

/-- **The messages of a rule are filled in one pass**, and a locale whose template is empty has
none. -/
theorem Draft.Known.messagesOf_eq (h : d.Known) (config : Config) (name : String)
    (labels : LocaleTexts) :
    messagesOf config (Messages.withUserTemplates config.validationTemplates) name labels d
      = Dictionary.tabulate config.localeConfig.locales fun l =>
          if selectedTemplate config d.name l = "" then none
          else some (fillAtOnce (selectedTemplate config d.name l)
            (boundOf d ++ [(labelVariable, (labels.lookup l).getD name)])) := by
  have happend (template label : String) :
      Text.replace (fill template (boundOf d)) labelHole label
        = fillAtOnce template (boundOf d ++ [(labelVariable, label)]) := by
    rw [← fill_eq_fillAtOnce (h.separate label), fill, fill, List.foldl_append]
    rfl
  simp only [messagesOf, Messages.localized, templateFor_eq_selectedTemplate, fill_variablesOf]
  rw [Dictionary.map_filter_tabulate _ _ (fun t => !t.isEmpty)
    fun m => Text.replace m.2 labelHole ((labels.lookup m.1).getD name)]
  congr 1
  funext l
  have hkept : (!(fill (selectedTemplate config d.name l) (boundOf d)).isEmpty)
      = !decide (selectedTemplate config d.name l = "") := by
    rw [Bool.eq_iff_iff]
    simp [fill_boundOf_eq_empty]
  rw [Option.filter, hkept]
  by_cases hempty : selectedTemplate config d.name l = ""
  · simp [hempty]
  · simp [hempty, happend]

/-! ## 4. The rules of an entity -/

/-- The values of the holes of a rule: its bound if it is a rule of a least or a greatest value, and
a label. -/
def valuesOf (rule : String) (r : PropertyRule) (label : String) : List (String × String) :=
  (if rule ∈ leastRules then r.min.toList.map fun b => ("min", b.text)
    else if rule ∈ greatestRules then r.max.toList.map fun b => ("max", b.text)
    else []) ++ [("displayName", label)]

/-- What holds of a rule that was drafted for a property with some labels. -/
structure Filled (config : Config) (labels : LocaleTexts) (d : Draft) (r : PropertyRule) :
    Prop where
  /-- Apart from the message it says what was drafted. -/
  drafted : r = { message := r.message, required := d.required, type := d.type, min := d.min,
                  max := d.max, pattern := d.pattern }
  /-- A rule of a least value has one, and a rule of a greatest value has one. -/
  bounded : (d.name ∈ leastRules → r.min.isSome = true) ∧
    (d.name ∈ greatestRules → r.max.isSome = true)
  /-- It has messages for the configured locales except those whose template is empty. -/
  locales : Dictionary.keys r.message
    = config.localeConfig.locales.eraseDups.filter (selectedTemplate config d.name · ≠ "")
  /-- Every such message is the template with the bound and the label put in at once. -/
  message : ∀ l ∈ config.localeConfig.locales, ∃ label, labels.lookup l = some label ∧
    (selectedTemplate config d.name l ≠ "" →
      r.message.lookup l
        = some (fillAtOnce (selectedTemplate config d.name l) (valuesOf d.name r label)))

/-- A label with a text of last resort has a text for every configured locale. -/
theorem exists_lookup_inLocales {text : String} (label : Option Label)
    (hl : l ∈ config.localeConfig.locales) :
    ∃ t, (DisplayNames.inLocales config label (some text)).lookup l = some t := by
  have hkey : l ∈ Dictionary.keys (DisplayNames.inLocales config label (some text)) := by
    rw [DisplayNames.inLocales, Locale.keys_perLocale]
    exact List.mem_eraseDups.2 hl
  exact Option.isSome_iff_exists.1 (Dictionary.mem_keys_iff_isSome_lookup.1 hkey)

theorem Draft.Known.bounded (h : d.Known) : (d.name ∈ leastRules → d.min.isSome = true) ∧
    (d.name ∈ greatestRules → d.max.isSome = true) := by
  cases h with
  | least rule => exact ⟨fun _ => rfl, fun h => absurd rule (notMem_leastRules _ h)⟩
  | greatest rule => exact ⟨fun h => absurd h (notMem_leastRules _ rule), fun _ => rfl⟩
  | plain rule =>
    rw [List.mem_append, not_or] at rule
    exact ⟨fun h => absurd h rule.1, fun h => absurd h rule.2⟩

theorem Draft.Known.valuesOf_eq (h : d.Known) {r : PropertyRule} (hmin : r.min = d.min)
    (hmax : r.max = d.max) (label : String) :
    valuesOf d.name r label = boundOf d ++ [(labelVariable, label)] := by
  rw [valuesOf, hmin, hmax]
  cases h with
  | @least name rule type b =>
    rw [if_pos (show (Draft.least name type b).name ∈ leastRules from rule)]
    rfl
  | @greatest name rule type b =>
    have hrule : (Draft.greatest name type b).name ∈ greatestRules := rule
    rw [if_neg (notMem_leastRules _ hrule), if_pos hrule]
    rfl
  | plain rule unbounded =>
    rw [List.mem_append, not_or] at rule
    rw [if_neg rule.1, if_neg rule.2, boundOf, unbounded]
    rfl

theorem Draft.Known.filled (h : d.Known) (config : Config) (name : String) (label : Option Label) :
    let labels := DisplayNames.inLocales config label (some name)
    Filled config labels d
      (ruleOf config (Messages.withUserTemplates config.validationTemplates) name labels d) := by
  intro labels
  have hmessage := h.messagesOf_eq config name labels
  refine ⟨rfl, h.bounded, ?_, fun l hl => ?_⟩
  · show Dictionary.keys (messagesOf _ _ _ _ _) = _
    rw [hmessage, Dictionary.keys_tabulate_eq_filter]
    refine List.filter_congr fun l _ => ?_
    by_cases hempty : selectedTemplate config d.name l = "" <;> simp [hempty]
  · obtain ⟨t, ht⟩ := exists_lookup_inLocales label hl
    refine ⟨t, ht, fun hne => ?_⟩
    show (messagesOf _ _ _ _ _).lookup l = _
    rw [hmessage, Dictionary.lookup_tabulate, if_pos hl, if_neg hne, ht, Option.getD_some,
      h.valuesOf_eq rfl rfl]

/-- **The messages of all rules of an entity** are templates with the bounds and the labels put in
at once. -/
theorem rules_filled (config : Config) (s : Schema) :
    List.Forall₂
      (fun (e : String × Property) (r : String × PropertyRules) =>
        r.1 = e.1 ∧
          r.2.displayName = DisplayNames.inLocales config e.2.displayName (some e.1) ∧
          List.Forall₂ (Filled config r.2.displayName) (draftsOf e.2) r.2.rules)
      s.properties (ofSchema config s).properties := by
  refine List.forall₂_map_right_iff.2 (List.forall₂_same.2 fun e _ => ⟨rfl, rfl, ?_⟩)
  refine List.forall₂_map_right_iff.2 (List.forall₂_same.2 fun d hd => ?_)
  exact (known_of_mem_draftsOf hd).filled config e.1 e.2.displayName

/-- A fallback locale without a name is passed over, even if the user gives a template for it: the
English one is filled. -/
theorem fallback_without_name :
    let config : Config :=
      { localeConfig := { locales := ["fr"], defaultLocale := "fr", fallbackLocale := "" }
        validationTemplates := [("required", [("", "X")])] }
    let s : Schema :=
      { name := "User", properties := [("name", { tag := "String", kind := .primitive })] }
    ownTemplate config "required" "fr" = none ∧
      ownTemplate config "required" config.localeConfig.fallbackLocale = some "X" ∧
      (ofSchema config s).properties.map (fun e => e.2.rules.map (·.message))
        = [[[("fr", "name is required")]]] := by
  refine ⟨by decide, by decide, ?_⟩
  cbv

end SchemaTypes.EntityRules
