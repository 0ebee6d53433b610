/-
# Fields and their validators

A property gives fields to the interface of its entity and to its validators.  Accessors have no
validator, and so have relations, files and tags that no plugin registers (`isValidated`).  Every
other field stands beside a validator in the same place (`forall₂_ownFields`), and `Pairing` has
one case for each way the two are made: an entry of a compound type, a simple plugin type, a
reference to an enumeration, a list of values, a primitive.  What is to hold of all pairs is proved
by cases on it.
-/
import Mathlib.Data.List.Forall2
import SchemaTypes.Zod.Entity

namespace SchemaTypes

variable {config : Config} {name : String} {p : Property}

/-! ## 1. The fields of an interface -/

namespace Interface

/-- The fields of the accessors of a compound property. -/
def accessorFields (config : Config) (name : String) (p : Property) : List InterfaceField :=
  match Zod.compoundOf? config p with
  | some t =>
    (t.accessors.map (accessorField name (orElse (labelText config p.displayName) name))).map
      (applyNullPolicy config.strictNullChecks)
  | none => []

/-- The fields of a property that hold values of their own. -/
def ownFields (collection : Collection) (config : Config) (name : String) (p : Property) :
    List InterfaceField :=
  match Zod.compoundOf? config p with
  | some t =>
    (t.expand.map (entryField config name p (orElse (labelText config p.displayName) name))).map
      (applyNullPolicy config.strictNullChecks)
  | none => expand collection config name p

/-- A type as the settings show it. -/
def shownType (config : Config) (type : String) : String :=
  if config.strictNullChecks then type else dropNull type

theorem applyNullPolicy_type (f : InterfaceField) :
    (applyNullPolicy config.strictNullChecks f).type = shownType config f.type := by
  unfold applyNullPolicy shownType
  split <;> rfl

theorem applyNullPolicy_optional (strict : Bool) (f : InterfaceField) :
    (applyNullPolicy strict f).optional = f.optional := by
  cases strict <;> rfl

theorem compoundOf?_eq_some_iff {t : CustomType} :
    Zod.compoundOf? config p = some t ↔ customTypeOf? config p = some t ∧ t.compound = true :=
  Option.filter_eq_some_iff

/-- A plugin's type is simple where the property is not compound. -/
theorem compound_eq_false {t : CustomType} (hc : Zod.compoundOf? config p = none)
    (ht : customTypeOf? config p = some t) : t.compound = false := by
  rw [Zod.compoundOf?, ht, Option.filter_eq_none_iff] at hc
  simpa using hc t rfl

/-- **The fields of a property** are its own and then those of the accessors. -/
theorem expand_eq_append (collection : Collection) (config : Config) (name : String)
    (p : Property) :
    expand collection config name p
      = ownFields collection config name p ++ accessorFields config name p := by
  unfold ownFields accessorFields
  cases ht : Zod.compoundOf? config p with
  | none => simp only [List.append_nil]
  | some t =>
    obtain ⟨htype, hcompound⟩ := compoundOf?_eq_some_iff.1 ht
    simp only [expand, expandStrict, htype, hcompound, if_true, compoundFields, List.map_append]

/-- The type of a property that is one field. -/
def singleType (collection : Collection) (config : Config) (p : Property) : String :=
  match customTypeOf? config p with
  | some t => t.typeHint
  | none => (TypeExpr.resolve p (some collection) config.customTypes).expr

theorem expandStrict_single (collection : Collection) (hc : Zod.compoundOf? config p = none)
    (hk : ∀ relation target targets, p.kind ≠ .association relation target targets) :
    expandStrict collection config name p
      = [singleField config name p (singleType collection config p)
          (labelText config p.displayName)] := by
  unfold expandStrict singleType
  cases ht : customTypeOf? config p with
  | some t =>
    simp only [compound_eq_false hc ht, Bool.false_eq_true, if_false]
  | none =>
    dsimp only
    split
    · rename_i target targets hassoc
      exact absurd hassoc (hk _ _ _)
    · rfl

end Interface

/-! ## 2. Primitives -/

namespace Zod

/-- What the validators of primitives start from. -/
def primitiveBases : List (String × Base) :=
  stringTags.map (·, Base.string) ++ numericTags.map (·, Base.number)
    ++ fixedValidators.map fun e => (e.1, e.2.base)

theorem lookup_map_const (tags : List String) (b : Base) (tag : String) :
    (tags.map (·, b)).lookup tag = if tags.contains tag then some b else none := by
  induction tags with
  | nil => rfl
  | cons t r ih =>
    simp only [List.map_cons, List.lookup_cons, ih, List.contains_cons]
    cases tag == t <;> rfl

theorem lookup_map_base (validators : List (String × Expr)) (tag : String) :
    (validators.map fun e => (e.1, e.2.base)).lookup tag
      = (validators.lookup tag).map (·.base) := by
  induction validators with
  | nil => rfl
  | cons e r ih =>
    obtain ⟨t, e⟩ := e
    simp only [List.map_cons, List.lookup_cons, ih]
    cases tag == t <;> rfl

/-- **The validator of a primitive** starts from the base of its tag, whatever its bounds are. -/
theorem base_ofPrimitive? (p : Property) :
    (ofPrimitive? p).map (·.base) = primitiveBases.lookup p.tag := by
  unfold primitiveBases
  rw [List.lookup_append, List.lookup_append, lookup_map_const, lookup_map_const, lookup_map_base]
  unfold ofPrimitive?
  split
  · rename_i hemail
    rw [eq_of_beq hemail]
    rfl
  · split
    · simp
    · split
      · rename_i hfloat
        rw [eq_of_beq hfloat]
        rfl
      · split
        · simp
        · simp

/-- Exactly the primitive tags have a validator. -/
theorem isSome_ofPrimitive? (p : Property) :
    (ofPrimitive? p).isSome = primitiveTags.contains p.tag := by
  have hkeys : ∀ e ∈ primitiveBases, e.1 ∈ primitiveTags := by decide
  have hfound : ∀ tag ∈ primitiveTags, (primitiveBases.lookup tag).isSome = true := by decide
  rw [← Option.isSome_map (f := (·.base)), base_ofPrimitive?]
  cases hc : primitiveTags.contains p.tag with
  | true => exact hfound _ (List.contains_iff_mem.1 hc)
  | false =>
    have hnone : primitiveBases.lookup p.tag = none := by
      rw [List.lookup_eq_none_iff]
      intro e he
      rw [bne_iff_ne]
      rintro heq
      have hmem := List.contains_iff_mem.2 (hkeys e he)
      rw [← heq, hc] at hmem
      cases hmem
    rw [hnone]
    rfl

/-! ## 3. Formats -/

/-- The methods of formats. -/
def formatCalls : List Call := [.url, .uuid, .ip none, .ip (some "v4"), .ip (some "v6")]

/-- A rule set that asks for a format asks for a text with one method. -/
theorem formatOf?_eq_some {r : RuleSet} {e : Expr} (h : formatOf? r = some e) :
    ∃ c, e = ⟨.string, [c]⟩ ∧ c ∈ formatCalls := by
  unfold formatOf? at h
  repeat' split at h
  all_goals cases h
  all_goals exact ⟨_, rfl, by decide⟩

/-! ## 4. Properties with validators -/

open Interface (shownType customTypeOf? entryNullable)

/-- The values of the property are checked. -/
def isValidated (config : Config) (p : Property) : Bool :=
  match p.kind with
  | .association .. | .file _ => false
  | .custom => (config.customType? p.tag).isSome
  | .primitive => primitiveTags.contains p.tag
  | .enumRef _ | .inlineEnum _ | .select _ => true

/-- The type of a field, whether it is optional, and its validator. -/
inductive Pairing (config : Config) (p : Property) : String → Bool → Expr → Prop
  | entry {t : CustomType} {e : CompoundEntry} (plugin : customTypeOf? config p = some t)
      (mem : e ∈ t.expand) : Pairing config p e.typeHint (entryNullable p e) (ofEntry p e)
  | simple {t : CustomType} (plugin : customTypeOf? config p = some t) :
      Pairing config p t.typeHint p.isNullable (ofCustom p t)
  | reference {enum : String} (kind : p.kind = .enumRef enum) :
      Pairing config p enum p.isNullable (finish p ⟨.nativeEnum enum, []⟩)
  | values {vs : List EnumValue} (kind : p.kind = .inlineEnum vs ∨ p.kind = .select vs) :
      Pairing config p (TypeExpr.ofValues vs).expr p.isNullable (finish p (ofValues vs))
  | primitive {e : Expr} (kind : p.kind = .primitive) (eq : ofPrimitive? p = some e) :
      Pairing config p (TypeExpr.ofTag p.tag) p.isNullable (finish p e)

/-- A field of an interface and the validator of its values. -/
def Paired (config : Config) (p : Property) (f : InterfaceField) (z : Field) : Prop :=
  ∃ type, f.type = shownType config type ∧ Pairing config p type f.optional z.schema

/-- **Without validators**: relations, files and tags that no plugin registers. -/
theorem fieldsOfProperty_eq_nil (h : isValidated config p = false) :
    fieldsOfProperty config name p = [] := by
  unfold isValidated at h
  cases hk : p.kind with
  | association | file => simp [fieldsOfProperty, compoundOf?, customTypeOf?, ofProperty?, hk]
  | custom =>
    have hnone : config.customType? p.tag = none := by simpa [hk] using h
    simp [fieldsOfProperty, compoundOf?, customTypeOf?, ofProperty?, hk, hnone]
  | primitive =>
    have hnone : ofPrimitive? p = none := by
      rw [← Option.not_isSome_iff_eq_none, isSome_ofPrimitive?]
      simpa [hk] using h
    simp [fieldsOfProperty, compoundOf?, customTypeOf?, ofProperty?, hk, hnone]
  | enumRef | inlineEnum | select => simp [hk] at h

/-- The validator of a property that is one field. -/
theorem exists_pairing_of_single (collection : Collection) (h : isValidated config p = true) :
    ∃ e, ofProperty? config p = some e ∧
      Pairing config p (Interface.singleType collection config p) p.isNullable e := by
  unfold isValidated at h
  unfold Interface.singleType
  cases hk : p.kind with
  | association | file => simp [hk] at h
  | custom =>
    obtain ⟨t, ht⟩ : ∃ t, config.customType? p.tag = some t := by
      simpa [hk, Option.isSome_iff_exists] using h
    have hplugin : customTypeOf? config p = some t := by simp only [customTypeOf?, hk, ht]
    refine ⟨ofCustom p t, by simp only [ofProperty?, hk, ht, Option.map_some], ?_⟩
    simp only [hplugin]
    exact .simple hplugin
  | primitive =>
    obtain ⟨e, he⟩ : ∃ e, ofPrimitive? p = some e := by
      rw [← Option.isSome_iff_exists, isSome_ofPrimitive?]
      simpa only [hk] using h
    refine ⟨finish p e, by simp only [ofProperty?, hk, he, Option.map_some], ?_⟩
    simp only [customTypeOf?, TypeExpr.resolve, hk]
    exact .primitive hk he
  | enumRef enum =>
    refine ⟨finish p ⟨.nativeEnum enum, []⟩, by simp only [ofProperty?, hk], ?_⟩
    simp only [customTypeOf?, TypeExpr.resolve, hk]
    exact .reference hk
  | inlineEnum vs =>
    refine ⟨finish p (ofValues vs), by simp only [ofProperty?, hk], ?_⟩
    simp only [customTypeOf?, TypeExpr.resolve, hk]
    exact .values (.inl hk)
  | select vs =>
    refine ⟨finish p (ofValues vs), by simp only [ofProperty?, hk], ?_⟩
    simp only [customTypeOf?, TypeExpr.resolve, hk]
    exact .values (.inr hk)

/-- **Every field that holds values of its own has its validator**, in the same place. -/
theorem forall₂_ownFields (collection : Collection) (name : String)
    (h : isValidated config p = true) :
    List.Forall₂ (Paired config p) (Interface.ownFields collection config name p)
      (fieldsOfProperty config name p) := by
  unfold Interface.ownFields fieldsOfProperty
  cases hc : compoundOf? config p with
  | some t =>
    obtain ⟨hplugin, -⟩ := Interface.compoundOf?_eq_some_iff.1 hc
    simp only [compoundFields, List.map_map, List.forall₂_map_left_iff, List.forall₂_map_right_iff,
      List.forall₂_same]
    intro e he
    refine ⟨e.typeHint, Interface.applyNullPolicy_type _, ?_⟩
    rw [Function.comp_apply, Interface.applyNullPolicy_optional]
    exact .entry hplugin he
  | none =>
    obtain ⟨e, he, hpairing⟩ := exists_pairing_of_single collection h
    have hk : ∀ relation target targets, p.kind ≠ .association relation target targets := by
      intro relation target targets hassoc
      simp [isValidated, hassoc] at h
    simp only [Interface.expand, Interface.expandStrict_single collection hc hk, he,
      List.map_cons, List.map_nil, Option.map_some, Option.toList_some, List.forall₂_cons,
      List.Forall₂.nil, and_true]
    refine ⟨_, Interface.applyNullPolicy_type _, ?_⟩
    rw [Interface.applyNullPolicy_optional]
    exact hpairing

end Zod

end SchemaTypes
