/-
# What validators start from

The type of a field is read off the tables of types, the hints of plugins and the names of
enumerations; what its validator starts from is chosen by other tables.  `FollowsType` says how far
the two go together (`forall₂_followsType`): validators take no notice of the hint of a plugin, a
rule that asks for a format puts a text in place of whatever was there, and a reference to an
enumeration stays one whatever the enumeration is called.  Everywhere else a field of the type
`number`, `boolean` or `string` has a validator of that type.
-/
import Mathlib
import SchemaTypes.Proofs.Text.Replace
import SchemaTypes.Proofs.Zod.Fields

namespace SchemaTypes

/-! ## 1. Types without null members -/

namespace Interface

variable {config : Config}

/-- A type without blanks has no null members. -/
theorem shownType_of_notMem {type : String} (h : ' ' ∉ type.toList) :
    shownType config type = type := by
  unfold shownType dropNull Text.replace
  split
  · rfl
  · have hneedle : " | null".toList = ' ' :: "| null".toList := by decide
    rw [hneedle, Text.replaceAll_of_notMem h, String.ofList_toList]

/-- The types of primitives are shown as they are. -/
theorem shownType_ofTag (tag : String) :
    shownType config (TypeExpr.ofTag tag) = TypeExpr.ofTag tag := by
  have htypes : ∀ e ∈ TypeExpr.primitiveTypes, ' ' ∉ e.2.toList := by decide
  refine shownType_of_notMem ?_
  unfold TypeExpr.ofTag
  cases hl : TypeExpr.primitiveTypes.lookup tag with
  | none => decide
  | some type =>
    obtain ⟨before, after, heq, -⟩ := List.lookup_eq_some_iff.1 hl
    exact htypes (tag, type) (by simp [heq])

/-- A union of literals begins with a quote, with or without its null members. -/
theorem head?_shownType_literalUnion (config : Config) {values : List String} (h : values ≠ []) :
    (shownType config (TypeExpr.literalUnion values)).toList.head? = some '\'' := by
  obtain ⟨v, vs, rfl⟩ := List.exists_cons_of_ne_nil h
  obtain ⟨r, hr⟩ : ∃ r, (TypeExpr.literalUnion (v :: vs)).toList = '\'' :: r := by
    cases vs with
    | nil => exact ⟨_, by simp [TypeExpr.literalUnion, TypeScript.quote]; rfl⟩
    | cons w ws => exact ⟨_, by simp [TypeExpr.literalUnion, TypeScript.quote]; rfl⟩
  unfold shownType dropNull Text.replace
  split
  · rw [hr, List.head?_cons]
  · have hneedle : " | null".toList = ' ' :: "| null".toList := by decide
    rw [hneedle, hr, String.toList_ofList, Text.head?_replaceAll (by decide)]

end Interface

namespace Zod

open Interface (shownType customTypeOf?)
open Text (startsWith startsWith_append)

variable {config : Config} {p : Property}

/-! ## 2. The start of a text -/

/-- The types of single values and what their validators start with. -/
def validatorStarts : List (String × String) :=
  [("number", "z.number()"), ("boolean", "z.boolean()"), ("string", "z.string()")]

/-- A chain starts with its base. -/
theorem Expr.startsWith_base (e : Expr) : startsWith e.text e.base.text = true := by
  rw [Expr.text]
  exact startsWith_append _ _

/-- The format that the rules of the property ask for. -/
def formatRule? (p : Property) : Option Expr := p.rules.bind formatOf?

theorem base_finish (p : Property) (e : Expr) :
    (finish p e).base = if (formatRule? p).isSome then .string else e.base := by
  unfold finish formatRule?
  cases hr : p.rules with
  | none => rfl
  | some r =>
    cases hf : formatOf? r with
    | none => simp [applyRules, hf]
    | some e' =>
      obtain ⟨c, rfl, -⟩ := formatOf?_eq_some hf
      simp [applyRules, hf]

/-! ## 3. Types and validators -/

/-- What the validator of a field starts with, where the field has the type. -/
structure FollowsType (config : Config) (p : Property) (type : String) (z : Expr) : Prop where
  /-- Under a plugin type, whatever its hint is. -/
  plugin : (customTypeOf? config p).isSome = true → startsWith z.text "z.string()" = true
  /-- Under a rule that asks for a format, whatever stood there before. -/
  format : customTypeOf? config p = none → (formatRule? p).isSome = true →
    startsWith z.text "z.string()" = true
  /-- A reference to an enumeration, whatever its name is. -/
  reference : ∀ enum, p.kind = .enumRef enum → formatRule? p = none →
    startsWith z.text ("z.nativeEnum(" ++ enum ++ ")") = true
  /-- Everything else, by the type. -/
  plain : customTypeOf? config p = none → formatRule? p = none →
    (∀ enum, p.kind ≠ .enumRef enum) → ∀ v ∈ validatorStarts, type = v.1 →
      startsWith z.text v.2 = true

theorem startsWith_of_base {z : Expr} {b : Base} (h : z.base = b) :
    startsWith z.text b.text = true := h ▸ z.startsWith_base

/-- A plugin type has a validator of texts. -/
theorem followsType_of_plugin {t : CustomType} {type : String} {z : Expr}
    (hplugin : customTypeOf? config p = some t) (hbase : z.base = .string) :
    FollowsType config p type z where
  plugin _ := startsWith_of_base hbase
  format h := by rw [hplugin] at h; cases h
  reference enum hk := by simp [customTypeOf?, hk] at hplugin
  plain h := by rw [hplugin] at h; cases h

/-- A property without a plugin type that is no reference, by its base. -/
theorem followsType_finish {type : String} {e : Expr} (hplugin : customTypeOf? config p = none)
    (hk : ∀ enum, p.kind ≠ .enumRef enum)
    (hbase : ∀ v ∈ validatorStarts, type = v.1 → e.base.text = v.2) :
    FollowsType config p type (finish p e) where
  plugin h := by rw [hplugin] at h; cases h
  format _ h := by
    have : (finish p e).base = .string := by rw [base_finish, if_pos h]
    exact startsWith_of_base this
  reference enum h := absurd h (hk enum)
  plain _ h _ v hv htype := by
    have : (finish p e).base = e.base := by rw [base_finish, h]; rfl
    rw [← hbase v hv htype]
    exact startsWith_of_base this

/-- The two tables of primitives agree. -/
theorem text_base_of_ofTag {e : Expr} (he : ofPrimitive? p = some e) :
    ∀ v ∈ validatorStarts, TypeExpr.ofTag p.tag = v.1 → e.base.text = v.2 := by
  have htables : ∀ tag ∈ primitiveTags, ∀ v ∈ validatorStarts, TypeExpr.ofTag tag = v.1 →
      (primitiveBases.lookup tag).map Base.text = some v.2 := by decide
  intro v hv htype
  have htag : p.tag ∈ primitiveTags := by
    rw [← List.contains_iff_mem, ← isSome_ofPrimitive?, he]
    rfl
  have := htables p.tag htag v hv htype
  rw [← base_ofPrimitive?, he] at this
  simpa using this

/-- A list of values has a validator of texts only if it is empty. -/
theorem text_base_ofValues (vs : List EnumValue) :
    ∀ v ∈ validatorStarts, shownType config (TypeExpr.ofValues vs).expr = v.1 →
      (ofValues vs).base.text = v.2 := by
  intro v hv htype
  by_cases hvs : vs.isEmpty = true
  · rw [TypeExpr.ofValues, if_pos hvs, Interface.shownType_of_notMem (by decide)] at htype
    rw [ofValues, if_pos hvs]
    have hstring : ∀ v ∈ validatorStarts, "string" = v.1 → Base.text .string = v.2 := by decide
    exact hstring v hv htype
  · have hne : vs.map (·.value) ≠ [] := by simpa using hvs
    have hhead := Interface.head?_shownType_literalUnion config hne
    rw [TypeExpr.ofValues, if_neg hvs] at htype
    rw [htype] at hhead
    have hletters : ∀ v ∈ validatorStarts, v.1.toList.head? ≠ some '\'' := by decide
    exact absurd hhead (hletters v hv)

theorem Pairing.followsType {type : String} {optional : Bool} {z : Expr}
    (h : Pairing config p type optional z) :
    FollowsType config p (shownType config type) z := by
  cases h with
  | @entry t e plugin mem =>
    refine followsType_of_plugin plugin ?_
    unfold ofEntry ofFormat
    dsimp only
    split <;> rfl
  | @simple t plugin => exact followsType_of_plugin plugin rfl
  | reference kind =>
    have hnone : customTypeOf? config p = none := by simp only [customTypeOf?, kind]
    refine ⟨?_, ?_, ?_, ?_⟩
    · intro h
      rw [hnone] at h
      cases h
    · intro _ h
      refine startsWith_of_base (b := .string) ?_
      rw [base_finish, if_pos h]
    · intro enum hk h
      obtain rfl : type = enum := PropertyKind.enumRef.inj (kind.symm.trans hk)
      refine startsWith_of_base (b := .nativeEnum type) ?_
      rw [base_finish, h]
      rfl
    · intro _ _ h
      exact absurd kind (h type)
  | @values vs kind =>
    refine followsType_finish ?_ ?_ (text_base_ofValues vs)
    · rcases kind with kind | kind <;> simp only [customTypeOf?, kind]
    · rcases kind with kind | kind <;> simp [kind]
  | primitive kind eq =>
    refine followsType_finish (by simp [customTypeOf?, kind]) (by simp [kind]) ?_
    rw [Interface.shownType_ofTag]
    exact text_base_of_ofTag eq

/-- **Validators follow the types of fields**, as far as `FollowsType` says: every field that holds
a value of its own has a validator in the same place, and if the property has no plugin type, no
rule that asks for a format and is no reference to an enumeration, then a field of the type
`number`, `boolean` or `string` has a validator that starts accordingly.  Under a plugin type or a
format rule a validator starts as one of texts, and under a reference without such a rule as one of
the enumeration. -/
theorem forall₂_followsType (collection : Collection) (config : Config) (name : String)
    (p : Property) :
    Interface.expand collection config name p
        = Interface.ownFields collection config name p ++ Interface.accessorFields config name p ∧
      if isValidated config p then
        List.Forall₂ (fun f z => FollowsType config p f.type z.schema)
          (Interface.ownFields collection config name p) (fieldsOfProperty config name p)
      else fieldsOfProperty config name p = [] := by
  refine ⟨Interface.expand_eq_append collection config name p, ?_⟩
  split
  · rename_i hvalidated
    refine (forall₂_ownFields collection name hvalidated).imp ?_
    rintro f z ⟨type, htype, hpairing⟩
    rw [htype]
    exact hpairing.followsType
  · rename_i hvalidated
    exact fieldsOfProperty_eq_nil (by simpa using hvalidated)

/-- The types of the fields of a property beside the texts of its validators. -/
def typesAndValidators (config : Config) (name : String) (p : Property) :
    List (String × String) :=
  ((Interface.ownFields ⟨[]⟩ config name p).map (·.type)).zip
    ((fieldsOfProperty config name p).map (·.schema.text))

/-- The three ways in which a field of the type `number` has a validator that does not start with
`z.number()`: by the hint of a plugin, by a rule and by the name of an enumeration. -/
theorem number_with_other_validator :
    typesAndValidators { customTypes := [("Price", { typeHint := "number" })] } "price"
        { tag := "Price", kind := .custom } = [("number", "z.string()")] ∧
      typesAndValidators {} "visits"
        { tag := "Int", kind := .primitive, rules := some { url := true } }
        = [("number", "z.string().url()")] ∧
      typesAndValidators {} "kind" { tag := "EnumRef", kind := .enumRef "number" }
        = [("number", "z.nativeEnum(number)")] ∧
      startsWith "z.string()" "z.number()" = false ∧
      startsWith "z.string().url()" "z.number()" = false ∧
      startsWith "z.nativeEnum(number)" "z.number()" = false := by
  decide

end Zod

end SchemaTypes
