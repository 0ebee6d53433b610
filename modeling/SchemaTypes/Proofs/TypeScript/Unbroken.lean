/-
# Types and fields on one line

The type of a property, the fields that it expands into and the interface of its schema are on one
line part by part if the schema and the settings are (`Interface.isUnbroken_ofSchema`), and so are
the enumerations and aliases of schemas, plugins and properties (`Enumeration.isUnbroken_all`,
`InlineEnum.isUnbroken_all`).
-/
import SchemaTypes.Enumeration
import SchemaTypes.Proofs.Zod.Unbroken

namespace SchemaTypes

open Text (Unbroken unbroken_append unbroken_between unbroken_intercalate)

variable {collection : Collection} {config : Config} {p : Property} {s : Schema}

/-! ## 1. Types -/

namespace TypeExpr

theorem unbroken_literalUnion {values : List String} (h : ∀ v ∈ values, Unbroken v) :
    Unbroken (literalUnion values) :=
  TypeScript.unbroken_quotes (by decide) h

theorem unbroken_ofTag (tag : String) : Unbroken (ofTag tag) := by
  have htable : ∀ e ∈ primitiveTypes, Unbroken e.2 := by decide
  refine ImportPaths.unbroken_getD (fun t ht => ?_) (by decide)
  exact htable _ (Dictionary.mem_of_lookup ht)

theorem unbroken_ofRelation (relation : String) {target : Option String} {targets : List String}
    (htarget : ∀ t ∈ target, Unbroken t) (htargets : ∀ t ∈ targets, Unbroken t) :
    Unbroken (ofRelation relation target targets).expr := by
  have hone : Unbroken ((givenTarget target).headD unknown) := by
    cases hg : givenTarget target with
    | nil => exact (by decide : Unbroken "unknown")
    | cons t rest =>
      have hmem : t ∈ givenTarget target := hg ▸ List.mem_cons_self
      exact htarget t (Option.mem_toList.1 (List.mem_filter.1 hmem).1)
  unfold ofRelation
  split
  · split
    · exact (by decide : Unbroken "unknown")
    · exact unbroken_intercalate (by decide) htargets
  · exact hone
  · exact unbroken_append.2 ⟨hone, by decide⟩
  · exact (by decide : Unbroken "unknown")

theorem unbroken_ofValues {values : List EnumValue} (h : ∀ v ∈ values, v.IsUnbroken) :
    Unbroken (ofValues values).expr := by
  unfold ofValues
  split
  · exact (by decide : Unbroken "string")
  · refine unbroken_literalUnion fun t ht => ?_
    obtain ⟨v, hv, rfl⟩ := List.mem_map.1 ht
    exact (h v hv).value

/-- **The type of a property is on one line** if the property is. -/
theorem unbroken_resolve (hp : p.IsUnbroken) (collection : Option Collection)
    {customTypes : List (String × CustomType)} (htypes : ∀ t ∈ customTypes, t.2.IsUnbroken) :
    Unbroken (resolve p collection customTypes).expr := by
  have hkind := hp.kind
  unfold resolve
  split
  · rename_i multiple _
    cases multiple
    · exact (by decide : Unbroken "File | null")
    · exact (by decide : Unbroken "File[]")
  · rename_i relation target targets hk
    rw [hk] at hkind
    have hrelation := unbroken_ofRelation relation hkind.1 hkind.2
    cases collection with
    | none => exact hrelation
    | some c => exact hrelation
  · rename_i enum hk
    rwa [hk] at hkind
  · rename_i values hk
    rw [hk] at hkind
    exact unbroken_ofValues hkind
  · rename_i options hk
    rw [hk] at hkind
    exact unbroken_ofValues hkind
  · split
    · rename_i t ht
      cases t.compound
      · exact (htypes _ (Dictionary.mem_of_lookup ht)).typeHint
      · exact (by decide : Unbroken "unknown")
    · exact unbroken_ofTag _
  · exact unbroken_ofTag _

end TypeExpr

/-! ## 2. Fields -/

/-- The printed texts of a field are on one line. -/
structure InterfaceField.IsUnbroken (f : InterfaceField) : Prop where
  name : Unbroken f.name
  type : Unbroken f.type
  comment : ∀ c ∈ f.comment, Unbroken c

namespace Interface

theorem unbroken_orElse {text : Option String} (h : ∀ t ∈ text, Unbroken t) {other : String}
    (hother : Unbroken other) : Unbroken (orElse text other) :=
  ImportPaths.unbroken_getD (fun t ht => h t (Option.filter_eq_some_iff.1 ht).1) hother

variable {name : String}

theorem unbroken_partName {part : String} (hname : Unbroken name) (hpart : Unbroken part) :
    Unbroken (partName name part) :=
  unbroken_between hname (by decide) (Naming.unbroken_snake hpart)

/-- A comment with something in parentheses. -/
theorem unbroken_noted {title note : String} (htitle : Unbroken title) (hnote : Unbroken note) :
    Unbroken (title ++ " (" ++ note ++ ")") :=
  unbroken_between (unbroken_append.2 ⟨htitle, by decide⟩) hnote (by decide)

theorem isUnbroken_compoundFields {t : CustomType} (ht : t.IsUnbroken) (hname : Unbroken name)
    {title : String} (htitle : Unbroken title) (config : Config) (p : Property) :
    ∀ f ∈ compoundFields config name p t title, f.IsUnbroken := by
  refine List.forall_mem_append.2 ⟨fun f hf => ?_, fun f hf => ?_⟩
  · obtain ⟨e, he, rfl⟩ := List.mem_map.1 hf
    have hentry := ht.expand e he
    refine ⟨unbroken_partName hname hentry.suffix, hentry.typeHint, ?_⟩
    exact forall_mem_some.2 (unbroken_noted htitle hentry.suffix)
  · obtain ⟨a, ha, rfl⟩ := List.mem_map.1 hf
    refine ⟨unbroken_partName hname (ht.accessors a ha), (by decide : Unbroken "string | null"), ?_⟩
    exact forall_mem_some.2 (unbroken_append.2 ⟨htitle, by decide⟩)

theorem isUnbroken_oneOfFields {targets : List String} (htargets : ∀ t ∈ targets, Unbroken t)
    (hname : Unbroken name) {shown : Option String} (hshown : ∀ t ∈ shown, Unbroken t)
    (config : Config) : ∀ f ∈ oneOfFields config name targets shown, f.IsUnbroken := by
  have hlist : Unbroken (String.intercalate ", " targets) :=
    unbroken_intercalate (by decide) htargets
  have hwhich : Unbroken (if targets.isEmpty then "string" else TypeExpr.literalUnion targets) := by
    split
    · decide
    · exact TypeExpr.unbroken_literalUnion htargets
  have hunion : Unbroken
      (if targets.isEmpty then TypeExpr.unknown else String.intercalate " | " targets) := by
    split
    · exact (by decide : Unbroken "unknown")
    · exact unbroken_intercalate (by decide) htargets
  have hdoc : Unbroken (if targets.isEmpty then "Polymorphic relation"
      else "Polymorphic relation to " ++ String.intercalate ", " targets) := by
    split
    · decide
    · exact unbroken_append.2 ⟨by decide, hlist⟩
  refine List.forall_mem_cons.2 ⟨?_, List.forall_mem_cons.2 ⟨?_, List.forall_mem_singleton.2 ?_⟩⟩
  · refine ⟨unbroken_append.2 ⟨hname, by decide⟩, hwhich, ?_⟩
    exact forall_mem_some.2 (unbroken_append.2 ⟨by decide, hname⟩)
  · refine ⟨unbroken_append.2 ⟨hname, by decide⟩, (by decide : Unbroken "number"), ?_⟩
    exact forall_mem_some.2 (unbroken_append.2 ⟨by decide, hname⟩)
  · refine ⟨hname, unbroken_append.2 ⟨hunion, by decide⟩, ?_⟩
    exact forall_mem_some.2 (unbroken_orElse hshown hdoc)

/-- **The fields of a property are on one line each** if the property and the settings are. -/
theorem isUnbroken_expandStrict (hconfig : config.IsUnbroken) (hname : Unbroken name)
    (hp : p.IsUnbroken) (collection : Collection) :
    ∀ f ∈ expandStrict collection config name p, f.IsUnbroken := by
  have hshown : ∀ t ∈ labelText config p.displayName, Unbroken t :=
    Locale.unbroken_resolve hp.displayName
  have hsingle {type : String} (htype : Unbroken type) :
      ∀ f ∈ [singleField config name p type (labelText config p.displayName)], f.IsUnbroken :=
    List.forall_mem_singleton.2 ⟨hname, htype, hshown⟩
  unfold expandStrict
  cases ht : customTypeOf? config p with
  | some t =>
    have htype := Zod.isUnbroken_customTypeOf? hconfig t ht
    cases hcompound : t.compound with
    | true =>
      simp only [hcompound, if_true]
      exact isUnbroken_compoundFields htype hname (unbroken_orElse hshown hname) config p
    | false =>
      simp only [hcompound, Bool.false_eq_true, if_false]
      exact hsingle htype.typeHint
  | none =>
    simp only
    split
    · rename_i target targets hk
      have hkind := hp.kind
      rw [hk] at hkind
      exact isUnbroken_oneOfFields hkind.2 hname hshown config
    · exact hsingle (TypeExpr.unbroken_resolve hp _ hconfig.customTypes)

/-- Without null members a type keeps to its characters. -/
theorem unbroken_dropNull {type : String} (h : Unbroken type) : Unbroken (dropNull type) := by
  have hsubset : ∀ cs : List Char, Text.replaceAll " | null".toList [] cs ⊆ cs := by
    intro cs
    induction cs using Text.replaceAll_induction (by decide : " | null".toList ≠ []) with
    | nil => rw [Text.replaceAll_nil]; exact List.Subset.refl _
    | found rest ih =>
      rw [Text.replaceAll_append (by decide), List.nil_append]
      exact List.subset_append_of_subset_right _ ih
    | kept c r hnot ih =>
      rw [Text.replaceAll_cons_of_not hnot]
      exact List.cons_subset_cons c ih
  rw [dropNull, Text.replace, Naming.unbroken_ofList]
  exact fun c hc => Naming.forall_ne_of_unbroken h c (hsubset _ hc)

theorem isUnbroken_expand (hconfig : config.IsUnbroken) (hname : Unbroken name)
    (hp : p.IsUnbroken) (collection : Collection) :
    ∀ f ∈ expand collection config name p, f.IsUnbroken := by
  intro f hf
  obtain ⟨g, hg, rfl⟩ := List.mem_map.1 hf
  have hfield := isUnbroken_expandStrict hconfig hname hp collection g hg
  cases config.strictNullChecks with
  | true => exact hfield
  | false => exact ⟨hfield.name, unbroken_dropNull hfield.type, hfield.comment⟩

/-! ## 3. Interfaces -/

/-- The printed texts of an interface are on one line. -/
structure IsUnbroken (i : Interface) : Prop where
  name : Unbroken i.name
  fields : ∀ f ∈ i.fields, f.IsUnbroken
  comment : Unbroken i.comment
  dependencies : ∀ n ∈ i.dependencies, Unbroken n
  enumDependencies : ∀ n ∈ i.enumDependencies, Unbroken n

/-- A field of fixed texts. -/
theorem isUnbroken_fixed {type comment : String} {optional readonly : Bool} (hname : Unbroken name)
    (htype : Unbroken type) (hcomment : Unbroken comment) :
    InterfaceField.IsUnbroken ⟨name, type, optional, readonly, some comment⟩ :=
  ⟨hname, htype, forall_mem_some.2 hcomment⟩

theorem isUnbroken_fieldsOf (hconfig : config.IsUnbroken) (hs : s.IsUnbroken)
    (collection : Collection) : ∀ f ∈ fieldsOf collection config s, f.IsUnbroken := by
  have hkey : Unbroken (TypeExpr.primaryKey s.options.idType) := by
    unfold TypeExpr.primaryKey
    split <;> decide
  simp only [fieldsOf, List.forall_mem_append]
  refine ⟨⟨⟨?_, fun f hf => ?_⟩, ?_⟩, ?_⟩
  · split
    · exact List.forall_mem_singleton.2 (isUnbroken_fixed (by decide) hkey (by decide))
    · exact fun _ h => nomatch h
  · obtain ⟨e, he, hf⟩ := List.mem_flatMap.1 hf
    obtain ⟨hname, hp⟩ := hs.properties e he
    exact isUnbroken_expand hconfig hname hp collection f hf
  · split
    · exact List.forall_mem_cons.2 ⟨isUnbroken_fixed (by decide) (by decide) (by decide),
        List.forall_mem_singleton.2 (isUnbroken_fixed (by decide) (by decide) (by decide))⟩
    · exact fun _ h => nomatch h
  · split
    · exact List.forall_mem_singleton.2 (isUnbroken_fixed (by decide) (by decide) (by decide))
    · exact fun _ h => nomatch h

/-- **The interface of a schema is on one line part by part** if the snapshot is. -/
theorem isUnbroken_ofSchema (hcollection : collection.IsUnbroken) (hconfig : config.IsUnbroken)
    (hs : s.IsUnbroken) : (ofSchema collection config s).IsUnbroken where
  name := hs.name
  fields := isUnbroken_fieldsOf hconfig hs collection
  comment := unbroken_orElse (Locale.unbroken_resolve hs.displayName) hs.name
  dependencies n hn := by
    have hn := (List.mem_filter.1 (Text.mem_sortedSet.1 hn)).1
    obtain ⟨f, -, hn⟩ := List.mem_flatMap.1 hn
    have hentity := (List.mem_filter.1 hn).2
    rw [Bool.and_eq_true, List.contains_iff_mem] at hentity
    exact hcollection.objectNames n hentity.2
  enumDependencies n hn := by
    obtain ⟨e, he, hn⟩ := List.mem_filterMap.1 (Text.mem_sortedSet.1 hn)
    have hkind := (hs.properties e he).2.kind
    unfold enumOf? at hn
    split at hn
    · rename_i enum hk
      rw [hk] at hkind
      exact Option.some.inj hn ▸ hkind
    · exact nomatch hn

end Interface

/-! ## 4. Enumerations -/

/-- The printed texts of a member are on one line. -/
structure EnumMember.IsUnbroken (m : EnumMember) : Prop where
  name : Unbroken m.name
  value : Unbroken m.value
  label : ∀ l ∈ m.label, l.IsUnbroken

/-- The printed texts of an enumeration are on one line. -/
structure Enumeration.IsUnbroken (e : Enumeration) : Prop where
  name : Unbroken e.name
  members : ∀ m ∈ e.members, m.IsUnbroken
  comment : Unbroken e.comment

/-- The printed texts of an alias are on one line. -/
structure TypeAlias.IsUnbroken (a : TypeAlias) : Prop where
  name : Unbroken a.name
  values : ∀ v ∈ a.values, Unbroken v
  comment : Unbroken a.comment

/-- The printed texts of a type are on one line. -/
def InlineEnum.IsUnbroken : InlineEnum → Prop
  | .enum _ _ e => e.IsUnbroken
  | .alias _ _ a => a.IsUnbroken

theorem EnumMember.isUnbroken_ofValue {v : EnumValue} (h : v.IsUnbroken) (config : Config) :
    (ofValue config v).IsUnbroken :=
  ⟨Naming.unbroken_member _, h.value, Locale.unbroken_resolveOrKeep h.label _⟩

theorem EnumMember.isUnbroken_ofValues {values : List EnumValue} (h : ∀ v ∈ values, v.IsUnbroken)
    (config : Config) : ∀ m ∈ values.map (ofValue config), m.IsUnbroken := by
  intro m hm
  obtain ⟨v, hv, rfl⟩ := List.mem_map.1 hm
  exact isUnbroken_ofValue (h v hv) config

theorem Enumeration.isUnbroken_all (hcollection : collection.IsUnbroken) (config : Config) :
    ∀ e ∈ all collection config, e.IsUnbroken := by
  intro e he
  obtain ⟨s, hs, he⟩ := List.mem_filterMap.1 he
  have hschema := hcollection s (List.mem_filter.1 hs).1
  unfold ofSchema? at he
  split at he
  · obtain rfl := Option.some.inj he
    exact ⟨hschema.name, EnumMember.isUnbroken_ofValues hschema.values config,
      Interface.unbroken_orElse (Locale.unbroken_resolve hschema.displayName) hschema.name⟩
  · exact nomatch he

theorem Enumeration.isUnbroken_allPlugin (hconfig : config.IsUnbroken) :
    ∀ e ∈ allPlugin config, e.IsUnbroken := by
  intro e he
  obtain ⟨x, hx, rfl⟩ := List.mem_map.1 he
  have hplugin := hconfig.pluginEnums x hx
  exact ⟨hplugin.name, EnumMember.isUnbroken_ofValues hplugin.values config,
    Interface.unbroken_orElse (Locale.unbroken_resolve hplugin.displayName) hplugin.name⟩

namespace InlineEnum

theorem isUnbroken_valuesOf (hp : p.IsUnbroken) : ∀ v ∈ valuesOf p, v.IsUnbroken := by
  have hkind := hp.kind
  unfold valuesOf
  split
  · rename_i values hk
    rwa [hk] at hkind
  · rename_i options hk
    rwa [hk] at hkind
  · exact fun _ h => nomatch h

theorem isUnbroken_ofProperty? (hs : s.IsUnbroken) {name : String} (hname : Unbroken name)
    (hp : p.IsUnbroken) : ∀ x ∈ ofProperty? config s name p, x.IsUnbroken := by
  have hvalues := isUnbroken_valuesOf hp
  have htype : Unbroken (typeName s.name name) :=
    unbroken_append.2 ⟨hs.name, Naming.unbroken_pascal hname⟩
  have hnoun : Unbroken (noun p) := by
    unfold noun
    split <;> decide
  have hcomment : Unbroken (Interface.orElse (Interface.labelText config p.displayName)
      (s.name ++ " " ++ name ++ " " ++ noun p)) := by
    refine Interface.unbroken_orElse (Locale.unbroken_resolve hp.displayName) ?_
    exact unbroken_between (unbroken_between hs.name (by decide) hname) (by decide) hnoun
  intro x hx
  simp only [ofProperty?] at hx
  split at hx
  · exact nomatch hx
  split at hx
  · exact Option.some.inj hx ▸ ⟨htype, EnumMember.isUnbroken_ofValues hvalues config, hcomment⟩
  · refine Option.some.inj hx ▸ ⟨htype, fun t ht => ?_, hcomment⟩
    obtain ⟨v, hv, rfl⟩ := List.mem_map.1 ht
    exact (hvalues v hv).value

/-- **The types of all properties are on one line part by part** if the collection is. -/
theorem isUnbroken_all (hcollection : collection.IsUnbroken) (config : Config) :
    ∀ x ∈ all collection config, x.IsUnbroken := by
  intro x hx
  obtain ⟨s, hs, hx⟩ := List.mem_flatMap.1 hx
  obtain ⟨e, he, hx⟩ := List.mem_filterMap.1 hx
  have hschema := hcollection.objectSchemas s hs
  obtain ⟨hname, hp⟩ := hschema.properties e he
  exact isUnbroken_ofProperty? hschema hname hp x hx

end InlineEnum

end SchemaTypes
