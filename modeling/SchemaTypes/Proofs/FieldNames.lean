/-
# Distinct fields

An entity has the fields of its properties, of its key and of its time stamps.  No check looks at
the names of fields, so that two fields may have one name without any finding about the snapshot
(`fields_shared_unnoticed`).

A property gives one field its own name and adds others to it: the entries and accessors of a
compound type, the type and the key of a relation to one of several entities.  The properties of an
entity are a dictionary, and so their own names are distinct; `Interface.NamesApart` and
`Zod.NamesApart` list what else has to be kept apart, and `fields_nodup_iff` says that this is all.
-/
import SchemaTypes.Check.Full
import SchemaTypes.Proofs.Output.CreatePayload

namespace SchemaTypes

open Text (Settled)

/-! ## 1. Names of properties and names added to them -/

section Names

variable {α : Type} {own : String × α → Option String} {added : String × α → List String}
  {l : List (String × α)}

/-- **When the names of a dictionary are distinct**: those that are added to a key among themselves,
those of different keys, and the keys' own names from each other and from all that are added. -/
theorem nodup_names_iff (hkeys : (l.map (·.1)).Nodup) :
    (l.flatMap fun e => added e ++ (own e).toList).Nodup ↔
      (∀ e ∈ l, (added e).Nodup) ∧
      (∀ e ∈ l, ∀ e' ∈ l, e.1 ≠ e'.1 → (added e).Disjoint (added e')) ∧
      (∀ e ∈ l, ∀ e' ∈ l, ∀ n, own e = some n → own e' = some n → e.1 = e'.1) ∧
      (∀ e ∈ l, ∀ e' ∈ l, ∀ n, own e = some n → n ∉ added e') := by
  rw [List.nodup_flatMap]
  have hmem {e : String × α} {n : String} :
      n ∈ added e ++ (own e).toList ↔ n ∈ added e ∨ own e = some n := by
    rw [List.mem_append, Option.mem_toList]
  constructor
  · rintro ⟨hsingle, hpairs⟩
    have hsymm : Std.Symm (Function.onFun List.Disjoint fun e => added e ++ (own e).toList) :=
      ⟨fun _ _ h => h.symm⟩
    have hapart : ∀ e ∈ l, ∀ e' ∈ l, e.1 ≠ e'.1 → ∀ n, (n ∈ added e ∨ own e = some n) →
        ¬ (n ∈ added e' ∨ own e' = some n) := by
      intro e he e' he' hne n hn hn'
      have hdisjoint := hpairs.forall he he' fun heq => hne (congrArg Prod.fst heq)
      exact hdisjoint (hmem.2 hn) (hmem.2 hn')
    refine ⟨fun e he => (List.nodup_append'.1 (hsingle e he)).1, ?_, ?_, ?_⟩
    · intro e he e' he' hne n hn hn'
      exact hapart e he e' he' hne n (.inl hn) (.inl hn')
    · intro e he e' he' n hn hn'
      by_contra hne
      exact hapart e he e' he' hne n (.inr hn) (.inr hn')
    · intro e he e' he' n hn hn'
      by_cases heq : e.1 = e'.1
      · obtain rfl := List.inj_on_of_nodup_map hkeys he he' heq
        exact (List.nodup_append'.1 (hsingle e he)).2.2 hn' (Option.mem_toList.2 hn)
      · exact hapart e he e' he' heq n (.inr hn) (.inl hn')
  · rintro ⟨hsingle, hadded, howns, hown⟩
    constructor
    · intro e he
      refine List.nodup_append'.2 ⟨hsingle e he, ?_, ?_⟩
      · cases own e with
        | none => exact List.nodup_nil
        | some n => exact List.nodup_singleton n
      · intro n hn hn'
        exact hown e he e he n (Option.mem_toList.1 hn') hn
    · refine (List.Nodup.of_map _ hkeys).pairwise_of_forall_ne fun e he e' he' hne n hn hn' => ?_
      have hkey : e.1 ≠ e'.1 := fun heq => hne (List.inj_on_of_nodup_map hkeys he he' heq)
      rcases hmem.1 hn with hn | hn <;> rcases hmem.1 hn' with hn' | hn'
      · exact hadded e he e' he' hkey hn hn'
      · exact hown e' he' e he n hn' hn
      · exact hown e he e' he' n hn hn'
      · exact hkey (howns e he e' he' n hn hn')

end Names

/-! ## 2. The fields of an interface -/

namespace Interface

/-- The parts of a compound type: its entries, then its accessors. -/
def partsOf (t : CustomType) : List String := t.expand.map (·.suffix) ++ t.accessors

/-- What a relation to one of several entities adds to its name. -/
def relationTails : List String := ["Type", "Id"]

/-- What the kind of a property adds to its name. -/
def tailsOf (p : Property) : List String :=
  match p.kind with
  | .association "MorphTo" _ _ => relationTails
  | _ => []

/-- The names of the parts of a property; only compound properties have some. -/
def partNames (config : Config) (name : String) (p : Property) : List String :=
  match Zod.compoundOf? config p with
  | some t => (partsOf t).map (partName name)
  | none => []

/-- The names that are added to a property. -/
def addedNames (config : Config) (name : String) (p : Property) : List String :=
  partNames config name p ++ (tailsOf p).map (name ++ ·)

/-- The own name of a property, unless it is compound. -/
def ownName? (config : Config) (name : String) (p : Property) : Option String :=
  if (Zod.compoundOf? config p).isSome then none else some name

/-- Only a relation to one of several entities adds something. -/
theorem tailsOf_eq_nil {p : Property}
    (h : ∀ target targets, p.kind ≠ .association "MorphTo" target targets) : tailsOf p = [] := by
  unfold tailsOf
  split
  · rename_i hk
    exact absurd hk (h _ _)
  · rfl

/-- A property of a plugin's type is no relation. -/
theorem tailsOf_of_customType {config : Config} {p : Property} {t : CustomType}
    (h : customTypeOf? config p = some t) : tailsOf p = [] := by
  unfold customTypeOf? at h
  split at h
  · rename_i hk
    rw [tailsOf, hk]
  · exact nomatch h

section Expansion

variable (collection : Collection) {config : Config} (name : String) {p : Property}

/-- A compound property has a field for each of its parts. -/
theorem names_expandStrict_of_compound {t : CustomType} (h : Zod.compoundOf? config p = some t) :
    (expandStrict collection config name p).map (·.name) = (partsOf t).map (partName name) := by
  obtain ⟨htype, hcompound⟩ := compoundOf?_eq_some_iff.1 h
  simp [expandStrict, htype, hcompound, compoundFields, partsOf, entryField, accessorField,
    Function.comp_def]

/-- Any other has a field of its name, and a relation to one of several entities two in front. -/
theorem names_expandStrict_of_not_compound (h : Zod.compoundOf? config p = none) :
    (expandStrict collection config name p).map (·.name)
      = (tailsOf p).map (name ++ ·) ++ [name] := by
  cases ht : customTypeOf? config p with
  | some t =>
    simp only [expandStrict, ht, compound_eq_false h ht, Bool.false_eq_true, if_false,
      tailsOf_of_customType ht]
    rfl
  | none =>
    simp only [expandStrict, ht]
    split
    · rename_i hk
      rw [tailsOf, hk]
      rfl
    · rename_i hk
      rw [tailsOf_eq_nil hk]
      rfl

end Expansion

/-- **The names of the fields of a property.** -/
theorem names_expand (collection : Collection) (config : Config) (name : String) (p : Property) :
    (expand collection config name p).map (·.name)
      = addedNames config name p ++ (ownName? config name p).toList := by
  have hpolicy : ∀ fs : List InterfaceField,
      (fs.map (applyNullPolicy config.strictNullChecks)).map (·.name) = fs.map (·.name) := by
    intro fs
    rw [List.map_map]
    exact List.map_congr_left fun f _ => applyNullPolicy_name _ f
  rw [expand, hpolicy]
  unfold addedNames partNames ownName?
  cases h : Zod.compoundOf? config p with
  | some t =>
    have htails : tailsOf p = [] := tailsOf_of_customType (compoundOf?_eq_some_iff.1 h).1
    rw [names_expandStrict_of_compound collection name h, htails]
    simp
  | none =>
    rw [names_expandStrict_of_not_compound collection name h]
    rfl

/-! ## 3. Names that cannot meet -/

/-- Tails have a capital and no underscore; none ends another. -/
theorem relationTails_spec : ∀ tail ∈ relationTails,
    '_' ∉ tail.toList ∧ tail.toList.any Text.isCapital = true ∧
      ∀ tail' ∈ relationTails, tail.toList <:+ tail'.toList → tail = tail' := by
  decide

theorem mem_relationTails_of_mem_tailsOf {p : Property} {tail : String} (h : tail ∈ tailsOf p) :
    tail ∈ relationTails := by
  unfold tailsOf at h
  split at h
  · exact h
  · exact nomatch h

/-- A name tells its tail, and then what is in front of it. -/
theorem eq_of_append_tail_eq {a b tail tail' : String} (h : tail ∈ relationTails)
    (h' : tail' ∈ relationTails) (heq : a ++ tail = b ++ tail') : a = b ∧ tail = tail' := by
  have hchars := congrArg String.toList heq
  rw [String.toList_append, String.toList_append] at hchars
  have hback := List.suffix_append a.toList tail.toList
  rw [hchars] at hback
  have htail : tail = tail' := by
    rcases List.suffix_or_suffix_of_suffix hback (List.suffix_append b.toList tail'.toList)
      with hends | hends
    · exact (relationTails_spec tail h).2.2 tail' h' hends
    · exact ((relationTails_spec tail' h').2.2 tail h hends).symm
  refine ⟨?_, htail⟩
  rw [htail] at hchars
  exact String.toList_inj.1 (List.append_cancel_right hchars)

/-- **A part is never named like the type or the key of a relation**: behind its underscore there
are no capitals. -/
theorem partName_ne_append_tail {a b part tail : String} (h : tail ∈ relationTails) :
    partName a part ≠ b ++ tail := by
  intro heq
  obtain ⟨hunderscore, hany, -⟩ := relationTails_spec tail h
  obtain ⟨c, hc, hcapital⟩ := List.any_eq_true.1 hany
  have hchars := congrArg String.toList heq
  rw [partName, String.toList_append, String.toList_append, String.toList_append,
    List.append_assoc] at hchars
  have hback := List.suffix_append a.toList ("_".toList ++ (Naming.snake part).toList)
  rw [hchars] at hback
  rcases List.suffix_or_suffix_of_suffix hback (List.suffix_append b.toList tail.toList)
    with hends | hends
  · exact hunderscore (hends.subset (List.mem_append_left _ List.mem_cons_self))
  · rcases List.mem_append.1 (hends.subset hc) with hmem | hmem
    · obtain rfl : c = '_' := List.mem_singleton.1 hmem
      exact hunderscore hc
    · rw [(Naming.settled_of_mem_snake c hmem).isCapital] at hcapital
      cases hcapital

/-- The names of the key and of the time stamps have no capitals. -/
theorem isCapital_of_mem_generatedNames {s : Schema} {n : String}
    (h : n ∈ Output.generatedNames s) : ∀ c ∈ n.toList, Text.isCapital c = false := by
  have hexcluded : n ∈ Zod.excludedList {} s := Output.mem_excludedList_iff.2 (.inl h)
  intro c hc
  exact (Output.settled_of_mem_excludedList hexcluded c hc).isCapital

theorem append_tail_not_mem_generatedNames {s : Schema} {a tail : String}
    (h : tail ∈ relationTails) : a ++ tail ∉ Output.generatedNames s := by
  intro hmem
  obtain ⟨c, hc, hcapital⟩ := List.any_eq_true.1 (relationTails_spec tail h).2.1
  have hsmall := isCapital_of_mem_generatedNames hmem c (by
    rw [String.toList_append]
    exact List.mem_append_right _ hc)
  rw [hsmall] at hcapital
  cases hcapital

theorem nodup_generatedNames (s : Schema) : (Output.generatedNames s).Nodup := by
  unfold Output.generatedNames
  cases s.options.id <;> cases s.options.timestamps <;> cases s.options.softDelete <;> decide

/-! ## 4. Distinct fields of an interface -/

/-- What has to be kept apart for the fields of an interface to be distinct. -/
structure NamesApart (config : Config) (s : Schema) : Prop where
  /-- The parts of one compound property. -/
  parts : ∀ e ∈ s.properties, (partNames config e.1 e.2).Nodup
  /-- The parts of different compound properties. -/
  compounds : ∀ e ∈ s.properties, ∀ e' ∈ s.properties, e.1 ≠ e'.1 →
    (partNames config e.1 e.2).Disjoint (partNames config e'.1 e'.2)
  /-- A property that is not compound from what is added to a property: the parts of a compound
  one, the type and the key of a relation. -/
  own : ∀ e ∈ s.properties, Zod.compoundOf? config e.2 = none →
    ∀ e' ∈ s.properties, e.1 ∉ addedNames config e'.1 e'.2
  /-- A property that is not compound from the key and the time stamps of the entity. -/
  generated : ∀ e ∈ s.properties, Zod.compoundOf? config e.2 = none →
    e.1 ∉ Output.generatedNames s
  /-- The parts of a compound property from the key and the time stamps. -/
  generatedParts : ∀ e ∈ s.properties,
    (partNames config e.1 e.2).Disjoint (Output.generatedNames s)

variable {collection : Collection} {config : Config} {s : Schema}

/-- The fields of an interface, up to their order. -/
theorem fieldNames_perm (collection : Collection) (config : Config) (s : Schema) :
    (ofSchema collection config s).fieldNames.Perm
      (Output.generatedNames s ++ s.properties.flatMap fun e =>
        addedNames config e.1 e.2 ++ (ownName? config e.1 e.2).toList) := by
  have hnames : (s.properties.flatMap fun e => expand collection config e.1 e.2).map (·.name)
      = s.properties.flatMap fun e =>
          addedNames config e.1 e.2 ++ (ownName? config e.1 e.2).toList := by
    rw [List.map_flatMap]
    simp only [names_expand]
  have hkey : (if s.options.id then
      [(⟨"id", TypeExpr.primaryKey s.options.idType, false, config.isReadonly,
        some "Primary key"⟩ : InterfaceField)] else []).map (·.name)
        = if s.options.id then ["id"] else [] := by
    split <;> rfl
  have hstamps : (if s.options.timestamps then
      [stampField config "created_at" "Creation timestamp",
       stampField config "updated_at" "Last update timestamp"] else []).map (·.name)
        = if s.options.timestamps then ["created_at", "updated_at"] else [] := by
    split <;> rfl
  have hdeleted : (if s.options.softDelete then
      [stampField config "deleted_at" "Soft delete timestamp"] else []).map (·.name)
        = if s.options.softDelete then ["deleted_at"] else [] := by
    split <;> rfl
  simp only [fieldNames, ofSchema, fieldsOf, List.map_append, hnames, hkey, hstamps, hdeleted,
    Output.generatedNames, List.append_assoc]
  refine List.Perm.append_left _ ?_
  rw [← List.append_assoc (if s.options.timestamps then _ else _)]
  exact List.perm_append_comm.trans (by rw [List.append_assoc])

theorem ownName?_eq_some_iff {name n : String} {p : Property} :
    ownName? config name p = some n ↔ Zod.compoundOf? config p = none ∧ name = n := by
  unfold ownName?
  cases Zod.compoundOf? config p with
  | none => simp
  | some t => simp

theorem mem_addedNames_iff {name n : String} {p : Property} :
    n ∈ addedNames config name p ↔
      n ∈ partNames config name p ∨ ∃ tail ∈ tailsOf p, name ++ tail = n := by
  rw [addedNames, List.mem_append, List.mem_map]

theorem exists_part_of_mem_partNames {name n : String} {p : Property}
    (h : n ∈ partNames config name p) : ∃ part, partName name part = n := by
  unfold partNames at h
  split at h
  · obtain ⟨part, -, rfl⟩ := List.mem_map.1 h
    exact ⟨part, rfl⟩
  · exact nomatch h

/-- Tails are distinct, and none is a part. -/
theorem nodup_addedNames_iff {name : String} {p : Property} :
    (addedNames config name p).Nodup ↔ (partNames config name p).Nodup := by
  rw [addedNames, List.nodup_append']
  refine ⟨fun h => h.1, fun h => ⟨h, ?_, ?_⟩⟩
  · refine (List.nodup_map_iff_inj_on ?_).2 ?_
    · unfold tailsOf
      split
      · decide
      · exact List.nodup_nil
    · intro a ha b hb heq
      exact (eq_of_append_tail_eq (mem_relationTails_of_mem_tailsOf ha)
        (mem_relationTails_of_mem_tailsOf hb) heq).2
  · intro n hpart htail
    obtain ⟨part, rfl⟩ := exists_part_of_mem_partNames hpart
    obtain ⟨tail, htail, heq⟩ := List.mem_map.1 htail
    exact partName_ne_append_tail (mem_relationTails_of_mem_tailsOf htail) heq.symm

/-- What is added to different properties meets in parts alone. -/
theorem disjoint_addedNames_iff {name name' : String} (hne : name ≠ name') {p p' : Property} :
    (addedNames config name p).Disjoint (addedNames config name' p') ↔
      (partNames config name p).Disjoint (partNames config name' p') := by
  refine ⟨fun h n hn hn' => ?_, fun h n hn hn' => ?_⟩
  · exact h (mem_addedNames_iff.2 (.inl hn)) (mem_addedNames_iff.2 (.inl hn'))
  · rcases mem_addedNames_iff.1 hn with hn | ⟨tail, htail, rfl⟩
    · rcases mem_addedNames_iff.1 hn' with hn' | ⟨tail', htail', rfl⟩
      · exact h hn hn'
      · obtain ⟨part, heq⟩ := exists_part_of_mem_partNames hn
        exact partName_ne_append_tail (mem_relationTails_of_mem_tailsOf htail') heq
    · replace htail := mem_relationTails_of_mem_tailsOf htail
      rcases mem_addedNames_iff.1 hn' with hn' | ⟨tail', htail', heq⟩
      · obtain ⟨part, heq⟩ := exists_part_of_mem_partNames hn'
        exact partName_ne_append_tail htail heq
      · exact hne (eq_of_append_tail_eq (mem_relationTails_of_mem_tailsOf htail') htail heq).1.symm

/-- **The fields of an interface are distinct exactly if nothing meets that has to be apart.** -/
theorem fieldNames_nodup_iff (hkeys : (s.properties.map (·.1)).Nodup) :
    (ofSchema collection config s).fieldNames.Nodup ↔ NamesApart config s := by
  rw [(fieldNames_perm collection config s).nodup_iff, List.nodup_append', nodup_names_iff hkeys]
  constructor
  · rintro ⟨-, ⟨hsingle, hadded, -, hown⟩, hgenerated⟩
    have hfree : ∀ e ∈ s.properties, ∀ n, (n ∈ addedNames config e.1 e.2 ∨
        ownName? config e.1 e.2 = some n) → n ∉ Output.generatedNames s := by
      intro e he n hn hmem
      refine hgenerated hmem (List.mem_flatMap.2 ⟨e, he, ?_⟩)
      rwa [List.mem_append, Option.mem_toList]
    constructor
    case parts => exact fun e he => nodup_addedNames_iff.1 (hsingle e he)
    case compounds =>
      intro e he e' he' hne
      exact (disjoint_addedNames_iff hne).1 (hadded e he e' he' hne)
    case own =>
      intro e he hc e' he'
      exact hown e he e' he' e.1 (ownName?_eq_some_iff.2 ⟨hc, rfl⟩)
    case generated =>
      intro e he hc
      exact hfree e he e.1 (.inr (ownName?_eq_some_iff.2 ⟨hc, rfl⟩))
    case generatedParts =>
      intro e he n hn
      exact hfree e he n (.inl (mem_addedNames_iff.2 (.inl hn)))
  · intro h
    refine ⟨nodup_generatedNames s, ⟨?_, ?_, ?_, ?_⟩, ?_⟩
    · exact fun e he => nodup_addedNames_iff.2 (h.parts e he)
    · intro e he e' he' hne
      exact (disjoint_addedNames_iff hne).2 (h.compounds e he e' he' hne)
    · intro e he e' he' n hn hn'
      exact (ownName?_eq_some_iff.1 hn).2.trans (ownName?_eq_some_iff.1 hn').2.symm
    · intro e he e' he' n hn
      obtain ⟨hc, rfl⟩ := ownName?_eq_some_iff.1 hn
      exact h.own e he hc e' he'
    · intro n hn hmem
      obtain ⟨e, he, hmem⟩ := List.mem_flatMap.1 hmem
      rcases List.mem_append.1 hmem with hmem | hmem
      · rcases mem_addedNames_iff.1 hmem with hmem | ⟨tail, htail, rfl⟩
        · exact h.generatedParts e he hmem hn
        · exact append_tail_not_mem_generatedNames (mem_relationTails_of_mem_tailsOf htail) hn
      · obtain ⟨hc, rfl⟩ := ownName?_eq_some_iff.1 (Option.mem_toList.1 hmem)
        exact h.generated e he hc hn

end Interface

/-! ## 5. Distinct validators -/

namespace Zod

/-- The names of the entries of a compound property. -/
def entryNames (config : Config) (name : String) (p : Property) : List String :=
  match compoundOf? config p with
  | some t => t.expand.map fun x => partName name x.suffix
  | none => []

/-- The property has a validator under its own name. -/
def isSingle (config : Config) (p : Property) : Bool :=
  (compoundOf? config p).isNone && isValidated config p

/-- The name of the validator of a property that has one under its own name. -/
def ownName? (config : Config) (name : String) (p : Property) : Option String :=
  if isSingle config p then some (Naming.snake name) else none

/-- **The names of the validators of a property.** -/
theorem names_fieldsOfProperty (config : Config) (name : String) (p : Property) :
    (fieldsOfProperty config name p).map (·.name)
      = entryNames config name p ++ (ownName? config name p).toList := by
  unfold entryNames ownName? isSingle
  cases hc : compoundOf? config p with
  | some t => simp [fieldsOfProperty, hc, compoundFields, Function.comp_def]
  | none =>
    cases hv : isValidated config p with
    | false =>
      rw [fieldsOfProperty_eq_nil hv]
      rfl
    | true =>
      obtain ⟨e, he, -⟩ := exists_pairing_of_single {} hv
      simp [fieldsOfProperty, hc, he]

/-- What has to be kept apart for the validators of an entity to be distinct. -/
structure NamesApart (config : Config) (s : Schema) : Prop where
  /-- The entries of one compound property. -/
  entries : ∀ e ∈ s.properties, (entryNames config e.1 e.2).Nodup
  /-- The entries of different compound properties. -/
  compounds : ∀ e ∈ s.properties, ∀ e' ∈ s.properties, e.1 ≠ e'.1 →
    (entryNames config e.1 e.2).Disjoint (entryNames config e'.1 e'.2)
  /-- The snake forms of properties with a validator under their own name. -/
  singles : ∀ e ∈ s.properties, isSingle config e.2 = true →
    ∀ e' ∈ s.properties, isSingle config e'.2 = true →
      Naming.snake e.1 = Naming.snake e'.1 → e.1 = e'.1
  /-- These snake forms from the entries of compound properties. -/
  own : ∀ e ∈ s.properties, isSingle config e.2 = true →
    ∀ e' ∈ s.properties, Naming.snake e.1 ∉ entryNames config e'.1 e'.2

variable {collection : Collection} {config : Config} {s : Schema}

theorem ownName?_eq_some_iff {name n : String} {p : Property} :
    ownName? config name p = some n ↔ isSingle config p = true ∧ Naming.snake name = n := by
  unfold ownName?
  cases isSingle config p with
  | false => simp
  | true => simp

/-- **The validators of an entity are distinct exactly if nothing meets that has to be apart.** -/
theorem names_nodup_iff (hkeys : (s.properties.map (·.1)).Nodup) :
    ((fieldsOf config s).map (·.name)).Nodup ↔ NamesApart config s := by
  have hnames : (fieldsOf config s).map (·.name) = s.properties.flatMap fun e =>
      entryNames config e.1 e.2 ++ (ownName? config e.1 e.2).toList := by
    rw [fieldsOf, List.map_flatMap]
    simp only [names_fieldsOfProperty]
  rw [hnames, nodup_names_iff hkeys]
  constructor
  · rintro ⟨hentries, hcompounds, hsingles, hown⟩
    refine ⟨hentries, hcompounds, ?_, ?_⟩
    · intro e he hsingle e' he' hsingle' heq
      exact hsingles e he e' he' _ (ownName?_eq_some_iff.2 ⟨hsingle, rfl⟩)
        (ownName?_eq_some_iff.2 ⟨hsingle', heq.symm⟩)
    · intro e he hsingle e' he'
      exact hown e he e' he' _ (ownName?_eq_some_iff.2 ⟨hsingle, rfl⟩)
  · rintro ⟨hentries, hcompounds, hsingles, hown⟩
    refine ⟨hentries, hcompounds, ?_, ?_⟩
    · intro e he e' he' n hn hn'
      obtain ⟨hsingle, rfl⟩ := ownName?_eq_some_iff.1 hn
      obtain ⟨hsingle', heq⟩ := ownName?_eq_some_iff.1 hn'
      exact hsingles e he hsingle e' he' hsingle' heq.symm
    · intro e he e' he' n hn
      obtain ⟨hsingle, rfl⟩ := ownName?_eq_some_iff.1 hn
      exact hown e he hsingle e' he'

end Zod

/-! ## 6. Distinct fields of an entity -/

/-- When the fields of an entity are distinct, and when its validators are. -/
structure DistinctFields (collection : Collection) (config : Config) (s : Schema) : Prop where
  interface : (Interface.ofSchema collection config s).fieldNames.Nodup ↔
    Interface.NamesApart config s
  validators : ((Zod.fieldsOf config s).map (·.name)).Nodup ↔ Zod.NamesApart config s

/-- **The fields of an entity are distinct, and its validators are, exactly if the names that its
properties give to them are apart.**  The properties of an entity are a dictionary. -/
theorem distinctFields (collection : Collection) (config : Config) (s : Schema)
    (hkeys : (s.properties.map (·.1)).Nodup) : DistinctFields collection config s :=
  ⟨Interface.fieldNames_nodup_iff hkeys, Zod.names_nodup_iff hkeys⟩

/-- A text property. -/
def textProperty : Property := { tag := "String", kind := .primitive }

/-- An entity with a property that is called like its key. -/
def keyedUser : Schema := { name := "User", properties := [("id", textProperty)] }

/-- An entity with two spellings of one name. -/
def spelledUser : Schema :=
  { name := "Person", properties := [("firstName", textProperty), ("first_name", textProperty)] }

/-- The properties of both are dictionaries, so that the conditions decide. -/
theorem distinctFields_spelledUser :
    (spelledUser.properties.map (·.1)).Nodup ∧
      DistinctFields ⟨[keyedUser, spelledUser]⟩ {} spelledUser :=
  ⟨by decide, distinctFields ⟨[keyedUser, spelledUser]⟩ {} spelledUser (by decide)⟩

/-- Nothing is wrong with a snapshot of the two, but the interface of one has two fields of one
name, and the validators of the other have. -/
theorem fields_shared_unnoticed :
    Check.problems ⟨[keyedUser, spelledUser]⟩ {} = [] ∧
      keyedUser ∈ Output.visibleSchemas ⟨[keyedUser, spelledUser]⟩ ∧
      spelledUser ∈ Output.visibleSchemas ⟨[keyedUser, spelledUser]⟩ ∧
      ¬ (Interface.ofSchema ⟨[keyedUser, spelledUser]⟩ {} keyedUser).fieldNames.Nodup ∧
      ¬ ((Zod.fieldsOf {} spelledUser).map (·.name)).Nodup := by
  refine ⟨by decide, ?_, ?_, by decide, by decide⟩
  · exact List.mem_cons_self
  · exact List.mem_cons_of_mem _ List.mem_cons_self

end SchemaTypes
