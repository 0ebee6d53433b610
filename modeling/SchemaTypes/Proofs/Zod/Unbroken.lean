/-
# Validators on one line

A chain is printed on one line if the texts in its methods are (`Expr.IsUnbroken.text`): names of
enumerations, values, affixes and patterns.  All numbers are numerals and all other texts are fixed,
so the validators of a snapshot on one line are on one line each (`isUnbroken_fieldsOf`).
-/
import SchemaTypes.Proofs.Number.Literal
import SchemaTypes.Proofs.Unbroken
import SchemaTypes.Zod.Entity

namespace SchemaTypes

open Text (Unbroken unbroken_append unbroken_between unbroken_intercalate)

theorem IsNumeral.unbroken {s : String} (h : IsNumeral s) : Unbroken s := fun hm =>
  absurd (h _ hm) (by decide)

namespace Zod

/-! ## 1. Chains -/

/-- The names and values of a base are on one line. -/
def Base.IsUnbroken : Base → Prop
  | .nativeEnum name => Unbroken name
  | .enum values => ∀ v ∈ values, Unbroken v
  | .given text => Unbroken text
  | .string | .number | .boolean | .unknown => True

/-- The texts of a method are on one line. -/
def Call.IsUnbroken : Call → Prop
  | .regex body message => Unbroken body ∧ ∀ m ∈ message, Unbroken m
  | .startsWith t | .endsWith t => Unbroken t
  | .ip version => ∀ v ∈ version, Unbroken v
  | _ => True

/-- The texts of a chain are on one line. -/
structure Expr.IsUnbroken (e : Expr) : Prop where
  base : e.base.IsUnbroken
  calls : ∀ c ∈ e.calls, c.IsUnbroken

theorem Base.IsUnbroken.text {b : Base} (h : b.IsUnbroken) : Unbroken b.text := by
  cases b with
  | nativeEnum name => exact unbroken_between (by decide) h (by decide)
  | enum values =>
    have hvalues : Unbroken (literals values) := TypeScript.unbroken_quotes (by decide) h
    exact unbroken_between (by decide) hvalues (by decide)
  | given text => exact h
  | string | number | boolean | unknown => decide

theorem unbroken_messageOption {m : String} (h : Unbroken m) : Unbroken (messageOption m) :=
  unbroken_between (by decide) h (by decide)

/-- **A method is printed on one line** if its texts are. -/
theorem Call.IsUnbroken.text {c : Call} (h : c.IsUnbroken) : Unbroken c.text := by
  cases c with
  | ip version =>
    cases version with
    | none => decide
    | some v => exact unbroken_between (by decide) (h v rfl) (by decide)
  | regex body message =>
    obtain ⟨hbody, hmessage⟩ := h
    cases message with
    | none => exact unbroken_between (by decide) hbody (by decide)
    | some m =>
      have hm := unbroken_messageOption (hmessage m rfl)
      exact unbroken_between (unbroken_between (by decide) hbody (by decide)) hm (by decide)
  | startsWith t | endsWith t =>
    exact unbroken_between (by decide) (TypeScript.unbroken_quote h) (by decide)
  | min n | max n => exact unbroken_between (by decide) (isNumeral_toString n).unbroken (by decide)
  | length n =>
    exact unbroken_between (by decide) (isNumeral_toString_nat n).unbroken (by decide)
  | gte b | lte b | gt b | lt b | multipleOf b =>
    exact unbroken_between (by decide) b.isNumeral_literal.unbroken (by decide)
  | email | url | uuid | date | time | datetime | int | positive | lowercase | uppercase | optional
  | nullable => decide

/-- **A chain is printed on one line** if its texts are. -/
theorem Expr.IsUnbroken.text {e : Expr} (h : e.IsUnbroken) : Unbroken e.text := by
  refine unbroken_append.2 ⟨h.base.text, ?_⟩
  refine Text.unbroken_join fun t ht => ?_
  obtain ⟨c, hc, rfl⟩ := List.mem_map.1 ht
  exact (h.calls c hc).text

theorem Expr.IsUnbroken.andAlso {e : Expr} (h : e.IsUnbroken) {cs : List Call}
    (hcs : ∀ c ∈ cs, c.IsUnbroken) : (e.andAlso cs).IsUnbroken :=
  ⟨h.base, List.forall_mem_append.2 ⟨h.calls, hcs⟩⟩

/-! ## 2. Rules -/

theorem forall_mem_callsOf {P : Call → Prop} {f : α → List Call} {o : Option α} :
    (∀ c ∈ callsOf f o, P c) ↔ ∀ a ∈ o, ∀ c ∈ f a, P c := by
  cases o <;> simp [callsOf]

theorem forall_mem_ite {P : Call → Prop} {b : Bool} {cs : List Call} :
    (∀ c ∈ if b then cs else [], P c) ↔ (b = true → ∀ c ∈ cs, P c) := by
  cases b <;> simp

theorem unbroken_nonEmptyAffixes {a : Option Affixes} (h : ∀ x ∈ a, x.IsUnbroken) :
    ∀ t ∈ nonEmptyAffixes a, Unbroken t := by
  intro t ht
  rcases a with _ | (s | xs)
  · exact nomatch ht
  · rw [List.mem_singleton.1 (List.mem_filter.1 ht).1]
    exact h (.one s) rfl
  · exact h (.many xs) rfl t (List.mem_filter.1 ht).1

variable {values : List String}

theorem unbroken_alternation (h : ∀ v ∈ values, Unbroken v) : Unbroken (alternation values) := by
  have hparts : Unbroken (String.intercalate "|" (values.map TypeScript.escapeRegex)) := by
    refine unbroken_intercalate (by decide) fun t ht => ?_
    obtain ⟨v, hv, rfl⟩ := List.mem_map.1 ht
    exact TypeScript.unbroken_escapeRegex (h v hv)
  exact unbroken_between (by decide) hparts (by decide)

theorem unbroken_listing (h : ∀ v ∈ values, Unbroken v) : Unbroken (listing values) :=
  TypeScript.unbroken_escapeString (unbroken_intercalate (by decide) h)

/-- A pattern with a message. -/
theorem isUnbroken_regex {body message : String} (hbody : Unbroken body)
    (hmessage : Unbroken message) : (Call.regex body (some message)).IsUnbroken :=
  ⟨hbody, forall_mem_some.2 hmessage⟩

theorem isUnbroken_startCalls (h : ∀ v ∈ values, Unbroken v) :
    ∀ c ∈ startCalls values, c.IsUnbroken := by
  have halternation := unbroken_alternation h
  have hmessage {note : String} (hnote : Unbroken note) : Unbroken (note ++ listing values) :=
    unbroken_append.2 ⟨hnote, unbroken_listing h⟩
  rcases values with _ | ⟨v, _ | ⟨w, rest⟩⟩
  · exact fun c hc => nomatch hc
  · exact List.forall_mem_singleton.2 (h v List.mem_cons_self)
  · refine List.forall_mem_singleton.2 (isUnbroken_regex ?_ (hmessage (by decide)))
    exact unbroken_append.2 ⟨by decide, halternation⟩

theorem isUnbroken_endCalls (h : ∀ v ∈ values, Unbroken v) :
    ∀ c ∈ endCalls values, c.IsUnbroken := by
  have halternation := unbroken_alternation h
  have hmessage {note : String} (hnote : Unbroken note) : Unbroken (note ++ listing values) :=
    unbroken_append.2 ⟨hnote, unbroken_listing h⟩
  rcases values with _ | ⟨v, _ | ⟨w, rest⟩⟩
  · exact fun c hc => nomatch hc
  · exact List.forall_mem_singleton.2 (h v List.mem_cons_self)
  · refine List.forall_mem_singleton.2 (isUnbroken_regex ?_ (hmessage (by decide)))
    exact unbroken_append.2 ⟨halternation, by decide⟩

theorem isUnbroken_classCalls (r : RuleSet) : ∀ c ∈ classCalls r, c.IsUnbroken := by
  simp only [classCalls, List.forall_mem_append, forall_mem_ite, List.forall_mem_singleton]
  refine ⟨⟨⟨?_, ?_⟩, ?_⟩, ?_⟩ <;>
    exact fun _ =>
      isUnbroken_regex (Text.unbroken_chars (by decide)) (Text.unbroken_chars (by decide))

theorem isUnbroken_digitsCalls (n : Nat) : ∀ c ∈ digitsCalls n, c.IsUnbroken := by
  have hn := (isNumeral_toString_nat n).unbroken
  refine List.forall_mem_cons.2 ⟨trivial, List.forall_mem_singleton.2 ?_⟩
  exact isUnbroken_regex (by decide) (unbroken_between (by decide) hn (by decide))

theorem isUnbroken_digitsBetweenCalls (p : Int × Int) :
    ∀ c ∈ digitsBetweenCalls p, c.IsUnbroken := by
  have hleast := (isNumeral_toString p.1).unbroken
  have hgreatest := (isNumeral_toString p.2).unbroken
  refine List.forall_mem_cons.2 ⟨trivial, List.forall_mem_cons.2 ⟨trivial, ?_⟩⟩
  refine List.forall_mem_singleton.2 (isUnbroken_regex (by decide) ?_)
  exact unbroken_between (unbroken_between (by decide) hleast (by decide)) hgreatest (by decide)

theorem isUnbroken_textCalls {r : RuleSet} (h : r.IsUnbroken) :
    ∀ c ∈ textCalls r, c.IsUnbroken := by
  have hstart := isUnbroken_startCalls (unbroken_nonEmptyAffixes h.startsWith)
  have hend := isUnbroken_endCalls (unbroken_nonEmptyAffixes h.endsWith)
  simp only [textCalls, List.forall_mem_append, forall_mem_callsOf, forall_mem_ite,
    List.forall_mem_singleton]
  exact ⟨⟨⟨⟨⟨⟨⟨⟨fun _ _ => trivial, fun _ _ => trivial⟩, isUnbroken_classCalls r⟩,
    fun n _ => isUnbroken_digitsCalls n⟩, fun p _ => isUnbroken_digitsBetweenCalls p⟩, hstart⟩,
    hend⟩, fun _ => trivial⟩, fun _ => trivial⟩

theorem isUnbroken_numberCalls (r : RuleSet) : ∀ c ∈ numberCalls r, c.IsUnbroken := by
  simp [numberCalls, forall_mem_callsOf, or_imp, forall_and, Call.IsUnbroken]

theorem isUnbroken_formatOf? {r : RuleSet} : ∀ e ∈ formatOf? r, e.IsUnbroken := by
  have hformat (c : Call) (h : c.IsUnbroken) : Expr.IsUnbroken ⟨.string, [c]⟩ :=
    ⟨trivial, List.forall_mem_singleton.2 h⟩
  intro e he
  unfold formatOf? at he
  split at he
  · exact Option.some.inj he ▸ hformat .url trivial
  split at he
  · exact Option.some.inj he ▸ hformat .uuid trivial
  split at he
  · exact Option.some.inj he ▸ hformat (.ip none) (fun _ h => nomatch h)
  split at he
  · exact Option.some.inj he ▸ hformat (.ip (some "v4")) (by simp +decide [Call.IsUnbroken])
  split at he
  · exact Option.some.inj he ▸ hformat (.ip (some "v6")) (by simp +decide [Call.IsUnbroken])
  · exact nomatch he

theorem isUnbroken_applyRules {e : Expr} (he : e.IsUnbroken) {rules : Option RuleSet}
    (h : ∀ r ∈ rules, r.IsUnbroken) (tag : String) : (applyRules e rules tag).IsUnbroken := by
  cases rules with
  | none => exact he
  | some r =>
    have hstart : ((formatOf? r).getD e).IsUnbroken := by
      cases hf : formatOf? r with
      | none => exact he
      | some f => exact isUnbroken_formatOf? f hf
    refine hstart.andAlso (List.forall_mem_append.2 ⟨?_, ?_⟩)
    · exact forall_mem_ite.2 fun _ => isUnbroken_textCalls (h r rfl)
    · exact forall_mem_ite.2 fun _ => isUnbroken_numberCalls r

/-! ## 3. Properties -/

theorem isUnbroken_patternCalls {pattern : Option String} (h : ∀ t ∈ pattern, Unbroken t) :
    ∀ c ∈ patternCalls pattern, c.IsUnbroken := by
  rw [patternCalls, forall_mem_callsOf]
  intro t ht
  refine List.forall_mem_singleton.2 ⟨h t (Option.filter_eq_some_iff.1 ht).1, ?_⟩
  exact fun _ hm => nomatch hm

theorem isUnbroken_absentCalls (nullable : Bool) : ∀ c ∈ absentCalls nullable, c.IsUnbroken := by
  cases nullable <;> simp [absentCalls, Call.IsUnbroken]

/-- Methods with a number as their only argument. -/
theorem isUnbroken_max (n : Option Nat) :
    ∀ c ∈ callsOf (fun n => [.max (Int.ofNat n)]) n, c.IsUnbroken :=
  forall_mem_callsOf.2 fun _ _ => List.forall_mem_singleton.2 trivial

theorem isUnbroken_min (n : Option Nat) :
    ∀ c ∈ callsOf (fun n => [.min (Int.ofNat n)]) n, c.IsUnbroken :=
  forall_mem_callsOf.2 fun _ _ => List.forall_mem_singleton.2 trivial

variable {config : Config} {p : Property} {e : Expr}

theorem isUnbroken_lowerCalls (p : Property) : ∀ c ∈ lowerCalls p, c.IsUnbroken := by
  unfold lowerCalls
  split
  · exact List.forall_mem_singleton.2 trivial
  · exact isUnbroken_min _

theorem isUnbroken_boundCalls (p : Property) : ∀ c ∈ boundCalls p, c.IsUnbroken := by
  simp [boundCalls, forall_mem_callsOf, or_imp, forall_and, Call.IsUnbroken]

theorem isUnbroken_ofPrimitive? : ∀ e ∈ ofPrimitive? p, e.IsUnbroken := by
  have hfixed : ∀ f ∈ fixedValidators, f.2.IsUnbroken := by
    have hcalls : ∀ f ∈ fixedValidators, ∀ c ∈ f.2.calls, c.IsUnbroken := by
      simp [fixedValidators, Call.IsUnbroken]
    have hbases : ∀ f ∈ fixedValidators, f.2.base.IsUnbroken := by
      simp [fixedValidators, Base.IsUnbroken]
    exact fun f hf => ⟨hbases f hf, hcalls f hf⟩
  intro e he
  unfold ofPrimitive? at he
  split at he
  · exact Option.some.inj he ▸ ⟨trivial, List.forall_mem_cons.2 ⟨trivial, isUnbroken_max _⟩⟩
  split at he
  · exact Option.some.inj he ▸
      ⟨trivial, List.forall_mem_append.2 ⟨isUnbroken_lowerCalls p, isUnbroken_max _⟩⟩
  split at he
  · exact Option.some.inj he ▸ ⟨trivial, isUnbroken_boundCalls p⟩
  split at he
  · exact Option.some.inj he ▸
      ⟨trivial, List.forall_mem_cons.2 ⟨trivial, isUnbroken_boundCalls p⟩⟩
  · exact hfixed _ (Dictionary.mem_of_lookup he)

theorem isUnbroken_ofValues {values : List EnumValue} (h : ∀ v ∈ values, v.IsUnbroken) :
    (ofValues values).IsUnbroken := by
  unfold ofValues
  split
  · exact ⟨trivial, fun _ hc => nomatch hc⟩
  · refine ⟨fun t ht => ?_, fun _ hc => nomatch hc⟩
    obtain ⟨v, hv, rfl⟩ := List.mem_map.1 ht
    exact (h v hv).value

theorem isUnbroken_finish (hp : p.IsUnbroken) (he : e.IsUnbroken) : (finish p e).IsUnbroken :=
  (isUnbroken_applyRules he hp.rules _).andAlso
    (List.forall_mem_append.2 ⟨isUnbroken_patternCalls hp.pattern, isUnbroken_absentCalls _⟩)

/-- **The validator of a property is on one line** if the property is. -/
theorem isUnbroken_ofProperty? (hp : p.IsUnbroken) :
    ∀ e ∈ ofProperty? config p, e.IsUnbroken := by
  intro e he
  have hkind := hp.kind
  unfold ofProperty? at he
  split at he
  · exact nomatch he
  · exact nomatch he
  · obtain ⟨t, -, rfl⟩ := Option.map_eq_some_iff.1 he
    exact ⟨trivial, List.forall_mem_append.2 ⟨isUnbroken_max _, isUnbroken_absentCalls _⟩⟩
  · rename_i enum hk
    rw [hk] at hkind
    exact Option.some.inj he ▸ isUnbroken_finish hp ⟨hkind, fun _ hc => nomatch hc⟩
  · rename_i values hk
    rw [hk] at hkind
    exact Option.some.inj he ▸ isUnbroken_finish hp (isUnbroken_ofValues hkind)
  · rename_i options hk
    rw [hk] at hkind
    exact Option.some.inj he ▸ isUnbroken_finish hp (isUnbroken_ofValues hkind)
  · obtain ⟨f, hf, rfl⟩ := Option.map_eq_some_iff.1 he
    exact isUnbroken_finish hp (isUnbroken_ofPrimitive? f hf)

/-! ## 4. Fields of compound types -/

theorem isUnbroken_ofFormat (format : Option String) : (ofFormat format).IsUnbroken := by
  unfold ofFormat
  split
  · exact ⟨trivial, List.forall_mem_singleton.2 trivial⟩
  · exact ⟨trivial, List.forall_mem_singleton.2 trivial⟩
  · refine ⟨trivial, List.forall_mem_singleton.2 ⟨by decide, ?_⟩⟩
    exact fun _ hm => nomatch hm
  · exact ⟨trivial, fun _ hc => nomatch hc⟩

/-- A pattern comes from the override or from the plugin. -/
theorem unbroken_rulePattern {entry : CompoundEntry} (hp : p.IsUnbroken)
    (hentry : entry.IsUnbroken) : ∀ t ∈ ruleSetting p entry (·.pattern), Unbroken t := by
  intro t ht
  rw [ruleSetting] at ht
  cases hown : ((p.overrides.lookup entry.suffix).bind (·.rules)).bind (·.pattern) with
  | some own =>
    rw [hown] at ht
    obtain ⟨r, hr, hpattern⟩ := Option.bind_eq_some_iff.1 hown
    obtain ⟨o, ho, hrules⟩ := Option.bind_eq_some_iff.1 hr
    have hpatterns := (hp.overrides _ (Dictionary.mem_of_lookup ho) r hrules).pattern
    exact Option.some.inj ht ▸ hpatterns own hpattern
  | none =>
    rw [hown] at ht
    obtain ⟨r, hr, hpattern⟩ := Option.bind_eq_some_iff.1 ht
    exact (hentry.rules r hr).pattern t hpattern

theorem isUnbroken_ofEntry {entry : CompoundEntry} (hp : p.IsUnbroken)
    (hentry : entry.IsUnbroken) : (ofEntry p entry).IsUnbroken := by
  have hlower : ∀ c ∈ entryLowerCalls p entry, c.IsUnbroken := by
    unfold entryLowerCalls
    split
    · exact isUnbroken_min _
    · exact List.forall_mem_singleton.2 trivial
  have hpattern : ∀ c ∈ if (entryFormat p entry).isSome then []
      else patternCalls (ruleSetting p entry (·.pattern)), c.IsUnbroken := by
    split
    · exact fun _ hc => nomatch hc
    · exact isUnbroken_patternCalls (unbroken_rulePattern hp hentry)
  refine (isUnbroken_ofFormat _).andAlso ?_
  simp only [List.forall_mem_append]
  exact ⟨⟨⟨hlower, isUnbroken_max _⟩, hpattern⟩, isUnbroken_absentCalls _⟩

/-! ## 5. Entities -/

/-- The printed texts of a field are on one line. -/
structure Field.IsUnbroken (f : Field) : Prop where
  name : Unbroken f.name
  schema : f.schema.IsUnbroken
  comment : ∀ c ∈ f.comment, Unbroken c

theorem unbroken_partName {name part : String} (hname : Unbroken name) (hpart : Unbroken part) :
    Unbroken (partName name part) :=
  unbroken_between (Naming.unbroken_snake hname) (by decide) (Naming.unbroken_snake hpart)

theorem isUnbroken_customTypeOf? (hconfig : config.IsUnbroken) :
    ∀ t ∈ Interface.customTypeOf? config p, t.IsUnbroken := by
  intro t ht
  unfold Interface.customTypeOf? at ht
  split at ht
  · exact hconfig.customTypes _ (Dictionary.mem_of_lookup ht)
  · exact nomatch ht

theorem isUnbroken_fieldsOfProperty (hconfig : config.IsUnbroken) {name : String}
    (hname : Unbroken name) (hp : p.IsUnbroken) :
    ∀ f ∈ fieldsOfProperty config name p, f.IsUnbroken := by
  intro f hf
  unfold fieldsOfProperty at hf
  split at hf
  · rename_i t ht
    have htype := isUnbroken_customTypeOf? hconfig t (Option.filter_eq_some_iff.1 ht).1
    obtain ⟨e, he, rfl⟩ := List.mem_map.1 hf
    have hentry := htype.expand e he
    have hlabel : Unbroken (commentLabel config name p) :=
      ImportPaths.unbroken_getD (Locale.unbroken_lookup_perLocale hp.displayName
        (forall_mem_some.2 hname) _ _ _) hname
    refine ⟨unbroken_partName hname hentry.suffix, isUnbroken_ofEntry hp hentry, fun c hc => ?_⟩
    obtain rfl := Option.some.inj hc
    exact unbroken_between (unbroken_append.2 ⟨hlabel, by decide⟩) hentry.suffix (by decide)
  · obtain ⟨e, he, rfl⟩ := Option.map_eq_some_iff.1 (Option.mem_toList.1 hf)
    exact ⟨Naming.unbroken_snake hname, isUnbroken_ofProperty? hp e he, fun _ hc => nomatch hc⟩

/-- **The validators of a schema are on one line** if the schema and the settings are. -/
theorem isUnbroken_fieldsOf (hconfig : config.IsUnbroken) {s : Schema} (hs : s.IsUnbroken) :
    ∀ f ∈ fieldsOf config s, f.IsUnbroken := by
  intro f hf
  obtain ⟨e, he, hf⟩ := List.mem_flatMap.1 hf
  obtain ⟨hname, hp⟩ := hs.properties e he
  exact isUnbroken_fieldsOfProperty hconfig hname hp f hf

theorem unbroken_excludedList (hconfig : config.IsUnbroken) {s : Schema} (hs : s.IsUnbroken) :
    ∀ n ∈ excludedList config s, Unbroken n := by
  have hcomputed : ∀ n ∈ computedFields config s, Unbroken n := by
    intro n hn
    obtain ⟨e, he, hn⟩ := List.mem_flatMap.1 hn
    split at hn
    · rename_i t ht
      obtain ⟨a, ha, rfl⟩ := List.mem_map.1 hn
      have htype := isUnbroken_customTypeOf? hconfig t ht
      exact unbroken_partName (hs.properties e he).1 (htype.accessors a ha)
    · exact nomatch hn
  have hfixed : ∀ (b : Bool) (names : List String), (∀ n ∈ names, Unbroken n) →
      ∀ n ∈ if b then names else [], Unbroken n := by
    intro b names h
    cases b
    · exact fun _ hn => nomatch hn
    · exact h
  simp only [excludedList, List.forall_mem_append]
  exact ⟨⟨⟨⟨hfixed _ _ (by decide), hfixed _ _ (by decide)⟩, hfixed _ _ (by decide)⟩,
    hfixed _ _ (by decide)⟩, hcomputed⟩

end Zod

end SchemaTypes
