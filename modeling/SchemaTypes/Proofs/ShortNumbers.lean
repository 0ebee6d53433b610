/-
# Short numbers

The files of an entity show numbers: lengths and bounds of its properties, their rule sets and what
the plugins supply.  Each number that is shown comes from one of these places or is one or zero, so
all of them are short if those in the entity and in the settings are (`isShort_of_mem_numbersOf`).
-/
import SchemaTypes.Output.Plan
import SchemaTypes.Proofs.Data.Dictionary

namespace SchemaTypes

open Numeral (IsShort)

/-! ## 1. Where numbers stand -/

/-- The number is short, if there is one. -/
def ShortNat (n : Option Nat) : Prop := ∀ i ∈ n, IsShort (Int.ofNat i)

/-- The bound is short, if there is one. -/
def ShortBound (b : Option Bound) : Prop := ∀ c ∈ b, c.IsShort

/-- The numbers of a rule set are short. -/
structure RuleSet.HasShortNumbers (r : RuleSet) : Prop where
  minLength : ShortNat r.minLength
  maxLength : ShortNat r.maxLength
  digits : ShortNat r.digits
  digitsBetween : ∀ p ∈ r.digitsBetween, IsShort p.1 ∧ IsShort p.2
  min : ShortBound r.min
  max : ShortBound r.max
  between : ∀ p ∈ r.between, p.1.IsShort ∧ p.2.IsShort
  gt : ShortBound r.gt
  lt : ShortBound r.lt
  multipleOf : ShortBound r.multipleOf

/-- The numbers in the override of an entry are short. -/
structure EntryOverride.HasShortNumbers (o : EntryOverride) : Prop where
  length : ShortNat o.length
  rules : ∀ r ∈ o.rules, r.HasShortNumbers

/-- The numbers of an entry are short. -/
structure CompoundEntry.HasShortNumbers (e : CompoundEntry) : Prop where
  length : ShortNat e.length
  rules : ∀ r ∈ e.rules, r.HasShortNumbers

/-- The numbers of a plugin type are short. -/
structure CustomType.HasShortNumbers (t : CustomType) : Prop where
  length : ShortNat t.length
  expand : ∀ e ∈ t.expand, e.HasShortNumbers

/-- The numbers of a property are short. -/
structure Property.HasShortNumbers (p : Property) : Prop where
  length : ShortNat p.length
  minLength : ShortNat p.minLength
  maxLength : ShortNat p.maxLength
  min : ShortBound p.min
  max : ShortBound p.max
  rules : ∀ r ∈ p.rules, r.HasShortNumbers
  overrides : ∀ o ∈ p.overrides, o.2.HasShortNumbers

theorem isShort_zero : IsShort 0 := by
  rw [IsShort, Nat.pow_eq]
  exact Nat.pow_pos (by decide)

theorem isShort_one : IsShort 1 := by
  rw [IsShort, Nat.pow_eq]
  exact Nat.one_lt_pow (by decide) (by decide)

theorem isShort_max {i j : Int} (hi : IsShort i) (hj : IsShort j) : IsShort (max i j) := by
  rcases max_choice i j with h | h <;> rwa [h]

namespace ShortNat

variable {m n : Option Nat}

theorem filter (h : ShortNat n) (p : Nat → Bool) : ShortNat (n.filter p) :=
  fun i hi => h i (Option.filter_eq_some_iff.1 hi).1

theorem orElse (hm : ShortNat m) (hn : ShortNat n) : ShortNat (m <|> n) := by
  cases m with
  | none => exact hn
  | some i => exact hm

theorem getD (h : ShortNat n) {i : Nat} (hi : IsShort (Int.ofNat i)) :
    IsShort (Int.ofNat (n.getD i)) := by
  cases n with
  | none => exact hi
  | some j => exact h j rfl

end ShortNat

/-! ## 2. Chains -/

namespace Zod

/-- The numbers that the methods show are short. -/
def AreShort (cs : List Call) : Prop := ∀ c ∈ cs, ∀ b ∈ c.numbers, b.IsShort

theorem areShort_nil : AreShort [] := List.forall_mem_nil _

theorem areShort_append {cs ds : List Call} : AreShort (cs ++ ds) ↔ AreShort cs ∧ AreShort ds :=
  List.forall_mem_append

theorem areShort_singleton {c : Call} : AreShort [c] ↔ ∀ b ∈ c.numbers, b.IsShort :=
  List.forall_mem_singleton

theorem areShort_ite {cs : List Call} (h : AreShort cs) (b : Bool) :
    AreShort (if b then cs else []) := by
  split
  · exact h
  · exact areShort_nil

/-- Methods without numbers. -/
theorem areShort_of_numbers {cs : List Call} (h : ∀ c ∈ cs, c.numbers = []) : AreShort cs := by
  intro c hc b hb
  rw [h c hc] at hb
  exact (List.not_mem_nil hb).elim

theorem areShort_callsOf {f : α → List Call} {o : Option α} (h : ∀ a ∈ o, AreShort (f a)) :
    AreShort (callsOf f o) := by
  cases o with
  | none => exact areShort_nil
  | some a => exact h a rfl

/-- The methods of a bound that may be missing. -/
theorem areShort_boundCall {f : Bound → Call} (hf : ∀ b, (f b).numbers = [b]) {o : Option Bound}
    (h : ShortBound o) : AreShort (callsOf (fun b => [f b]) o) := by
  refine areShort_callsOf fun b hb => areShort_singleton.2 ?_
  rw [hf]
  exact List.forall_mem_singleton.2 (h b hb)

/-- The methods of a length that may be missing. -/
theorem areShort_lengthCall {f : Nat → Call} (hf : ∀ n, (f n).numbers = [.whole (Int.ofNat n)])
    {o : Option Nat} (h : ShortNat o) : AreShort (callsOf (fun n => [f n]) o) := by
  refine areShort_callsOf fun n hn => areShort_singleton.2 ?_
  rw [hf]
  exact List.forall_mem_singleton.2 (h n hn)

theorem areShort_absentCalls (nullable : Bool) : AreShort (absentCalls nullable) :=
  areShort_ite (areShort_of_numbers (by simp [Call.numbers])) nullable

theorem areShort_patternCalls (pattern : Option String) : AreShort (patternCalls pattern) := by
  refine areShort_callsOf fun s _ => areShort_of_numbers ?_
  simp [Call.numbers]

/-! ## 3. Rule sets -/

theorem areShort_classCalls (r : RuleSet) : AreShort (classCalls r) := by
  simp only [classCalls, areShort_append]
  have hregex (body message : String) : AreShort [.regex body (some message)] :=
    areShort_of_numbers (by simp [Call.numbers])
  exact ⟨⟨⟨areShort_ite (hregex _ _) _, areShort_ite (hregex _ _) _⟩, areShort_ite (hregex _ _) _⟩,
    areShort_ite (hregex _ _) _⟩

theorem areShort_startCalls (values : List String) : AreShort (startCalls values) := by
  refine areShort_of_numbers fun c hc => ?_
  unfold startCalls at hc
  split at hc <;> simp_all [Call.numbers]

theorem areShort_endCalls (values : List String) : AreShort (endCalls values) := by
  refine areShort_of_numbers fun c hc => ?_
  unfold endCalls at hc
  split at hc <;> simp_all [Call.numbers]

theorem areShort_textCalls {r : RuleSet} (h : r.HasShortNumbers) : AreShort (textCalls r) := by
  have hdigits : AreShort (callsOf digitsCalls r.digits) := by
    refine areShort_callsOf fun n hn => ?_
    have hn := h.digits n hn
    simpa [AreShort, digitsCalls, Call.numbers, Bound.IsShort] using hn
  have hbetween : AreShort (callsOf digitsBetweenCalls r.digitsBetween) := by
    refine areShort_callsOf fun p hp => ?_
    have hp := h.digitsBetween p hp
    simpa [AreShort, digitsBetweenCalls, Call.numbers, Bound.IsShort] using hp
  simp only [textCalls, areShort_append]
  exact ⟨⟨⟨⟨⟨⟨⟨⟨areShort_lengthCall (fun _ => rfl) h.minLength,
    areShort_lengthCall (fun _ => rfl) h.maxLength⟩, areShort_classCalls r⟩, hdigits⟩, hbetween⟩,
    areShort_startCalls _⟩, areShort_endCalls _⟩,
    areShort_ite (areShort_of_numbers (by simp [Call.numbers])) _⟩,
    areShort_ite (areShort_of_numbers (by simp [Call.numbers])) _⟩

theorem areShort_numberCalls {r : RuleSet} (h : r.HasShortNumbers) : AreShort (numberCalls r) := by
  have hbetween : AreShort (callsOf (fun p => [.gte p.1, .lte p.2]) r.between) := by
    refine areShort_callsOf fun p hp => ?_
    simpa [AreShort, Call.numbers] using h.between p hp
  simp only [numberCalls, areShort_append]
  exact ⟨⟨⟨⟨⟨areShort_boundCall (fun _ => rfl) h.min, areShort_boundCall (fun _ => rfl) h.max⟩,
    hbetween⟩, areShort_boundCall (fun _ => rfl) h.gt⟩, areShort_boundCall (fun _ => rfl) h.lt⟩,
    areShort_boundCall (fun _ => rfl) h.multipleOf⟩

/-- A format has no numbers. -/
theorem areShort_formatOf? {r : RuleSet} {e : Expr} (h : formatOf? r = some e) :
    AreShort e.calls := by
  refine areShort_of_numbers fun c hc => ?_
  unfold formatOf? at h
  split_ifs at h <;> cases h <;> rw [List.mem_singleton.1 hc] <;> rfl

/-- **A rule set** shows no numbers but its own. -/
theorem areShort_applyRules {e : Expr} (he : AreShort e.calls) {rules : Option RuleSet}
    (h : ∀ r ∈ rules, r.HasShortNumbers) (tag : String) :
    AreShort (applyRules e rules tag).calls := by
  cases rules with
  | none => exact he
  | some r =>
    have hr := h r rfl
    have hformat : AreShort ((formatOf? r).getD e).calls := by
      cases hf : formatOf? r with
      | none => exact he
      | some e' => exact areShort_formatOf? hf
    refine areShort_append.2 ⟨hformat, areShort_append.2 ⟨?_, ?_⟩⟩
    · exact areShort_ite (areShort_textCalls hr) _
    · exact areShort_ite (areShort_numberCalls hr) _

/-! ## 4. Properties -/

theorem shortNat_upperLength? {p : Property} (h : p.HasShortNumbers) : ShortNat (upperLength? p) :=
  (h.maxLength.filter _).orElse (h.length.filter _)

theorem areShort_upperCalls {p : Property} (h : p.HasShortNumbers) : AreShort (upperCalls p) :=
  areShort_lengthCall (fun _ => rfl) (shortNat_upperLength? h)

theorem areShort_lowerCalls {p : Property} (h : p.HasShortNumbers) : AreShort (lowerCalls p) := by
  unfold lowerCalls
  split
  · refine areShort_singleton.2 (List.forall_mem_singleton.2 ?_)
    exact isShort_max isShort_one (h.minLength.getD isShort_zero)
  · exact areShort_lengthCall (fun _ => rfl) (h.minLength.filter _)

theorem areShort_boundCalls {p : Property} (h : p.HasShortNumbers) : AreShort (boundCalls p) :=
  areShort_append.2
    ⟨areShort_boundCall (fun _ => rfl) h.min, areShort_boundCall (fun _ => rfl) h.max⟩

theorem numbers_fixedValidators :
    ∀ e ∈ fixedValidators, ∀ c ∈ e.2.calls, c.numbers = [] := by decide

theorem areShort_ofPrimitive? {p : Property} (h : p.HasShortNumbers) {e : Expr}
    (he : ofPrimitive? p = some e) : AreShort e.calls := by
  unfold ofPrimitive? at he
  split_ifs at he
  · cases he
    exact List.forall_mem_cons.2 ⟨List.forall_mem_nil _, areShort_upperCalls h⟩
  · cases he
    exact areShort_append.2 ⟨areShort_lowerCalls h, areShort_upperCalls h⟩
  · cases he
    exact areShort_boundCalls h
  · cases he
    exact List.forall_mem_cons.2 ⟨List.forall_mem_nil _, areShort_boundCalls h⟩
  · exact areShort_of_numbers (numbers_fixedValidators _ (Dictionary.mem_of_lookup he))

theorem areShort_finish {p : Property} (h : p.HasShortNumbers) {e : Expr}
    (he : AreShort e.calls) : AreShort (finish p e).calls :=
  areShort_append.2 ⟨areShort_applyRules he h.rules _,
    areShort_append.2 ⟨areShort_patternCalls _, areShort_absentCalls _⟩⟩

theorem areShort_ofValues (values : List EnumValue) : AreShort (ofValues values).calls := by
  unfold ofValues
  split <;> exact areShort_nil

theorem areShort_ofProperty? {config : Config} {p : Property} (h : p.HasShortNumbers)
    (hcustom : ∀ t ∈ config.customTypes, t.2.HasShortNumbers) {e : Expr}
    (he : ofProperty? config p = some e) : AreShort e.calls := by
  unfold ofProperty? at he
  split at he
  · exact nomatch he
  · exact nomatch he
  · obtain ⟨t, ht, rfl⟩ := Option.map_eq_some_iff.1 he
    have hlength := (hcustom _ (Dictionary.mem_of_lookup ht)).length
    exact areShort_append.2 ⟨areShort_lengthCall (fun _ => rfl) (hlength.filter _),
      areShort_absentCalls _⟩
  · cases he
    exact areShort_finish h areShort_nil
  · cases he
    exact areShort_finish h (areShort_ofValues _)
  · cases he
    exact areShort_finish h (areShort_ofValues _)
  · obtain ⟨e', he', rfl⟩ := Option.map_eq_some_iff.1 he
    exact areShort_finish h (areShort_ofPrimitive? h he')

/-! ## 5. Fields of compound types -/

/-- A number of a rule set of the override or of the plugin. -/
theorem shortNat_ruleSetting {p : Property} (h : p.HasShortNumbers) {e : CompoundEntry}
    (he : e.HasShortNumbers) {f : RuleSet → Option Nat}
    (hf : ∀ r : RuleSet, r.HasShortNumbers → ShortNat (f r)) : ShortNat (ruleSetting p e f) := by
  refine ShortNat.orElse (fun n hn => ?_) fun n hn => ?_
  · obtain ⟨r, hr, hn⟩ := Option.bind_eq_some_iff.1 hn
    obtain ⟨o, ho, hr⟩ := Option.bind_eq_some_iff.1 hr
    exact hf r ((h.overrides _ (Dictionary.mem_of_lookup ho)).rules r hr) n hn
  · obtain ⟨r, hr, hn⟩ := Option.bind_eq_some_iff.1 hn
    exact hf r (he.rules r hr) n hn

theorem shortNat_entryLength {p : Property} (h : p.HasShortNumbers) {e : CompoundEntry}
    (he : e.HasShortNumbers) : ShortNat (entryLength p e) := by
  refine ShortNat.orElse (fun n hn => ?_)
    ((shortNat_ruleSetting h he fun _ hr => hr.maxLength).orElse he.length)
  obtain ⟨o, ho, hn⟩ := Option.bind_eq_some_iff.1 hn
  exact (h.overrides _ (Dictionary.mem_of_lookup ho)).length n hn

theorem areShort_entryLowerCalls {p : Property} (h : p.HasShortNumbers) {e : CompoundEntry}
    (he : e.HasShortNumbers) : AreShort (entryLowerCalls p e) := by
  have hleast := shortNat_ruleSetting h he fun _ hr => hr.minLength
  unfold entryLowerCalls
  simp only
  split
  · exact areShort_lengthCall (fun _ => rfl) (hleast.filter _)
  · exact areShort_singleton.2 (List.forall_mem_singleton.2 (hleast.getD isShort_one))

theorem areShort_ofFormat (format : Option String) : AreShort (ofFormat format).calls := by
  refine areShort_of_numbers fun c hc => ?_
  unfold ofFormat at hc
  split at hc <;> simp_all [Call.numbers]

theorem areShort_ofEntry {p : Property} (h : p.HasShortNumbers) {e : CompoundEntry}
    (he : e.HasShortNumbers) : AreShort (ofEntry p e).calls := by
  have hpattern : AreShort
      (if (entryFormat p e).isSome then [] else patternCalls (ruleSetting p e (·.pattern))) := by
    split
    · exact areShort_nil
    · exact areShort_patternCalls _
  exact areShort_append.2 ⟨areShort_ofFormat _, areShort_append.2 ⟨areShort_append.2
    ⟨areShort_append.2 ⟨areShort_entryLowerCalls h he,
      areShort_lengthCall (fun _ => rfl) ((shortNat_entryLength h he).filter _)⟩, hpattern⟩,
    areShort_absentCalls _⟩⟩

/-- **What is printed for a property** shows short numbers alone. -/
theorem areShort_of_mem_printedOf {config : Config} {p : Property} (h : p.HasShortNumbers)
    (hcustom : ∀ t ∈ config.customTypes, t.2.HasShortNumbers) {e : Expr}
    (he : e ∈ printedOf config p) : AreShort e.calls := by
  unfold printedOf at he
  split at he
  · next t ht =>
    obtain ⟨entry, hentry, rfl⟩ := List.mem_map.1 he
    have htype := (Option.filter_eq_some_iff.1 ht).1
    unfold Interface.customTypeOf? at htype
    split at htype
    · exact areShort_ofEntry h ((hcustom _ (Dictionary.mem_of_lookup htype)).expand entry hentry)
    · exact nomatch htype
  · rcases List.mem_append.1 he with he | he
    · split at he
      · exact areShort_ofPrimitive? h (Option.mem_toList.1 he)
      · exact (List.not_mem_nil he).elim
    · exact areShort_ofProperty? h hcustom (Option.mem_toList.1 he)

end Zod

/-! ## 6. Rules -/

namespace EntityRules

/-- The bounds of the rules are short. -/
def AreShort (ds : List Draft) : Prop := ∀ d ∈ ds, ∀ b ∈ d.numbers, b.IsShort

theorem areShort_append {ds es : List Draft} : AreShort (ds ++ es) ↔ AreShort ds ∧ AreShort es :=
  List.forall_mem_append

theorem areShort_ite {ds es : List Draft} (hds : AreShort ds) (hes : AreShort es) (b : Bool) :
    AreShort (if b then ds else es) := by
  cases b
  · exact hes
  · exact hds

/-- The rule of a setting that may be missing. -/
theorem areShort_toList {f : α → Draft} {o : Option α}
    (h : ∀ a ∈ o, ∀ b ∈ (f a).numbers, b.IsShort) : AreShort (o.map f).toList := by
  cases o with
  | none => exact List.forall_mem_nil _
  | some a => exact List.forall_mem_singleton.2 (h a rfl)

theorem areShort_lengthDrafts {p : Property} (h : p.HasShortNumbers) :
    AreShort (lengthDrafts p) := by
  refine areShort_ite (areShort_append.2 ⟨?_, ?_⟩) (List.forall_mem_nil _) _
  · exact areShort_toList fun n hn => List.forall_mem_singleton.2 (h.minLength.filter _ n hn)
  · exact areShort_toList fun n hn =>
      List.forall_mem_singleton.2 (Zod.shortNat_upperLength? h n hn)

theorem areShort_rangeDrafts {p : Property} (h : p.HasShortNumbers) :
    AreShort (rangeDrafts p) := by
  refine areShort_ite (areShort_append.2 ⟨?_, ?_⟩) (List.forall_mem_nil _) _
  · exact areShort_toList fun b hb => List.forall_mem_singleton.2 (h.min b hb)
  · exact areShort_toList fun b hb => List.forall_mem_singleton.2 (h.max b hb)

/-- **The rules of a property** have short bounds alone. -/
theorem areShort_draftsOf {p : Property} (h : p.HasShortNumbers) : AreShort (draftsOf p) := by
  have hnone : AreShort [] := List.forall_mem_nil _
  have hbare {d : Draft} (hd : d.numbers = []) : AreShort [d] := by
    refine List.forall_mem_singleton.2 ?_
    rw [hd]
    exact List.forall_mem_nil _
  simp only [draftsOf, areShort_append]
  refine ⟨⟨⟨⟨?_, ?_⟩, areShort_lengthDrafts h⟩, areShort_rangeDrafts h⟩, ?_⟩
  · exact areShort_ite hnone (hbare rfl) _
  · exact areShort_ite (hbare rfl) hnone _
  · exact areShort_toList fun _ _ => List.forall_mem_nil _

end EntityRules

/-! ## 7. Entities -/

/-- **The files of an entity show short numbers alone** if those of its properties and of the plugin
types are short. -/
theorem Output.isShort_of_mem_numbersOf {config : Config} {s : Schema}
    (h : ∀ e ∈ s.properties, e.2.HasShortNumbers)
    (hcustom : ∀ t ∈ config.customTypes, t.2.HasShortNumbers) :
    ∀ b ∈ Output.numbersOf config s, b.IsShort := by
  intro b hb
  unfold Output.numbersOf at hb
  split_ifs at hb
  · obtain ⟨e, he, hb⟩ := List.mem_flatMap.1 hb
    obtain ⟨x, hx, hb⟩ := List.mem_flatMap.1 hb
    obtain ⟨c, hc, hb⟩ := List.mem_flatMap.1 hb
    exact Zod.areShort_of_mem_printedOf (h e he) hcustom hx c hc b hb
  · obtain ⟨e, he, hb⟩ := List.mem_flatMap.1 hb
    obtain ⟨d, hd, hb⟩ := List.mem_flatMap.1 hb
    exact EntityRules.areShort_draftsOf (h e he) d hd b hb
  · exact (List.not_mem_nil hb).elim

end SchemaTypes
