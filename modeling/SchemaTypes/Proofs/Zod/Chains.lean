/-
# Chains and their bases

A method that only texts have, or only numbers, belongs on a base of that type.  What a validator
starts from (`startBase`) is chosen by the kind and the tag of a property and by its format rule;
what is chained on it is chosen by the tag and by the pattern (`asksText`, `asksNumber`), and nobody
compares the two.  So a chain is well typed exactly if they happen to agree (`wellTyped_iff`): a
pattern on a number, or a format beside a bound on a number, is written as given.
-/
import Mathlib
import SchemaTypes.Proofs.Zod.Types

namespace SchemaTypes.Zod

/-! ## 1. Methods and bases -/

/-- The method exists on the base. -/
def Call.Fits (c : Call) (b : Base) : Prop :=
  (c.onText = true → b = .string) ∧ (c.onNumber = true → b = .number)

/-- The methods of a list exist on a base as its strictest ones do. -/
theorem forall_fits_iff {cs : List Call} {b : Base} :
    (∀ c ∈ cs, c.Fits b) ↔
      (cs.any Call.onText = true → b = .string) ∧ (cs.any Call.onNumber = true → b = .number) := by
  simp only [Call.Fits, List.any_eq_true]
  constructor
  · exact fun h => ⟨fun ⟨c, hc, ht⟩ => (h c hc).1 ht, fun ⟨c, hc, hn⟩ => (h c hc).2 hn⟩
  · exact fun h c hc => ⟨fun ht => h.1 ⟨c, hc, ht⟩, fun hn => h.2 ⟨c, hc, hn⟩⟩

theorem Expr.wellTyped_iff_any {e : Expr} :
    e.WellTyped ↔ (e.calls.any Call.onText = true → e.base = .string) ∧
      (e.calls.any Call.onNumber = true → e.base = .number) := forall_fits_iff

theorem Expr.wellTyped_andAlso {e : Expr} {cs : List Call} :
    (e.andAlso cs).WellTyped ↔ e.WellTyped ∧ ∀ c ∈ cs, c.Fits e.base := by
  simp only [WellTyped, calls_andAlso, base_andAlso, List.forall_mem_append]
  rfl

/-! ## 2. What rule sets chain -/

/-- The rule set lays a check on texts that no other base has. -/
def checksText (r : RuleSet) : Bool :=
  r.alpha || r.alphaNum || r.alphaDash || r.numeric || r.digits.isSome || r.digitsBetween.isSome
    || !(nonEmptyAffixes r.startsWith).isEmpty || !(nonEmptyAffixes r.endsWith).isEmpty

/-- The rule set lays a check on numbers that no other base has. -/
def checksNumber (r : RuleSet) : Bool :=
  r.min.isSome || r.max.isSome || r.between.isSome || r.gt.isSome || r.lt.isSome
    || r.multipleOf.isSome

theorem any_callsOf (q : Call → Bool) (f : α → List Call) (o : Option α) :
    (callsOf f o).any q = o.any fun a => (f a).any q := by
  cases o <;> rfl

theorem any_ite (q : Call → Bool) (b : Bool) (cs : List Call) :
    (if b then cs else []).any q = (b && cs.any q) := by
  cases b <;> rfl

theorem any_onText_affixes (values : List String) :
    (startCalls values).any Call.onText = !values.isEmpty ∧
      (endCalls values).any Call.onText = !values.isEmpty := by
  rcases values with _ | ⟨v, _ | ⟨w, rest⟩⟩ <;> exact ⟨rfl, rfl⟩

theorem any_onNumber_affixes (values : List String) :
    (startCalls values).any Call.onNumber = false ∧
      (endCalls values).any Call.onNumber = false := by
  rcases values with _ | ⟨v, _ | ⟨w, rest⟩⟩ <;> exact ⟨rfl, rfl⟩

/-- The methods of a rule set on a text. -/
theorem any_textCalls (r : RuleSet) :
    (textCalls r).any Call.onText = checksText r ∧ (textCalls r).any Call.onNumber = false := by
  unfold textCalls classCalls checksText
  simp [any_callsOf, any_onText_affixes, any_onNumber_affixes, any_ite, Call.onText, Call.onNumber,
    digitsCalls, digitsBetweenCalls, Bool.or_assoc]

/-- The methods of a rule set on a number. -/
theorem any_numberCalls (r : RuleSet) :
    (numberCalls r).any Call.onText = false ∧
      (numberCalls r).any Call.onNumber = checksNumber r := by
  unfold numberCalls checksNumber
  simp [any_callsOf, Call.onText, Call.onNumber, Bool.or_assoc]

/-- The methods of a pattern: a check on texts, unless it is empty. -/
theorem any_patternCalls (pattern : Option String) :
    (patternCalls pattern).any Call.onText = (pattern.filter (!·.isEmpty)).isSome ∧
      (patternCalls pattern).any Call.onNumber = false := by
  unfold patternCalls
  simp [any_callsOf, Call.onText, Call.onNumber]

theorem any_absentCalls (nullable : Bool) :
    (absentCalls nullable).any Call.onText = false ∧
      (absentCalls nullable).any Call.onNumber = false := by
  cases nullable <;> exact ⟨rfl, rfl⟩

/-! ## 3. The chain of a property -/

variable {config : Config} {p : Property}

/-- What the validator of a property starts from, before its rules. -/
def kindBase? (p : Property) : Option Base :=
  match p.kind with
  | .association .. | .file _ => none
  | .custom => some .string
  | .enumRef enum => some (.nativeEnum enum)
  | .inlineEnum values | .select values => some (ofValues values).base
  | .primitive => primitiveBases.lookup p.tag

/-- What the validator of a property starts from: a text, if the rules ask for a format. -/
def startBase? (p : Property) : Option Base :=
  if p.kindTag ≠ .custom ∧ (formatRule? p).isSome then (kindBase? p).map fun _ => .string
  else kindBase? p

/-- A pattern or the rules of a text tag are laid on the values of the property. -/
def asksText (p : Property) : Bool :=
  p.kindTag != .custom &&
    ((p.pattern.filter (!·.isEmpty)).isSome
      || stringTags.contains p.tag && p.rules.any checksText)

/-- The rules of a numeric tag are laid on the values of the property. -/
def asksNumber (p : Property) : Bool :=
  p.kindTag != .custom && numericTags.contains p.tag && p.rules.any checksNumber

/-- Bounds are methods of numbers, and lengths of anything. -/
theorem wellTyped_ofPrimitive? {e : Expr} (h : ofPrimitive? p = some e) : e.WellTyped := by
  have hupper : ∀ q : Call → Bool, (∀ n, q (.max n) = false) → (upperCalls p).any q = false := by
    intro q hq
    simp [upperCalls, any_callsOf, hq]
  have hlower : ∀ q : Call → Bool, (∀ n, q (.min n) = false) → (lowerCalls p).any q = false := by
    intro q hq
    unfold lowerCalls
    split <;> simp [any_callsOf, hq]
  have hbounds : (boundCalls p).any Call.onText = false := by
    simp [boundCalls, any_callsOf, Call.onText]
  have hfixed : ∀ v ∈ fixedValidators, v.2.WellTyped := by decide
  have hint : Call.onText .int = false := rfl
  have hemail : Call.onNumber .email = false := rfl
  unfold ofPrimitive? at h
  rw [Expr.wellTyped_iff_any]
  split at h
  · cases h
    simp [hemail, hupper Call.onNumber fun _ => rfl]
  · split at h
    · cases h
      simp [hlower Call.onNumber fun _ => rfl, hupper Call.onNumber fun _ => rfl]
    · split at h
      · cases h
        simp [hbounds]
      · split at h
        · cases h
          simp [hint, hbounds]
        · obtain ⟨before, after, heq, -⟩ := List.lookup_eq_some_iff.1 h
          rw [← Expr.wellTyped_iff_any]
          exact hfixed (p.tag, e) (by simp [heq])

theorem wellTyped_ofValues (values : List EnumValue) : (ofValues values).WellTyped := by
  unfold ofValues
  split <;> exact List.forall_mem_nil _

/-- The format takes the place of a validator, and is one method of texts. -/
theorem wellTyped_formatOf? {r : RuleSet} {e : Expr} (h : formatOf? r = some e) : e.WellTyped := by
  have hformats : ∀ c ∈ formatCalls, Expr.WellTyped ⟨.string, [c]⟩ := by decide
  obtain ⟨c, rfl, hc⟩ := formatOf?_eq_some h
  exact hformats c hc

/-- The methods that a property with the rules lays on a validator. -/
def laidCalls (p : Property) : List Call :=
  (match p.rules with
    | none => []
    | some r =>
      (if stringTags.contains p.tag then textCalls r else [])
        ++ (if numericTags.contains p.tag then numberCalls r else []))
    ++ (patternCalls p.pattern ++ absentCalls p.isNullable)

theorem finish_eq_andAlso (p : Property) (e : Expr) :
    finish p e = ((formatRule? p).getD e).andAlso (laidCalls p) := by
  unfold finish formatRule? laidCalls applyRules
  cases p.rules with
  | none => rfl
  | some r => simp [Expr.andAlso]

theorem any_laidCalls (hk : p.kindTag ≠ .custom) :
    (laidCalls p).any Call.onText = asksText p ∧
      (laidCalls p).any Call.onNumber = asksNumber p := by
  have hcustom : (p.kindTag != .custom) = true := bne_iff_ne.2 hk
  unfold laidCalls asksText asksNumber
  cases p.rules with
  | none => simp [any_absentCalls, any_patternCalls, hcustom]
  | some r =>
    simp only [List.any_append, any_ite, any_textCalls, any_numberCalls, any_absentCalls,
      any_patternCalls, hcustom, Option.any_some, Bool.and_false, Bool.or_false, Bool.false_or,
      Bool.true_and, Bool.or_comm, and_true]

/-- **Rules and patterns ask for a base**, and the chain is well typed exactly if it has it. -/
theorem wellTyped_finish {e : Expr} (he : e.WellTyped) (hk : p.kindTag ≠ .custom) :
    (finish p e).WellTyped ↔
      (asksText p = true → (finish p e).base = .string) ∧
        (asksNumber p = true → (finish p e).base = .number) := by
  have hstart : ((formatRule? p).getD e).WellTyped := by
    cases hf : formatRule? p with
    | none => exact he
    | some f =>
      obtain ⟨r, -, hr⟩ := Option.bind_eq_some_iff.1 hf
      exact wellTyped_formatOf? hr
  rw [finish_eq_andAlso, Expr.wellTyped_andAlso, forall_fits_iff, (any_laidCalls hk).1,
    (any_laidCalls hk).2]
  simp only [hstart, true_and, Expr.base_andAlso]

theorem wellTyped_ofCustom (p : Property) (t : CustomType) : (ofCustom p t).WellTyped := by
  rw [Expr.wellTyped_iff_any]
  refine ⟨fun _ => rfl, ?_⟩
  unfold ofCustom absentCalls
  split <;> simp [any_callsOf, Call.onNumber]

/-- **What a chain starts from and when it is well typed**, for every property that has one: a
format makes it a text, else the kind and the tag say it; and its methods belong to it exactly if
the pattern and the rules on texts find a text and the rules on numbers a number. -/
theorem wellTyped_iff {e : Expr} (h : ofProperty? config p = some e) :
    startBase? p = some e.base ∧
      (e.WellTyped ↔ (asksText p = true → startBase? p = some .string) ∧
        (asksNumber p = true → startBase? p = some .number)) := by
  have hfinish {f : Expr} (hf : f.WellTyped) (hbase : kindBase? p = some f.base)
      (hk : p.kindTag ≠ .custom) :
      startBase? p = some (finish p f).base ∧
        ((finish p f).WellTyped ↔ (asksText p = true → startBase? p = some .string) ∧
          (asksNumber p = true → startBase? p = some .number)) := by
    have hstart : startBase? p = some (finish p f).base := by
      rw [startBase?, base_finish, hbase]
      by_cases hformat : (formatRule? p).isSome = true <;> simp [hformat, hk]
    refine ⟨hstart, ?_⟩
    rw [wellTyped_finish hf hk, hstart, Option.some_inj, Option.some_inj]
  unfold ofProperty? at h
  split at h
  · cases h
  · cases h
  · rename_i hk
    obtain ⟨t, -, rfl⟩ := Option.map_eq_some_iff.1 h
    have hcustom : p.kindTag = .custom := by simp [Property.kindTag, hk]
    have hstart : startBase? p = some .string := by simp [startBase?, hcustom, kindBase?, hk]
    refine ⟨hstart, ?_⟩
    simp [wellTyped_ofCustom, hstart, asksNumber, hcustom]
  · rename_i enum hk
    cases h
    exact hfinish (List.forall_mem_nil _) (by simp [kindBase?, hk]) (by simp [Property.kindTag, hk])
  · rename_i values hk
    cases h
    exact hfinish (wellTyped_ofValues values) (by simp [kindBase?, hk])
      (by simp [Property.kindTag, hk])
  · rename_i options hk
    cases h
    exact hfinish (wellTyped_ofValues options) (by simp [kindBase?, hk])
      (by simp [Property.kindTag, hk])
  · rename_i hk
    obtain ⟨f, hf, rfl⟩ := Option.map_eq_some_iff.1 h
    refine hfinish (wellTyped_ofPrimitive? hf) ?_ (by simp [Property.kindTag, hk])
    rw [kindBase?, hk, ← base_ofPrimitive?, hf, Option.map_some]

/-- A text with a pattern and rules on texts. -/
theorem wellTyped_iff_code :
    ∃ e, ofProperty? {}
          { tag := "String", kind := .primitive, nullable := some true, pattern := some "^A",
            rules := some { digits := some 3 } } = some e ∧
      e.text = "z.string().length(3).regex(/^\\d+$/, \x7b message: 'Must be exactly 3 digits' \x7d)"
        ++ ".regex(/^A/).optional().nullable()" ∧
      e.WellTyped := by
  refine ⟨⟨.string, [.length 3, .regex "^\\d+$" (some "Must be exactly 3 digits"),
    .regex "^A" none, .optional, .nullable]⟩, by decide, by decide, ?_⟩
  have hexpr : ofProperty? {}
      { tag := "String", kind := .primitive, nullable := some true, pattern := some "^A",
        rules := some { digits := some 3 } } = some ⟨.string, [.length 3,
          .regex "^\\d+$" (some "Must be exactly 3 digits"), .regex "^A" none, .optional,
          .nullable]⟩ := by decide
  refine (wellTyped_iff hexpr).2.2 ⟨fun _ => by decide, fun h => ?_⟩
  revert h
  decide

/-- A pattern on a number, and a format in place of a number that has a bound: neither `z.number()`
has a method `regex`, nor `z.string()` a method `gte`. -/
theorem not_wellTyped_of_pattern :
    ofProperty? {} { tag := "Int", kind := .primitive, pattern := some "^1" }
        = some ⟨.number, [.int, .regex "^1" none]⟩ ∧
      Expr.text ⟨.number, [.int, .regex "^1" none]⟩ = "z.number().int().regex(/^1/)" ∧
      ¬ Expr.WellTyped ⟨.number, [.int, .regex "^1" none]⟩ ∧
      ofProperty? {}
          { tag := "Int", kind := .primitive,
            rules := some { url := true, min := some (.whole 1) } }
        = some ⟨.string, [.url, .gte (.whole 1)]⟩ ∧
      Expr.text ⟨.string, [.url, .gte (.whole 1)]⟩ = "z.string().url().gte(1)" ∧
      ¬ Expr.WellTyped ⟨.string, [.url, .gte (.whole 1)]⟩ := by
  decide

/-! ## 4. Fields of compound types -/

/-- **A field of a compound type is a text**, and every method that is laid on it exists there. -/
theorem wellTyped_ofEntry (p : Property) (e : CompoundEntry) : (ofEntry p e).WellTyped := by
  have hformat (format : Option String) : (ofFormat format).base = .string ∧
      (ofFormat format).calls.any Call.onNumber = false := by
    unfold ofFormat
    split <;> exact ⟨rfl, rfl⟩
  have hlower : (entryLowerCalls p e).any Call.onNumber = false := by
    unfold entryLowerCalls
    dsimp only
    split <;> simp [any_callsOf, Call.onNumber]
  rw [Expr.wellTyped_iff_any]
  refine ⟨fun _ => (hformat _).1, ?_⟩
  simp only [ofEntry, Expr.calls_andAlso, List.any_append, hformat, hlower, any_callsOf,
    any_absentCalls]
  split <;> simp [any_patternCalls, Call.onNumber]

end SchemaTypes.Zod
