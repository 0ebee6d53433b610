/-
# Declared bounds

The bounds that a primitive property declares are enforced twice, by the methods of its validator
and by the rules of its entity.  Each side has its own table of the tags with a length and of the
tags with a range, and those of the rules are the shorter ones.  So both sides enforce a bound
exactly if the tag stands in the table of the rules too (`bounds_agree_iff`): a `MediumText` keeps
its length and a `TinyInt` its range in the validator alone (`bounds_of_validators_alone`).
-/
import SchemaTypes.Proofs.Zod.Types
import SchemaTypes.EntityRules

namespace SchemaTypes

variable {p : Property}

/-- The length that a property declares: the stated maximum unless it is zero, else the length of
its column. -/
def declaredLength? (p : Property) : Option Nat := Zod.positive? p.maxLength <|> p.length

/-! ## 1. Methods -/

namespace Zod

/-- The method states a greatest length, or a bound of a range. -/
def Call.isBound : Call → Bool
  | .max _ | .gte _ | .lte _ => true
  | _ => false

/-- A length of zero bounds nothing. -/
theorem upperLength?_eq (p : Property) : upperLength? p = positive? (declaredLength? p) := by
  unfold upperLength? declaredLength?
  cases h : positive? p.maxLength with
  | none => rfl
  | some n =>
    have hn : (n != 0) = true := (Option.filter_eq_some_iff.1 h).2
    simp [positive?, Option.filter, hn]

theorem upperLength?_eq_some_iff {u : Nat} (h : declaredLength? p = some u) {n : Nat} :
    upperLength? p = some n ↔ n = u ∧ u ≠ 0 := by
  rw [upperLength?_eq, h, positive?, Option.filter_eq_some_iff]
  constructor
  · rintro ⟨hu, hn⟩
    cases hu
    exact ⟨rfl, by simpa using hn⟩
  · rintro ⟨rfl, hn⟩
    exact ⟨rfl, by simpa using hn⟩

/-- Without a rule set nothing but the base of a validator states bounds. -/
theorem mem_calls_finish_iff (hrules : p.rules = none) {c : Call} (hc : c.isBound = true)
    (e : Expr) : c ∈ (finish p e).calls ↔ c ∈ e.calls := by
  rw [finish, hrules, applyRules_none, Expr.calls_andAlso, List.mem_append]
  refine or_iff_left fun h => ?_
  rcases List.mem_append.1 h with h | h
  · unfold patternCalls callsOf at h
    split at h
    · rw [List.mem_singleton.1 h] at hc
      exact nomatch hc
    · exact nomatch h
  · unfold absentCalls at h
    split at h
    · rcases List.mem_pair.1 h with rfl | rfl
      · exact nomatch hc
      · exact nomatch hc
    · exact nomatch h

theorem max_mem_upperCalls_iff {n : Nat} :
    Call.max (Int.ofNat n) ∈ upperCalls p ↔ upperLength? p = some n := by
  unfold upperCalls
  cases upperLength? p with
  | none => simp [callsOf]
  | some m => simp [callsOf, eq_comm]

theorem max_notMem_lowerCalls (n : Int) : Call.max n ∉ lowerCalls p := by
  unfold lowerCalls
  split
  · simp
  · cases positive? p.minLength <;> simp [callsOf]

/-- **Every tag of texts** has a validator that enforces the greatest length. -/
theorem exists_ofPrimitive?_of_text (h : p.tag ∈ stringTags) :
    ∃ e, ofPrimitive? p = some e ∧
      ∀ n : Nat, Call.max (Int.ofNat n) ∈ e.calls ↔ upperLength? p = some n := by
  unfold ofPrimitive?
  by_cases hemail : p.tag = "Email"
  · refine ⟨_, if_pos (beq_iff_eq.2 hemail), fun n => ?_⟩
    rw [List.mem_cons, max_mem_upperCalls_iff]
    exact or_iff_right nofun
  · refine ⟨⟨.string, lowerCalls p ++ upperCalls p⟩, by simp [hemail, h], fun n => ?_⟩
    rw [List.mem_append, max_mem_upperCalls_iff]
    exact or_iff_right (max_notMem_lowerCalls _)

/-- **Every tag of numbers** has a validator that enforces the range, and no length. -/
theorem exists_ofPrimitive?_of_number (h : p.tag ∈ numericTags) :
    ∃ e, ofPrimitive? p = some e ∧ (∀ n, Call.max n ∉ e.calls) ∧
      (∀ b, Call.gte b ∈ e.calls ↔ p.min = some b) ∧
      ∀ b, Call.lte b ∈ e.calls ↔ p.max = some b := by
  have hbounds : (∀ n, Call.max n ∉ boundCalls p) ∧
      (∀ b, Call.gte b ∈ boundCalls p ↔ p.min = some b) ∧
      ∀ b, Call.lte b ∈ boundCalls p ↔ p.max = some b := by
    unfold boundCalls
    cases p.min <;> cases p.max <;> simp [callsOf, eq_comm]
  have hnumber : ∀ tag ∈ numericTags, tag ≠ "Email" ∧ stringTags.contains tag = false := by decide
  obtain ⟨hemail, htext⟩ := hnumber p.tag h
  unfold ofPrimitive?
  by_cases hfloat : p.tag = "Float"
  · exact ⟨⟨.number, boundCalls p⟩, by simp [hfloat, stringTags], hbounds⟩
  · have htag : numericTags.contains p.tag = true := List.contains_iff_mem.2 h
    refine ⟨⟨.number, .int :: boundCalls p⟩, ?_, ?_⟩
    · simp only [beq_iff_eq, hemail, htext, hfloat, htag, if_false, if_true, Bool.false_eq_true]
    · simpa using hbounds

end Zod

/-! ## 2. Rules -/

namespace EntityRules

variable {config : Config} {templates : MessageTable} {name : String}

/-- The rules of a property say what was drafted, apart from their messages. -/
theorem exists_rule_iff (q : Option String → Option Bound → Option Bound → Prop) :
    (∃ r ∈ (ofProperty config templates name p).rules, q r.type r.min r.max)
      ↔ ∃ d ∈ draftsOf p, q d.type d.min d.max := by
  constructor
  · rintro ⟨r, hr, hq⟩
    obtain ⟨d, hd, rfl⟩ := List.mem_map.1 hr
    exact ⟨d, hd, hq⟩
  · rintro ⟨d, hd, hq⟩
    exact ⟨_, List.mem_map_of_mem hd, hq⟩

/-- Only the drafts of lengths and of ranges have bounds. -/
theorem mem_draftsOf_iff {d : Draft} (h : d.min.isSome = true ∨ d.max.isSome = true) :
    d ∈ draftsOf p ↔ d ∈ lengthDrafts p ∨ d ∈ rangeDrafts p := by
  have hunbounded {d' : Draft} (hmin : d'.min = none) (hmax : d'.max = none) : d ≠ d' := by
    rintro rfl
    rw [hmin, hmax] at h
    exact h.elim nofun nofun
  have hrequired : d ∉ if p.isNullable then [] else [{ name := "required", required := true }] := by
    split
    · exact List.not_mem_nil
    · exact fun hd => hunbounded rfl rfl (List.mem_singleton.1 hd)
  have hemail : d ∉ if p.tag == "Email" then [{ name := "email", type := some "email" }]
      else [] := by
    split
    · exact fun hd => hunbounded rfl rfl (List.mem_singleton.1 hd)
    · exact List.not_mem_nil
  have hpattern : d ∉ ((p.pattern.filter (!·.isEmpty)).map fun s =>
      { name := "pattern", pattern := some s : Draft }).toList := by
    intro hd
    obtain ⟨s, -, hs⟩ := Option.map_eq_some_iff.1 (Option.mem_toList.1 hd)
    exact hunbounded rfl rfl hs.symm
  simp only [draftsOf, List.mem_append, hrequired, hemail, hpattern, false_or, or_false]

/-- **A rule on the greatest length** is made for three tags of texts. -/
theorem exists_greatestLength_iff (h : p.tag ∈ stringTags) {n : Nat} :
    (∃ d ∈ draftsOf p, d.max = some (natBound n))
      ↔ p.tag ∈ lengthTags ∧ Zod.upperLength? p = some n := by
  have hrange : rangeDrafts p = [] := by
    have htext : ∀ tag ∈ stringTags, rangeTags.contains tag = false := by decide
    rw [rangeDrafts, htext p.tag h]
    rfl
  constructor
  · rintro ⟨d, hd, hmax⟩
    rw [mem_draftsOf_iff (.inr (by simp [hmax])), hrange] at hd
    replace hd := hd.resolve_right List.not_mem_nil
    unfold lengthDrafts at hd
    split at hd
    · rename_i htag
      refine ⟨List.contains_iff_mem.1 htag, ?_⟩
      rcases List.mem_append.1 hd with hd | hd
      · obtain ⟨m, -, rfl⟩ := Option.map_eq_some_iff.1 (Option.mem_toList.1 hd)
        exact nomatch hmax
      · obtain ⟨m, hm, rfl⟩ := Option.map_eq_some_iff.1 (Option.mem_toList.1 hd)
        have hbound : natBound m = natBound n := Option.some.inj hmax
        rw [hm, Int.ofNat.inj (Bound.whole.inj hbound)]
    · exact nomatch hd
  · rintro ⟨htag, hupper⟩
    refine ⟨.greatest "maxLength" none (natBound n), (mem_draftsOf_iff (.inr rfl)).2 (.inl ?_), rfl⟩
    rw [lengthDrafts, List.contains_iff_mem.2 htag, hupper]
    exact List.mem_append_right _ List.mem_cons_self

/-- The drafts of a tag of numbers with bounds are those of its range. -/
theorem mem_draftsOf_iff_of_number (h : p.tag ∈ numericTags) {d : Draft}
    (hd : d.min.isSome = true ∨ d.max.isSome = true) : d ∈ draftsOf p ↔ d ∈ rangeDrafts p := by
  have hnumber : ∀ tag ∈ numericTags, lengthTags.contains tag = false := by decide
  have hlength : lengthDrafts p = [] := by
    rw [lengthDrafts, hnumber p.tag h]
    rfl
  rw [mem_draftsOf_iff hd, hlength]
  exact or_iff_right List.not_mem_nil

/-- **A rule on the range** is made for three tags of numbers. -/
theorem exists_range_iff (h : p.tag ∈ numericTags) {b : Bound} :
    ((∃ d ∈ draftsOf p, d.min = some b) ↔ p.tag ∈ rangeTags ∧ p.min = some b) ∧
      ((∃ d ∈ draftsOf p, d.max = some b) ↔ p.tag ∈ rangeTags ∧ p.max = some b) := by
  have hmin : (∃ d ∈ draftsOf p, d.min = some b) ↔ ∃ d ∈ rangeDrafts p, d.min = some b :=
    exists_congr fun d => and_congr_left fun hd =>
      mem_draftsOf_iff_of_number h (.inl (by simp [hd]))
  have hmax : (∃ d ∈ draftsOf p, d.max = some b) ↔ ∃ d ∈ rangeDrafts p, d.max = some b :=
    exists_congr fun d => and_congr_left fun hd =>
      mem_draftsOf_iff_of_number h (.inr (by simp [hd]))
  rw [hmin, hmax, rangeDrafts]
  by_cases htag : p.tag ∈ rangeTags
  · rw [if_pos (List.contains_iff_mem.2 htag)]
    cases p.min <;> cases p.max <;> simp [Draft.least, Draft.greatest, htag]
  · rw [if_neg (mt List.contains_iff_mem.1 htag)]
    simp [htag]

/-- A tag of numbers has no rule on a length: a rule of its range has a type. -/
theorem max_eq_none_of_untyped (h : p.tag ∈ numericTags) {d : Draft} (hd : d ∈ draftsOf p)
    (htype : d.type = none) : d.max = none := by
  by_contra hmax
  have hsome : d.max.isSome = true := Option.isSome_iff_ne_none.2 hmax
  rw [mem_draftsOf_iff_of_number h (.inr hsome)] at hd
  unfold rangeDrafts at hd
  split at hd
  · rcases List.mem_append.1 hd with hd | hd
    · obtain ⟨b, -, rfl⟩ := Option.map_eq_some_iff.1 (Option.mem_toList.1 hd)
      exact nomatch htype
    · obtain ⟨b, -, rfl⟩ := Option.map_eq_some_iff.1 (Option.mem_toList.1 hd)
      exact nomatch htype
  · exact nomatch hd

end EntityRules

/-! ## 3. Both -/

open Zod (Call ofProperty?) in
open EntityRules (lengthTags natBound ofProperty rangeTags) in
/-- **When validators and rules enforce the same bounds.**  A primitive property without a rule set
has a validator if it is a text or a number.  A text that declares a length has it on both sides or
on neither exactly if that length is zero or its tag has lengths in the table of the rules.  A
number has no length on either side, and each bound of its range on both sides exactly if its tag
has ranges in the table of the rules. -/
theorem bounds_agree_iff (config : Config) (templates : MessageTable) (name : String)
    (hkind : p.kind = .primitive) (hrules : p.rules = none)
    (htag : p.tag ∈ stringTags ∨ p.tag ∈ numericTags) :
    let rules := (ofProperty config templates name p).rules
    ∃ e, ofProperty? config p = some e ∧
      (p.tag ∈ stringTags → ∀ u, declaredLength? p = some u →
        ((Call.max (Int.ofNat u) ∈ e.calls ↔ ∃ r ∈ rules, r.max = some (natBound u))
          ↔ u = 0 ∨ p.tag ∈ lengthTags)) ∧
      (p.tag ∈ numericTags →
        ((∀ n, Call.max n ∉ e.calls) ∧ ∀ r ∈ rules, r.type = none → r.max = none) ∧
        (∀ b, p.min = some b →
          ((Call.gte b ∈ e.calls ↔ ∃ r ∈ rules, r.min = some b) ↔ p.tag ∈ rangeTags)) ∧
        ∀ b, p.max = some b →
          ((Call.lte b ∈ e.calls ↔ ∃ r ∈ rules, r.max = some b) ↔ p.tag ∈ rangeTags)) := by
  intro rules
  have hproperty {e : Zod.Expr} (he : Zod.ofPrimitive? p = some e) :
      ofProperty? config p = some (Zod.finish p e) := by
    simp only [ofProperty?, hkind, he, Option.map_some]
  have hdisjoint : ∀ tag ∈ stringTags, tag ∉ numericTags := by decide
  rcases htag with htext | hnumber
  · obtain ⟨e, he, hupper⟩ := Zod.exists_ofPrimitive?_of_text htext
    refine ⟨_, hproperty he, fun _ u hu => ?_, fun h => absurd h (hdisjoint _ htext)⟩
    have hmax : (∃ r ∈ rules, r.max = some (natBound u)) ↔ p.tag ∈ lengthTags ∧ u ≠ 0 := by
      rw [EntityRules.exists_rule_iff fun _ _ max => max = some (natBound u),
        EntityRules.exists_greatestLength_iff htext, Zod.upperLength?_eq_some_iff hu]
      simp
    rw [Zod.mem_calls_finish_iff hrules rfl, hupper, Zod.upperLength?_eq_some_iff hu, hmax]
    by_cases hzero : u = 0 <;> simp [hzero]
  · obtain ⟨e, he, hlength, hmin, hmax⟩ := Zod.exists_ofPrimitive?_of_number hnumber
    refine ⟨_, hproperty he, fun h => absurd hnumber (hdisjoint _ h), fun _ => ⟨⟨?_, ?_⟩, ?_, ?_⟩⟩
    · intro n
      rw [Zod.mem_calls_finish_iff hrules rfl]
      exact hlength n
    · intro r hr htype
      obtain ⟨d, hd, rfl⟩ := List.mem_map.1 hr
      exact EntityRules.max_eq_none_of_untyped hnumber hd htype
    · intro b hb
      rw [Zod.mem_calls_finish_iff hrules rfl, hmin,
        EntityRules.exists_rule_iff fun _ min _ => min = some b,
        (EntityRules.exists_range_iff hnumber).1]
      simp [hb]
    · intro b hb
      rw [Zod.mem_calls_finish_iff hrules rfl, hmax,
        EntityRules.exists_rule_iff fun _ _ max => max = some b,
        (EntityRules.exists_range_iff hnumber).2]
      simp [hb]

open Zod (Call ofProperty?) in
/-- A text whose column has a length. -/
theorem bounds_agree_column :
    let p : Property := { tag := "String", length := some 20, kind := .primitive }
    p.kind = .primitive ∧ p.rules = none ∧ p.tag ∈ stringTags ∧
      ∃ e, ofProperty? {} p = some e ∧ Call.max 20 ∈ e.calls ∧
        ∃ r ∈ (EntityRules.ofProperty {} Messages.ruleTemplates "code" p).rules,
          r.max = some (EntityRules.natBound 20) := by
  intro p
  have htag : p.tag ∈ stringTags := by decide
  obtain ⟨e, he, htext, -⟩ :=
    bounds_agree_iff {} Messages.ruleTemplates "code" (p := p) rfl rfl (.inl htag)
  have hagree := (htext htag 20 rfl).2 (.inr (by decide))
  have hexpr : ofProperty? {} p = some ⟨.string, [.min 1, .max 20]⟩ := by decide
  obtain rfl := Option.some.inj (hexpr.symm.trans he)
  have hmax : Call.max 20 ∈ [Call.min 1, .max 20] := by decide
  exact ⟨rfl, rfl, htag, _, hexpr, hmax, hagree.1 hmax⟩

open Zod (ofProperty?) in
open EntityRules (ofProperty) in
/-- A text and a number that only their validators bound: their rules say no more than that a value
has to be there. -/
theorem bounds_of_validators_alone :
    let text : Property := { tag := "MediumText", maxLength := some 10, kind := .primitive }
    let number : Property := { tag := "TinyInt", min := some (.whole 1), kind := .primitive }
    ofProperty? {} text = some ⟨.string, [.min 1, .max 10]⟩ ∧
      (ofProperty {} Messages.ruleTemplates "note" text).rules.map (fun r => (r.required, r.max))
        = [(true, none)] ∧
      ofProperty? {} number = some ⟨.number, [.int, .gte (.whole 1)]⟩ ∧
      (ofProperty {} Messages.ruleTemplates "rank" number).rules.map
        (fun r => (r.required, r.min)) = [(true, none)] := by
  decide

end SchemaTypes
