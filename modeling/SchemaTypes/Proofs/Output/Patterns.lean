/-
# Patterns in generated files

A pattern of a schema is written between two slashes, as it is, by three writers: the validator of a
property, the validator of an entry of a compound type, and the rule of an entity.  Each has its own
place for it (`finish_endsWith_pattern`, `ofEntry_endsWith_pattern`, `ruleText_shows_pattern`).
There it is read as one literal with the pattern as its body exactly if no slash of the pattern is
bare (`pattern_read_iff`): nothing puts a backslash in front of a slash.
-/
import Mathlib
import SchemaTypes.Output.RulesModule
import SchemaTypes.Proofs.TypeScript.Scanner
import SchemaTypes.Proofs.Zod.Nullability

namespace SchemaTypes.Zod

open TypeScript (regexLiteral)

/-! ## 1. Validators -/

theorem filter_nonEmpty {s : String} (h : s ≠ "") : (some s).filter (!·.isEmpty) = some s := by
  simp [Option.filter, h]

/-- The end of a validator: the pattern, and the methods that let the value be absent. -/
def patternEnd (pattern : String) (nullable : Bool) : String :=
  ".regex(" ++ regexLiteral pattern ++ ")" ++ if nullable then absentText else ""

theorem text_patternCalls {pattern : String} (h : pattern ≠ "") (nullable : Bool) :
    String.join ((patternCalls (some pattern) ++ absentCalls nullable).map Call.text)
      = patternEnd pattern nullable := by
  have hcalls : patternCalls (some pattern) = [.regex pattern none] := by
    rw [patternCalls, filter_nonEmpty h]
    rfl
  have hcall : String.join ([Call.regex pattern none].map Call.text)
      = ".regex(" ++ regexLiteral pattern ++ ")" := by
    have htext : (Call.regex pattern none).text = ".regex(/" ++ pattern ++ "/)" := rfl
    have hopen : ".regex(/" = ".regex(" ++ "/" := rfl
    have hclose : "/)" = "/" ++ ")" := rfl
    rw [List.map_singleton, htext, hopen, hclose, regexLiteral]
    simp only [String.join_cons, String.join_nil, String.append_assoc, String.append_empty]
  rw [hcalls, List.map_append, String.join_append, join_absentCalls, hcall, patternEnd]

/-- The pattern of a property is the last check of its validator. -/
theorem finish_endsWith_pattern {p : Property} {pattern : String} (hp : p.pattern = some pattern)
    (hne : pattern ≠ "") (e : Expr) :
    (finish p e).text = (applyRules e p.rules p.tag).text ++ patternEnd pattern p.isNullable := by
  rw [finish, hp, Expr.text_andAlso, text_patternCalls hne]

/-- Every validator of a property that is not of a plugin type ends so. -/
theorem exists_finish_of_ofProperty? {config : Config} {p : Property} {e : Expr}
    (hkind : p.kind ≠ .custom) (h : ofProperty? config p = some e) : ∃ base, e = finish p base := by
  unfold ofProperty? at h
  split at h
  · exact nomatch h
  · exact nomatch h
  · exact absurd ‹_› hkind
  · exact ⟨_, (Option.some.inj h).symm⟩
  · exact ⟨_, (Option.some.inj h).symm⟩
  · exact ⟨_, (Option.some.inj h).symm⟩
  · obtain ⟨base, -, he⟩ := Option.map_eq_some_iff.1 h
    exact ⟨base, he.symm⟩

/-- The pattern of an entry of a compound type is the last check of its validator. -/
theorem ofEntry_endsWith_pattern {p : Property} {entry : CompoundEntry} {pattern : String}
    (hp : ruleSetting p entry (·.pattern) = some pattern) (hne : pattern ≠ "")
    (hformat : entryFormat p entry = none) :
    ∃ front, (ofEntry p entry).text
      = front ++ patternEnd pattern (Interface.entryNullable p entry) := by
  let bounds := entryLowerCalls p entry
    ++ callsOf (fun n => [.max (Int.ofNat n)]) (positive? (entryLength p entry))
  have hsplit : ofEntry p entry = ((ofFormat none).andAlso bounds).andAlso
      (patternCalls (some pattern) ++ absentCalls (Interface.entryNullable p entry)) := by
    rw [ofEntry, hp, hformat]
    simp [Expr.andAlso, bounds]
  exact ⟨_, by rw [hsplit, Expr.text_andAlso, text_patternCalls hne]⟩

end SchemaTypes.Zod

namespace SchemaTypes.Output

open TypeScript (BareSlash RegexBody readRegex? readRegex?_iff regexLiteral)

/-! ## 2. Rules -/

/-- The last two of some parts. -/
theorem exists_intercalate_append (sep a b : String) (parts : List String) :
    ∃ front, String.intercalate sep (parts ++ [a, b]) = front ++ a ++ sep ++ b := by
  induction parts with
  | nil => exact ⟨"", by simp [String.intercalate_cons_cons]⟩
  | cons first rest ih =>
    obtain ⟨front, hfront⟩ := ih
    obtain ⟨second, others, hcons⟩ := List.exists_cons_of_ne_nil
      (List.append_ne_nil_of_right_ne_nil rest (List.cons_ne_nil a [b]))
    refine ⟨first ++ sep ++ front, ?_⟩
    rw [List.cons_append, hcons, String.intercalate_cons_cons, ← hcons, hfront]
    simp only [String.append_assoc]

/-- The pattern of a rule stands in front of its messages. -/
theorem ruleText_shows_pattern {rule : PropertyRule} {pattern : String}
    (hp : rule.pattern = some pattern) (hne : pattern ≠ "") :
    ∃ front, ruleText rule = front ++ "pattern: " ++ regexLiteral pattern ++ ", message: "
      ++ Json.textMap .compact rule.message ++ " \x7d" := by
  obtain ⟨front, hfront⟩ := exists_intercalate_append ", " ("pattern: /" ++ pattern ++ "/")
    ("message: " ++ Json.textMap .compact rule.message)
    ((if rule.required then ["required: true"] else [])
      ++ ((rule.type.filter (!·.isEmpty)).map fun t => "type: '" ++ t ++ "'").toList
      ++ (rule.min.map fun b => "min: " ++ b.literal).toList
      ++ (rule.max.map fun b => "max: " ++ b.literal).toList)
  refine ⟨"\x7b " ++ front, ?_⟩
  have hopen : "pattern: /" = "pattern: " ++ "/" := rfl
  have hmessage : ", message: " = ", " ++ "message: " := rfl
  rw [ruleText, hp, Zod.filter_nonEmpty hne]
  simp only [Option.map_some, Option.toList_some, List.append_assoc, List.singleton_append]
    at hfront ⊢
  rw [hfront, hopen, hmessage, regexLiteral]
  simp only [String.append_assoc]

/-! ## 3. Reading -/

/-- **A pattern survives as one literal** exactly if no slash in it is bare.  The validators and the
rule all write it between two slashes as it is. -/
theorem pattern_read_iff {pattern : String} (hpattern : RegexBody pattern.toList) :
    (∀ (config : Config) (p : Property) (e : Zod.Expr), p.pattern = some pattern →
        p.kind ≠ .custom → Zod.ofProperty? config p = some e →
        ∃ front, e.text = front ++ Zod.patternEnd pattern p.isNullable) ∧
      (∀ (p : Property) (entry : CompoundEntry),
        Zod.ruleSetting p entry (·.pattern) = some pattern → Zod.entryFormat p entry = none →
        ∃ front, (Zod.ofEntry p entry).text
          = front ++ Zod.patternEnd pattern (Interface.entryNullable p entry)) ∧
      (∀ rule : PropertyRule, rule.pattern = some pattern →
        ∃ front, ruleText rule = front ++ "pattern: " ++ regexLiteral pattern ++ ", message: "
          ++ Json.textMap .compact rule.message ++ " \x7d") ∧
      ∀ after, readRegex? (regexLiteral pattern ++ after) = some (pattern, after)
        ↔ ¬BareSlash .free pattern.toList := by
  have hne : pattern ≠ "" := by
    rintro rfl
    exact hpattern.ne_nil rfl
  refine ⟨fun config p e hp hkind he => ?_,
    fun p entry hp hformat => Zod.ofEntry_endsWith_pattern hp hne hformat,
    fun rule hp => ruleText_shows_pattern hp hne, readRegex?_iff hpattern⟩
  obtain ⟨base, rfl⟩ := Zod.exists_finish_of_ofProperty? hkind he
  exact ⟨_, Zod.finish_endsWith_pattern hp hne base⟩

/-- A text property with a pattern. -/
def patterned (pattern : String) : Property :=
  { tag := "String", pattern := some pattern, kind := .primitive }

/-- An entry of a compound type with a pattern. -/
def patternedEntry (pattern : String) : CompoundEntry :=
  { suffix := "Url", rules := some { pattern := some pattern } }

/-- Slashes behind backslashes and in brackets are not bare. -/
theorem pattern_read_iff_address :
    let pattern := "^https?:\\/\\/[^/]+$"
    let site : Property := { tag := "Site", kind := .custom }
    RegexBody pattern.toList ∧
      (∃ e front, Zod.ofProperty? {} (patterned pattern) = some e ∧
        e.text = front ++ Zod.patternEnd pattern false) ∧
      (∃ front, (Zod.ofEntry site (patternedEntry pattern)).text
        = front ++ Zod.patternEnd pattern false) ∧
      (∃ front, ruleText { message := [], pattern := some pattern } = front ++ "pattern: "
        ++ regexLiteral pattern ++ ", message: " ++ Json.textMap .compact [] ++ " \x7d") ∧
      ¬BareSlash .free pattern.toList := by
  intro pattern site
  have hbody : RegexBody pattern.toList := ⟨by decide, by decide, by decide, by decide⟩
  obtain ⟨hproperty, hentry, hrule, hread⟩ := pattern_read_iff hbody
  obtain ⟨front, hfront⟩ := hproperty {} (patterned pattern) _ rfl (fun h => nomatch h) rfl
  exact ⟨hbody, ⟨_, front, rfl, hfront⟩, hentry site (patternedEntry pattern) rfl rfl,
    hrule { message := [], pattern := some pattern } rfl, (hread ")").1 (by decide +kernel)⟩

/-- A bare slash ends the literal early, and what follows is no part of it. -/
theorem pattern_cut_at_slash :
    RegexBody "a/b".toList ∧
      (Zod.ofProperty? {} (patterned "a/b")).map (·.text)
        = some ("z.string().min(1).regex(" ++ regexLiteral "a/b" ++ ")") ∧
      readRegex? (regexLiteral "a/b" ++ ")") = some ("a", "b/)") ∧
      readRegex? (regexLiteral "a/b" ++ ")") ≠ some ("a/b", ")") :=
  ⟨⟨by decide, by decide, by decide, by decide⟩, by decide +kernel, by decide, by decide⟩

end SchemaTypes.Output
