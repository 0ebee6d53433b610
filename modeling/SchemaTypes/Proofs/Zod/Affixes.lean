/-
# Patterns of affixes

A rule that asks for one of several prefixes, or suffixes, becomes a pattern: an anchor and a group
with the escaped values and bars between them.  Read back (`Side.patternTokens_pattern`), nothing in
it is special but the anchor, the two parentheses and these bars, whatever characters the values
have, so the pattern accepts the texts with one of the affixes (`Side.accepts_pattern_iff`).  Empty
values are left out before, and in a text schema such a pattern is one of the checks of the chain
(`exists_affix_pattern`).

A line break is not special in a pattern, but no literal between slashes has one: the pattern is
read from the generated text exactly if every value is on one line (`Side.readRegex?_pattern_iff`).
-/
import Mathlib
import SchemaTypes.Proofs.TypeScript.Regex
import SchemaTypes.Proofs.TypeScript.Scanner
import SchemaTypes.Proofs.Zod.Nullability

namespace SchemaTypes.Zod

open TypeScript

/-! ## 1. The two ends of a text -/

/-- The end of a text that a rule on affixes looks at. -/
inductive Side where
  | front
  | back
deriving DecidableEq, Repr

namespace Side

/-- What a rule set asks for at this end. -/
def affixes : Side → RuleSet → Option Affixes
  | .front => RuleSet.startsWith
  | .back => RuleSet.endsWith

/-- The text has the value at this end. -/
def Shows : Side → String → String → Prop
  | .front, text, value => Text.startsWith text value = true
  | .back, text, value => Text.endsWith text value = true

/-- The special characters in front of the alternatives. -/
def opening : Side → List PatternToken
  | .front => [.special '^', .special '(']
  | .back => [.special '(']

/-- The special characters behind the alternatives. -/
def closing : Side → List PatternToken
  | .front => [.special ')']
  | .back => [.special ')', .special '$']

/-- The pattern of some values. -/
def pattern : Side → List String → String
  | .front, values => "^" ++ alternation values
  | .back, values => alternation values ++ "$"

/-- The methods of some values. -/
def calls : Side → List String → List Call
  | .front => startCalls
  | .back => endCalls

/-- **The pattern lists the values.**  Its special characters are the anchor, the parentheses and
bars, the pieces between the bars are the values with nothing special in them, and it accepts the
texts that show one of them. -/
structure Lists (side : Side) (body : String) (values : List String) : Prop where
  noSlash : PatternToken.special '/' ∉ patternTokens body.toList
  tokens : ∃ inner, patternTokens body.toList = side.opening ++ inner ++ side.closing ∧
    (∀ c, PatternToken.special c ∈ inner → c = '|') ∧
    inner.splitOn (.special '|') = values.map fun v => plainTokens v.toList
  accepts : ∀ text, Accepts body text ↔ ∃ v ∈ values, side.Shows text v

end Side

/-! ## 2. The pattern read back -/

variable {values : List String}

theorem toList_alternation (values : List String) :
    (alternation values).toList = '(' ::
      (List.intercalate ['|'] ((values.map String.toList).map (escapeBy isRegexSpecial))
        ++ [')']) := by
  simp [alternation, String.toList_intercalate, escapeRegex, Function.comp_def]

/-- Between its parentheses, the alternatives are read with their bars. -/
theorem patternTokens_alternation (hne : values ≠ []) (rest : List Char) :
    patternTokens ((alternation values).toList ++ rest)
      = .special '(' :: (barredTokens (values.map String.toList)
          ++ .special ')' :: patternTokens rest) := by
  have hlist : values.map String.toList ≠ [] := by simpa using hne
  rw [toList_alternation, List.cons_append, List.append_assoc, List.singleton_append,
    patternTokens_special (by decide) (by decide), patternTokens_barred hlist,
    patternTokens_special (by decide) (by decide)]

/-- **The whole pattern** is read as its anchor, its parentheses and the values. -/
theorem Side.patternTokens_pattern (side : Side) (hne : values ≠ []) :
    patternTokens (side.pattern values).toList
      = side.opening ++ barredTokens (values.map String.toList) ++ side.closing := by
  cases side with
  | front =>
    have halternation := patternTokens_alternation hne []
    have htext :
        (Side.front.pattern values).toList = '^' :: ((alternation values).toList ++ []) := by
      simp [Side.pattern]
    rw [htext, patternTokens_special (by decide) (by decide), halternation]
    rfl
  | back =>
    have halternation := patternTokens_alternation hne ['$']
    have htext : (Side.back.pattern values).toList = (alternation values).toList ++ ['$'] := by
      simp [Side.pattern]
    have hanchor : patternTokens ['$'] = [.special '$'] := by decide
    rw [htext, halternation, hanchor]
    simp [Side.opening, Side.closing]

example : patternTokens (Side.front.pattern ["a|b", "c\\"]).toList
    = [.special '^', .special '(', .literal 'a', .literal '|', .literal 'b', .special '|',
      .literal 'c', .literal '\\', .special ')'] := by decide

/-- Nothing is left of the text at this end. -/
def Side.AtEnd : Side → List Char → List Char → Prop
  | .front, before, _ => before = []
  | .back, _, behind => behind = []

/-- The expression of the pattern matches the values, at its end of the text. -/
theorem Side.exists_patternRegex? (side : Side) (hne : values ≠ []) :
    ∃ r, patternRegex? (side.pattern values) = some r ∧ ∀ before part behind,
      r.Matches before part behind
        ↔ side.AtEnd before behind ∧ part ∈ values.map String.toList := by
  have hlist : values.map String.toList ≠ [] := by simpa using hne
  rw [patternRegex?, side.patternTokens_pattern hne]
  cases side with
  | front =>
    obtain ⟨r, hread, hmatches⟩ := exists_regexFrom?_group hlist (OpenGroup.add {} .start) [] []
    refine ⟨.seq (.seq .empty .start) r, ?_, fun before part behind => ?_⟩
    · simpa [opening, closing, regexFrom?, OpenGroup.add, OpenGroup.whole] using hread
    · simp only [Regex.Matches, hmatches, AtEnd]
      constructor
      · rintro ⟨_, b, rfl, ⟨_, _, rfl, rfl, hbefore, rfl⟩, hb⟩
        exact ⟨by simpa using hbefore, by simpa using hb⟩
      · rintro ⟨rfl, hpart⟩
        exact ⟨[], part, rfl, ⟨[], [], rfl, rfl, rfl, rfl⟩, hpart⟩
  | back =>
    obtain ⟨r, hread, hmatches⟩ := exists_regexFrom?_group hlist {} [] [.special '$']
    refine ⟨.seq (.seq .empty r) .finish, ?_, fun before part behind => ?_⟩
    · simpa [opening, closing, regexFrom?, OpenGroup.add, OpenGroup.whole] using hread
    · simp only [Regex.Matches, hmatches, AtEnd]
      constructor
      · rintro ⟨_, _, rfl, ⟨_, b, rfl, rfl, hb⟩, rfl, rfl⟩
        exact ⟨rfl, by simpa using hb⟩
      · rintro ⟨rfl, hpart⟩
        exact ⟨part, [], by simp, ⟨[], part, rfl, rfl, hpart⟩, rfl, rfl⟩

theorem Side.shows_iff (side : Side) (text value : String) :
    side.Shows text value ↔ ∃ before behind,
      text.toList = before ++ value.toList ++ behind ∧ side.AtEnd before behind := by
  cases side with
  | front =>
    rw [Shows, Text.startsWith_iff]
    constructor
    · rintro ⟨behind, htext⟩
      exact ⟨[], behind, by simpa using htext.symm, rfl⟩
    · rintro ⟨_, behind, htext, rfl⟩
      exact ⟨behind, by simpa using htext.symm⟩
  | back =>
    rw [Shows, Text.endsWith_iff]
    constructor
    · rintro ⟨before, htext⟩
      exact ⟨before, [], by simpa using htext.symm, rfl⟩
    · rintro ⟨before, _, htext, rfl⟩
      exact ⟨before, by simpa using htext.symm⟩

/-- **What the pattern accepts**: the texts that show one of the values. -/
theorem Side.accepts_pattern_iff (side : Side) (hne : values ≠ []) (text : String) :
    Accepts (side.pattern values) text ↔ ∃ v ∈ values, side.Shows text v := by
  obtain ⟨r, hread, hmatches⟩ := side.exists_patternRegex? hne
  simp only [Accepts, hread, Option.some.injEq, exists_eq_left', hmatches, side.shows_iff]
  constructor
  · rintro ⟨before, part, behind, htext, hend, hpart⟩
    obtain ⟨v, hv, rfl⟩ := List.mem_map.1 hpart
    exact ⟨v, hv, before, behind, htext, hend⟩
  · rintro ⟨v, hv, before, behind, htext, hend⟩
    exact ⟨before, v.toList, behind, htext, hend, List.mem_map_of_mem hv⟩

theorem Side.lists_pattern (side : Side) (hne : values ≠ []) :
    side.Lists (side.pattern values) values := by
  have htokens := side.patternTokens_pattern hne
  have hlist : values.map String.toList ≠ [] := by simpa using hne
  have hsplit := splitOn_barredTokens hlist
  rw [List.map_map] at hsplit
  have hinner (c : Char) (hc : PatternToken.special c ∈ barredTokens (values.map String.toList)) :
      c = '|' := eq_bar_of_special_mem hc
  refine ⟨?_, ⟨_, htokens, hinner, hsplit⟩, side.accepts_pattern_iff hne⟩
  rw [htokens, List.mem_append, List.mem_append]
  rintro ((hopening | hbarred) | hclosing)
  · cases side <;> simp [Side.opening] at hopening
  · exact absurd (hinner _ hbarred) (by decide)
  · cases side <;> simp [Side.closing] at hclosing

/-! ## 3. The check in a chain -/

/-- The values of a list that are not empty. -/
theorem nonEmptyAffixes_many (xs : List String) :
    nonEmptyAffixes (some (.many xs)) = xs.filter (· ≠ "") := by
  refine List.filter_congr fun s _ => ?_
  rw [Bool.eq_iff_iff]
  simp

/-- A pattern with a message stands in a literal. -/
theorem Call.text_regex (body message : String) :
    (Call.regex body (some message)).text
      = ".regex(" ++ regexLiteral body ++ ", " ++ messageOption message ++ ")" := by
  have htext : (Call.regex body (some message)).text
      = ".regex(/" ++ body ++ "/, " ++ messageOption message ++ ")" := rfl
  have hopen : ".regex(/" = ".regex(" ++ "/" := rfl
  have hclose : "/, " = "/" ++ ", " := rfl
  rw [htext, hopen, hclose, regexLiteral]
  simp only [String.append_assoc]

/-- Several values become one method, with a message beside the pattern. -/
theorem Side.exists_calls_eq (side : Side) (htwo : 2 ≤ values.length) :
    ∃ message, side.calls values = [.regex (side.pattern values) (some message)] := by
  match values, htwo with
  | v :: w :: more, _ => cases side <;> exact ⟨_, rfl⟩

/-- The methods of a rule set on a text hold those on its affixes. -/
theorem Side.exists_textCalls_eq (side : Side) (r : RuleSet) :
    ∃ before behind,
      textCalls r = before ++ side.calls (nonEmptyAffixes (side.affixes r)) ++ behind := by
  let checks := callsOf (fun n => [Call.min (Int.ofNat n)]) r.minLength
    ++ callsOf (fun n => [Call.max (Int.ofNat n)]) r.maxLength ++ classCalls r
    ++ callsOf digitsCalls r.digits ++ callsOf digitsBetweenCalls r.digitsBetween
  let cases := (if r.lowercase then [Call.lowercase] else [])
    ++ (if r.uppercase then [Call.uppercase] else [])
  cases side with
  | front =>
    refine ⟨checks, endCalls (nonEmptyAffixes r.endsWith) ++ cases, ?_⟩
    simp [textCalls, calls, affixes, checks, cases]
  | back =>
    refine ⟨checks ++ startCalls (nonEmptyAffixes r.startsWith), cases, ?_⟩
    simp [textCalls, calls, affixes, checks, cases]

/-- **A list of several affixes** in the rules of a text is checked by one pattern, and that lists
the values that are not empty: it accepts the texts with one of these affixes. -/
theorem exists_affix_pattern (e : Expr) {r : RuleSet} {tag : String} (htag : tag ∈ stringTags)
    {side : Side} {xs : List String} (hxs : side.affixes r = some (.many xs))
    (htwo : 2 ≤ (xs.filter (· ≠ "")).length) :
    ∃ front body message back, (applyRules e (some r) tag).text
        = front ++ ".regex(" ++ regexLiteral body ++ ", " ++ messageOption message ++ ")" ++ back ∧
      side.Lists body (xs.filter (· ≠ "")) := by
  have hne : xs.filter (· ≠ "") ≠ [] := List.ne_nil_of_length_pos (by omega)
  obtain ⟨message, hcalls⟩ := side.exists_calls_eq htwo
  obtain ⟨before, behind, htext⟩ := side.exists_textCalls_eq r
  rw [hxs, nonEmptyAffixes_many, hcalls] at htext
  let body := side.pattern (xs.filter (· ≠ ""))
  let numbers := if numericTags.contains tag then numberCalls r else []
  -- The methods in front of the pattern, and those behind it.
  have hchain : applyRules e (some r) tag = (((formatOf? r).getD e).andAlso before).andAlso
      (.regex body (some message) :: (behind ++ numbers)) := by
    rw [applyRules, if_pos (List.contains_iff_mem.2 htag), htext]
    simp [Expr.andAlso, body, numbers]
  refine ⟨(((formatOf? r).getD e).andAlso before).text, body, message,
    String.join ((behind ++ numbers).map Call.text), ?_, side.lists_pattern hne⟩
  rw [hchain, Expr.text_andAlso, List.map_cons, String.join_cons, Call.text_regex]
  simp only [String.append_assoc]

/-- Two prefixes, one of which has characters that mean something in a pattern. -/
theorem exists_affix_pattern_prefixes :
    ∃ front body message back,
      (applyRules ⟨.string, []⟩
          (some { startsWith := some (.many ["a|b", "", "https://"]) }) "String").text
        = front ++ ".regex(" ++ regexLiteral body ++ ", " ++ messageOption message ++ ")" ++ back ∧
      Side.front.Lists body (["a|b", "", "https://"].filter (· ≠ "")) := by
  have hxs : Side.front.affixes { startsWith := some (.many ["a|b", "", "https://"]) }
      = some (.many ["a|b", "", "https://"]) := rfl
  exact exists_affix_pattern ⟨.string, []⟩ (by decide) hxs (by decide)

/-! ## 4. The literal in the text -/

theorem Side.passesOver_pattern (side : Side)
    (h : ∀ v ∈ values, ∀ c ∈ v.toList, isRegexLineEnd c = false) :
    PassesOver (side.pattern values).toList := by
  have hparts : PassesOver (List.intercalate ['|']
      ((values.map String.toList).map (escapeBy isRegexSpecial))) := by
    refine passesOver_intercalate fun l hl => ?_
    obtain ⟨cs, hcs, rfl⟩ := List.mem_map.1 hl
    obtain ⟨v, hv, rfl⟩ := List.mem_map.1 hcs
    exact passesOver_escapeBy (h v hv)
  have hgroup : PassesOver (alternation values).toList := by
    rw [toList_alternation]
    refine passesOver_cons (by decide) (by decide) rfl (hparts.append ?_)
    exact passesOver_cons (by decide) (by decide) rfl passesOver_nil
  cases side with
  | front =>
    rw [pattern, String.toList_append]
    exact passesOver_cons (by decide) (by decide) rfl hgroup
  | back =>
    rw [pattern, String.toList_append]
    exact hgroup.append (passesOver_cons (by decide) (by decide) rfl passesOver_nil)

/-- **The literal of the pattern** is read as a whole exactly if every value is on one line. -/
theorem Side.readRegex?_pattern_iff (side : Side) (after : String) :
    readRegex? (regexLiteral (side.pattern values) ++ after) = some (side.pattern values, after)
      ↔ ∀ v ∈ values, ∀ c ∈ v.toList, isRegexLineEnd c = false := by
  -- The first character of the pattern begins no comment.
  have hfrom : readRegexChars? ('/' :: ((side.pattern values).toList ++ '/' :: after.toList))
      = regexFrom .free ((side.pattern values).toList ++ '/' :: after.toList) := by
    cases side <;> simp [pattern, toList_alternation, readRegexChars?]
  rw [readRegex?_eq_some_iff, toList_regexLiteral_append, hfrom]
  constructor
  · intro h v hv c hc
    refine (regexFrom_iff.1 h).1 c ?_
    have hescaped : c ∈ (escapeRegex v).toList := by
      rw [escapeRegex, String.toList_ofList]
      exact mem_escapeBy hc
    have halternation : c ∈ (alternation values).toList := by
      have hpart : (escapeRegex v).toList
          <:+: (String.intercalate "|" (values.map escapeRegex)).toList :=
        Text.infix_intercalate (List.mem_map_of_mem hv)
      rw [alternation, String.toList_append, String.toList_append]
      exact List.mem_append_left _ (List.mem_append_right _ (hpart.subset hescaped))
    cases side <;> simp [pattern, halternation]
  · intro h
    rw [side.passesOver_pattern h, regexFrom]
    simp [isRegexLineEnd, isLineEnd]

end SchemaTypes.Zod
