/-
# Patterns as they are matched

What the text between the slashes of a regular expression means to a reader of JavaScript.  First
the characters are told apart (`patternTokens`): some mean something, and a backslash makes such a
character literal.  Then the tokens are read as an expression (`patternRegex?`), as far as it is
made of literal characters, the two anchors, groups and alternatives.  A text is accepted if some
part of it matches (`Accepts`).

Escaping makes every character of a text literal (`patternTokens_escapeBy`), and a group of texts
with bars between them matches these texts and nothing else (`exists_regexFrom?_group`).
-/
import Mathlib
import SchemaTypes.TypeScript.Literal

namespace SchemaTypes.TypeScript

/-! ## 1. Literal and special characters -/

/-- The characters that mean something in a pattern, and the slash that ends its literal. -/
def isSyntax (c : Char) : Bool :=
  ['^', '$', '\\', '.', '*', '+', '?', '(', ')', '[', ']', '\x7b', '\x7d', '|', '/'].contains c

/-- A character of a pattern as it is read. -/
inductive PatternToken where
  | literal (c : Char)
  | special (c : Char)
deriving DecidableEq, Repr

/-- The tokens of a pattern.  In front of a letter or a digit a backslash would begin a class or a
reference, so it makes nothing literal there. -/
def patternTokens : List Char → List PatternToken
  | [] => []
  | '\\' :: c :: r =>
    if isSyntax c then .literal c :: patternTokens r else .special '\\' :: patternTokens (c :: r)
  | c :: r => (if isSyntax c then .special c else .literal c) :: patternTokens r

/-- The tokens of a text that stands for itself. -/
def plainTokens (cs : List Char) : List PatternToken := cs.map .literal

/-- The tokens of several texts with bars between them. -/
def barredTokens (values : List (List Char)) : List PatternToken :=
  List.intercalate [.special '|'] (values.map plainTokens)

/-- What is escaped is what means something. -/
theorem isRegexSpecial_eq_isSyntax : isRegexSpecial = isSyntax := by
  funext c
  rw [Bool.eq_iff_iff]
  simp [isRegexSpecial, isSyntax]
  tauto

theorem patternTokens_special {c : Char} (h : isSyntax c = true) (hback : c ≠ '\\')
    (rest : List Char) : patternTokens (c :: rest) = .special c :: patternTokens rest := by
  simp [patternTokens, h, hback]

/-- **An escaped text** is read as its characters, whatever stands behind it. -/
theorem patternTokens_escapeBy (cs rest : List Char) :
    patternTokens (escapeBy isRegexSpecial cs ++ rest)
      = plainTokens cs ++ patternTokens rest := by
  rw [isRegexSpecial_eq_isSyntax]
  induction cs with
  | nil => rfl
  | cons c r ih =>
    cases hc : isSyntax c with
    | true => simp [escapeBy, hc, patternTokens, plainTokens, ih]
    | false =>
      have hback : c ≠ '\\' := by
        rintro rfl
        exact absurd hc (by decide)
      simp [escapeBy, hc, patternTokens, hback, plainTokens, ih]

@[simp] theorem barredTokens_singleton (v : List Char) : barredTokens [v] = plainTokens v := by
  simp [barredTokens]

theorem barredTokens_cons_cons (v w : List Char) (rest : List (List Char)) :
    barredTokens (v :: w :: rest)
      = plainTokens v ++ .special '|' :: barredTokens (w :: rest) := by
  simp [barredTokens, List.intercalate_cons_cons]

/-- Escaped texts keep their bars. -/
theorem patternTokens_barred {values : List (List Char)} (hne : values ≠ []) (rest : List Char) :
    patternTokens (List.intercalate ['|'] (values.map (escapeBy isRegexSpecial)) ++ rest)
      = barredTokens values ++ patternTokens rest := by
  induction values with
  | nil => exact absurd rfl hne
  | cons v more ih =>
    cases more with
    | nil => simp [patternTokens_escapeBy]
    | cons w more =>
      have hbar := patternTokens_special (c := '|') (by decide) (by decide)
      rw [barredTokens_cons_cons, List.append_assoc, List.cons_append,
        ← ih (List.cons_ne_nil _ _), ← hbar, ← patternTokens_escapeBy]
      simp [List.intercalate_cons_cons]

theorem special_notMem_plainTokens (c : Char) (cs : List Char) :
    PatternToken.special c ∉ plainTokens cs := by
  simp [plainTokens]

/-- A bar is the only special character between plain texts. -/
theorem eq_bar_of_special_mem {c : Char} {values : List (List Char)}
    (h : PatternToken.special c ∈ barredTokens values) : c = '|' := by
  induction values with
  | nil => simp [barredTokens] at h
  | cons v more ih =>
    cases more with
    | nil =>
      rw [barredTokens_singleton] at h
      exact absurd h (special_notMem_plainTokens c v)
    | cons w more =>
      rw [barredTokens_cons_cons, List.mem_append, List.mem_cons] at h
      rcases h with hv | hbar | hmore
      · exact absurd hv (special_notMem_plainTokens c v)
      · exact PatternToken.special.inj hbar
      · exact ih hmore

/-- Split at their bars, the tokens are those of the single texts. -/
theorem splitOn_barredTokens {values : List (List Char)} (hne : values ≠ []) :
    (barredTokens values).splitOn (.special '|') = values.map plainTokens := by
  refine List.splitOn_intercalate _ ?_ (by simpa using hne)
  simp [plainTokens]

/-! ## 2. Expressions -/

/-- A regular expression of literal characters, anchors and alternatives. -/
inductive Regex where
  | empty
  | char (c : Char)
  | start
  | finish
  | seq (r s : Regex)
  | alt (r s : Regex)
deriving DecidableEq, Repr

/-- The expression matches the part of a text between what stands before it and behind it.  The
anchors match nothing at the two ends of the text. -/
def Regex.Matches : Regex → List Char → List Char → List Char → Prop
  | .empty, _, part, _ => part = []
  | .char c, _, part, _ => part = [c]
  | .start, before, part, _ => before = [] ∧ part = []
  | .finish, _, part, behind => behind = [] ∧ part = []
  | .seq r s, before, part, behind =>
    ∃ a b, part = a ++ b ∧ r.Matches before a (b ++ behind) ∧ s.Matches (before ++ a) b behind
  | .alt r s, before, part, behind =>
    r.Matches before part behind ∨ s.Matches before part behind

/-- A group that is being read: the alternatives in front of its last bar, and the one behind. -/
structure OpenGroup where
  complete : Option Regex := none
  current : Regex := .empty
deriving DecidableEq, Repr

/-- The group with one more factor. -/
def OpenGroup.add (g : OpenGroup) (r : Regex) : OpenGroup := ⟨g.complete, .seq g.current r⟩

/-- The group when it ends here. -/
def OpenGroup.whole (g : OpenGroup) : Regex :=
  match g.complete with
  | none => g.current
  | some r => .alt r g.current

/-- The group behind a bar. -/
def OpenGroup.bar (g : OpenGroup) : OpenGroup := ⟨some g.whole, .empty⟩

/-- The expression that tokens complete, inside of a group and the groups around it.  Every
parenthesis is closed, and no other special characters are read. -/
def regexFrom? : OpenGroup → List OpenGroup → List PatternToken → Option Regex
  | g, [], [] => some g.whole
  | _, _ :: _, [] => none
  | g, outer, .literal c :: ts => regexFrom? (g.add (.char c)) outer ts
  | g, outer, .special '^' :: ts => regexFrom? (g.add .start) outer ts
  | g, outer, .special '$' :: ts => regexFrom? (g.add .finish) outer ts
  | g, outer, .special '|' :: ts => regexFrom? g.bar outer ts
  | g, outer, .special '(' :: ts => regexFrom? {} (g :: outer) ts
  | g, o :: outer, .special ')' :: ts => regexFrom? (o.add g.whole) outer ts
  | _, _, .special _ :: _ => none

/-- The expression of a pattern. -/
def patternRegex? (pattern : String) : Option Regex :=
  regexFrom? {} [] (patternTokens pattern.toList)

/-- Some part of the text matches the pattern. -/
def Accepts (pattern text : String) : Prop :=
  ∃ r, patternRegex? pattern = some r ∧
    ∃ before part behind, text.toList = before ++ part ++ behind ∧ r.Matches before part behind

/-! ## 3. Groups of alternatives -/

variable {before part behind : List Char}

theorem OpenGroup.matches_whole_iff (g : OpenGroup) :
    g.whole.Matches before part behind
      ↔ (∃ r ∈ g.complete, r.Matches before part behind) ∨
        g.current.Matches before part behind := by
  rcases g with ⟨_ | r, current⟩ <;> simp [OpenGroup.whole, Regex.Matches]

/-- The group behind the characters of a text. -/
def OpenGroup.addWord (g : OpenGroup) (word : List Char) : OpenGroup :=
  word.foldl (fun g c => g.add (.char c)) g

theorem OpenGroup.complete_addWord (g : OpenGroup) (word : List Char) :
    (g.addWord word).complete = g.complete := by
  induction word generalizing g with
  | nil => rfl
  | cons c r ih => exact ih (g.add (.char c))

theorem OpenGroup.matches_addWord_iff (g : OpenGroup) (word : List Char) :
    (g.addWord word).current.Matches before part behind
      ↔ ∃ a, part = a ++ word ∧ g.current.Matches before a (word ++ behind) := by
  induction word generalizing g with
  | nil => simp [OpenGroup.addWord]
  | cons c r ih =>
    refine (ih (g.add (.char c))).trans ?_
    constructor
    · rintro ⟨_, rfl, a, _, rfl, ha, rfl⟩
      exact ⟨a, by simp, ha⟩
    · rintro ⟨a, rfl, ha⟩
      exact ⟨a ++ [c], by simp, a, [c], rfl, ha, rfl⟩

/-- Behind a bar, or at the beginning of a group, a text adds itself to what the group matches. -/
theorem OpenGroup.matches_whole_addWord_iff {g : OpenGroup} (hg : g.current = .empty)
    (word : List Char) :
    (g.addWord word).whole.Matches before part behind
      ↔ (∃ r ∈ g.complete, r.Matches before part behind) ∨ part = word := by
  rw [matches_whole_iff, complete_addWord, matches_addWord_iff, hg]
  simp [Regex.Matches]

theorem regexFrom?_plainTokens (g : OpenGroup) (outer : List OpenGroup) (word : List Char)
    (ts : List PatternToken) :
    regexFrom? g outer (plainTokens word ++ ts) = regexFrom? (g.addWord word) outer ts := by
  induction word generalizing g with
  | nil => rfl
  | cons c r ih =>
    simp only [plainTokens, List.map_cons, List.cons_append, regexFrom?]
    exact ih (g.add (.char c))

/-- **Alternatives** that are read behind a bar, or at the beginning of a group, add themselves to
what the group matches. -/
theorem exists_regexFrom?_barred {values : List (List Char)} (hne : values ≠ []) {g : OpenGroup}
    (hg : g.current = .empty) (outer : List OpenGroup) (ts : List PatternToken) :
    ∃ g', regexFrom? g outer (barredTokens values ++ ts) = regexFrom? g' outer ts ∧
      ∀ before part behind, g'.whole.Matches before part behind
        ↔ (∃ r ∈ g.complete, r.Matches before part behind) ∨ part ∈ values := by
  induction values generalizing g with
  | nil => exact absurd rfl hne
  | cons v more ih =>
    cases more with
    | nil =>
      refine ⟨g.addWord v, ?_, fun before part behind => ?_⟩
      · rw [barredTokens_singleton, regexFrom?_plainTokens]
      · rw [OpenGroup.matches_whole_addWord_iff hg, List.mem_singleton]
    | cons w more =>
      have hbar : (g.addWord v).bar.complete = some (g.addWord v).whole := rfl
      obtain ⟨g', hread, hmatches⟩ := ih (List.cons_ne_nil w more) (g := (g.addWord v).bar) rfl
      refine ⟨g', ?_, fun before part behind => ?_⟩
      · rw [barredTokens_cons_cons, List.append_assoc, List.cons_append, regexFrom?_plainTokens,
          regexFrom?, hread]
      · rw [hmatches, hbar, List.mem_cons (a := part) (b := v), ← or_assoc,
          ← OpenGroup.matches_whole_addWord_iff hg]
        simp

/-- **A group of texts with bars between them** is one factor, which matches these texts. -/
theorem exists_regexFrom?_group {values : List (List Char)} (hne : values ≠ []) (g : OpenGroup)
    (outer : List OpenGroup) (ts : List PatternToken) :
    ∃ r, regexFrom? g outer (.special '(' :: (barredTokens values ++ .special ')' :: ts))
        = regexFrom? (g.add r) outer ts ∧
      ∀ before part behind, r.Matches before part behind ↔ part ∈ values := by
  obtain ⟨g', hread, hmatches⟩ :=
    exists_regexFrom?_barred hne (g := {}) rfl (g :: outer) (.special ')' :: ts)
  refine ⟨g'.whole, ?_, fun before part behind => ?_⟩
  · rw [regexFrom?, hread, regexFrom?]
  · rw [hmatches]
    simp

end SchemaTypes.TypeScript
