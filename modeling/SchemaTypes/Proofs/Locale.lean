/-
# Two readings of a label by locale

A label by locale is read in two ways: one text for one locale (`resolve`), and a text for each
configured locale (`perLocale`).  Both look for the locale itself, then for others, but the second
reading looks at fewer: it passes over the default locale, and where no locale has a text it takes a
text that is given from outside and not the first of the map.

So the readings differ on some maps.  `AgreesOn` lists the ways in which they agree, and
`lookup_perLocale_eq_resolve_iff` says that there are no others, and that the text from outside
stands for a map exactly if neither the locale nor the fallback locale nor English is in it.
-/
import SchemaTypes.Proofs.Data.Dictionary
import SchemaTypes.Locale

namespace SchemaTypes.Locale

variable {texts : List (String × String)} {c : LocaleConfig} {l : String}
  {default? : Option String}

/-! ## 1. Locales one after the other -/

/-- Looking again where nothing was found finds nothing. -/
theorem findSome?_filter {f : String → Option α} {name : String} (h : f name = none)
    (names : List String) : (names.filter (!· == name)).findSome? f = names.findSome? f := by
  induction names with
  | nil => rfl
  | cons n r ih =>
    by_cases hn : n = name
    · subst hn
      rw [List.filter_cons_of_neg (by simp), ih, List.findSome?_cons, h]
    · rw [List.filter_cons_of_pos (by simpa using hn), List.findSome?_cons, ih,
        List.findSome?_cons]

theorem findSome?_eraseDups (f : String → Option α) :
    ∀ names : List String, names.eraseDups.findSome? f = names.findSome? f
  | [] => rfl
  | name :: rest => by
    rw [List.eraseDups_cons, List.findSome?_cons, List.findSome?_cons]
    cases h : f name with
    | some a => rfl
    | none => exact (findSome?_eraseDups f _).trans (findSome?_filter h rest)
termination_by names => names.length
decreasing_by exact Nat.lt_succ_of_le (List.length_filter_le _ _)

/-- **One text of a map**: of the locale unless its name is empty, else of the fallback locale, else
of the default locale, else the English one, else the first. -/
theorem resolve_byLocale (texts : List (String × String)) (locale : Option String)
    (c : LocaleConfig) :
    resolve (some (.byLocale texts)) locale (some c)
      = ((locale.filter (!·.isEmpty)).bind (texts.lookup ·)).or
          ((texts.lookup c.fallbackLocale).or ((texts.lookup c.defaultLocale).or
            ((texts.lookup english).or (texts.head?.map (·.2))))) := by
  have hasked : locale.toList.filter (!·.isEmpty) = (locale.filter (!·.isEmpty)).toList := by
    cases locale with
    | none => rfl
    | some l => cases hl : l.isEmpty <;> simp [Option.filter, hl]
  simp only [resolve, pick, candidates, findSome?_eraseDups, hasked, Option.map_some,
    Option.getD_some]
  cases locale.filter (!·.isEmpty) with
  | none =>
    simp only [Option.toList_none, List.nil_append, List.cons_append, List.findSome?_cons]
    cases texts.lookup c.fallbackLocale <;> cases texts.lookup c.defaultLocale <;>
      cases texts.lookup english <;> rfl
  | some l =>
    simp only [Option.toList_some, List.cons_append, List.nil_append, List.findSome?_cons,
      Option.bind_some]
    cases texts.lookup l <;> cases texts.lookup c.fallbackLocale <;>
      cases texts.lookup c.defaultLocale <;> cases texts.lookup english <;> rfl

/-- The text of a map for a locale, by the places where it is looked for. -/
theorem textFor_eq (texts : List (String × String)) (fallback : String) (default? : Option String)
    (locale : String) :
    textFor texts fallback default? locale
      = (texts.lookup locale).or
          ((texts.lookup fallback).or ((texts.lookup english).or default?)) := by
  rw [textFor]
  cases texts.lookup locale <;> cases texts.lookup fallback <;> cases texts.lookup english <;> rfl

/-- **The text of a configured locale**: its own, else that of the fallback locale, else the English
one, else the one from outside. -/
theorem lookup_perLocale (h : l ∈ c.locales) (texts : List (String × String))
    (default? : Option String) :
    (perLocale (some (.byLocale texts)) c.locales c.fallbackLocale default?).lookup l
      = (texts.lookup l).or ((texts.lookup c.fallbackLocale).or
          ((texts.lookup english).or default?)) := by
  rw [perLocale, Dictionary.lookup_tabulate, if_pos h, textFor_eq]

/-! ## 2. Agreement -/

/-- The ways in which the two readings of a map agree on a locale. -/
inductive AgreesOn (c : LocaleConfig) (texts : List (String × String)) (default? : Option String)
    (l : String) : Prop
  /-- The locale has a name and a text. -/
  | own (named : l ≠ "") {t : String} (text : texts.lookup l = some t)
  /-- In its place the fallback locale has a text. -/
  | fallback (noOwn : texts.lookup l = none) {t : String}
      (text : texts.lookup c.fallbackLocale = some t)
  /-- In place of both the default locale has a text, and so has the English one or what stands for
  it. -/
  | standard (noOwn : texts.lookup l = none) (noFallback : texts.lookup c.fallbackLocale = none)
      {t : String} (text : texts.lookup c.defaultLocale = some t)
      (same : (texts.lookup Locale.english).or default? = some t)
  /-- In place of these there is an English text. -/
  | english (noOwn : texts.lookup l = none) (noFallback : texts.lookup c.fallbackLocale = none)
      (noDefault : texts.lookup c.defaultLocale = none) {t : String}
      (text : texts.lookup Locale.english = some t)
  /-- None of these has a text, and the one from outside is the first of the map. -/
  | first (noOwn : texts.lookup l = none) (noFallback : texts.lookup c.fallbackLocale = none)
      (noDefault : texts.lookup c.defaultLocale = none)
      (noEnglish : texts.lookup Locale.english = none) (same : default? = texts.head?.map (·.2))
  /-- A locale without a name has the text that is found without it. -/
  | nameless (unnamed : l = "") {t : String} (text : texts.lookup l = some t)
      (same : (texts.lookup c.fallbackLocale).or ((texts.lookup c.defaultLocale).or
        ((texts.lookup Locale.english).or (texts.head?.map (·.2)))) = some t)

/-- A locale without a name is not looked for. -/
theorem resolve_locale (texts : List (String × String)) (l : String) (c : LocaleConfig) :
    resolve (some (.byLocale texts)) (some l) (some c)
      = (if l = "" then none else texts.lookup l).or
          ((texts.lookup c.fallbackLocale).or ((texts.lookup c.defaultLocale).or
            ((texts.lookup english).or (texts.head?.map (·.2))))) := by
  rw [resolve_byLocale]
  by_cases hl : l = "" <;> simp [Option.filter, hl]

/-- In each of these ways both readings give one text. -/
theorem AgreesOn.lookup_eq (hl : l ∈ c.locales) (h : AgreesOn c texts default? l) :
    (perLocale (some (.byLocale texts)) c.locales c.fallbackLocale default?).lookup l
      = resolve (some (.byLocale texts)) (some l) (some c) := by
  rw [lookup_perLocale hl, resolve_locale]
  cases h with
  | own named text => simp [named, text]
  | fallback noOwn text => simp [noOwn, text]
  | standard noOwn noFallback text same => simp [noOwn, noFallback, text, same]
  | english noOwn noFallback noDefault text => simp [noOwn, noFallback, noDefault, text]
  | first noOwn noFallback noDefault noEnglish same =>
    simp [noOwn, noFallback, noDefault, noEnglish, same]
  | nameless unnamed text same => simp [unnamed ▸ text, unnamed, same]

/-- Readings that give one text do so in one of these ways. -/
theorem AgreesOn.of_lookup_eq (hl : l ∈ c.locales)
    (h : (perLocale (some (.byLocale texts)) c.locales c.fallbackLocale default?).lookup l
      = resolve (some (.byLocale texts)) (some l) (some c)) : AgreesOn c texts default? l := by
  rw [lookup_perLocale hl, resolve_locale] at h
  cases hown : texts.lookup l with
  | some t =>
    by_cases hnamed : l = ""
    · rw [hown, if_pos hnamed, Option.some_or, Option.none_or] at h
      exact .nameless hnamed hown h.symm
    · exact .own hnamed hown
  | none =>
    cases hfallback : texts.lookup c.fallbackLocale with
    | some t => exact .fallback hown hfallback
    | none =>
      rw [hown, ite_self, hfallback] at h
      simp only [Option.none_or] at h
      cases hdefault : texts.lookup c.defaultLocale with
      | some t =>
        rw [hdefault, Option.some_or] at h
        exact .standard hown hfallback hdefault h
      | none =>
        cases henglish : texts.lookup Locale.english with
        | some t => exact .english hown hfallback hdefault henglish
        | none =>
          rw [hdefault, henglish] at h
          simp only [Option.none_or] at h
          exact .first hown hfallback hdefault henglish h

/-- **The two readings of a map agree on a configured locale** exactly in the ways of `AgreesOn`,
and the text from outside stands for the map exactly if none of the three locales that the second
reading looks at is in it. -/
theorem lookup_perLocale_eq_resolve_iff (hl : l ∈ c.locales) (texts : List (String × String)) :
    (∀ default?, (perLocale (some (.byLocale texts)) c.locales c.fallbackLocale default?).lookup l
        = resolve (some (.byLocale texts)) (some l) (some c) ↔ AgreesOn c texts default? l) ∧
      ((∀ default?, (perLocale (some (.byLocale texts)) c.locales c.fallbackLocale
          default?).lookup l = default?) ↔
        texts.lookup l = none ∧ texts.lookup c.fallbackLocale = none ∧
          texts.lookup english = none) := by
  refine ⟨fun default? => ⟨.of_lookup_eq hl, AgreesOn.lookup_eq hl⟩, ?_⟩
  simp only [lookup_perLocale hl]
  constructor
  · intro h
    -- Without a text from outside nothing is left to be found.
    simpa [Option.or_eq_none_iff] using h none
  · rintro ⟨hown, hfallback, henglish⟩ default?
    simp [hown, hfallback, henglish]

/-- A map with texts for the locale, the fallback locale and the default locale, read in the first
of the ways, and never replaced by a text from outside. -/
theorem lookup_perLocale_eq_resolve_ja :
    let c : LocaleConfig := { locales := ["en", "ja"], defaultLocale := "ja" }
    let texts := [("en", "Name"), ("ja", "氏名")]
    (perLocale (some (.byLocale texts)) c.locales c.fallbackLocale (some "name")).lookup "ja"
        = resolve (some (.byLocale texts)) (some "ja") (some c) ∧
      ¬ ∀ default?, (perLocale (some (.byLocale texts)) c.locales c.fallbackLocale
          default?).lookup "ja" = default? := by
  intro c texts
  have h := lookup_perLocale_eq_resolve_iff (c := c) (l := "ja") (by decide) texts
  refine ⟨(h.1 _).2 (.own (by decide) (t := "氏名") (by decide)), fun hall => ?_⟩
  exact absurd (h.2.1 hall).1 (by decide)

/-- A map without texts for the configured locales: one reading gives its first text, the other the
text from outside. -/
theorem lookup_perLocale_ne_resolve :
    let c : LocaleConfig := {}
    let texts := [("fr", "Nom")]
    (perLocale (some (.byLocale texts)) c.locales c.fallbackLocale (some "name")).lookup "en"
        = some "name" ∧
      resolve (some (.byLocale texts)) (some "en") (some c) = some "Nom" := by
  decide

end SchemaTypes.Locale
