/-
# Labels in a locale

Two ways to read a label.  `resolve` gives the one text of a locale: the entry of the locale, else
of the fallback locale, else of the default locale, else the English one, else the first; an empty
map has none.  `perLocale` gives a text for each configured locale: the entry of the locale, else
of the fallback locale, else the English one, else a given default.
-/
import SchemaTypes.Schema.Config
import SchemaTypes.Data.Dictionary

namespace SchemaTypes.Locale

/-- The locale of last resort. -/
def english : String := "en"

/-- The locales to look for, in order and without repetition. -/
def candidates (locale : Option String) (config : Option LocaleConfig) : List String :=
  let asked := locale.toList.filter (!·.isEmpty)
  let configured := (config.map fun c => [c.fallbackLocale, c.defaultLocale]).getD []
  (asked ++ configured ++ [english]).eraseDups

/-- The text of a map under the first locale that it has, else its first text. -/
def pick (texts : List (String × String)) (locales : List String) : Option String :=
  match locales.findSome? (texts.lookup ·) with
  | some t => some t
  | none => texts.head?.map (·.2)

/-- The text of a label in a locale. -/
def resolve (label : Option Label) (locale : Option String) (config : Option LocaleConfig) :
    Option String :=
  match label with
  | none => none
  | some (.plain t) => some t
  | some (.byLocale texts) => pick texts (candidates locale config)

/-- The text of a label in a locale, or its whole map if all locales are kept. -/
def resolveOrKeep (label : Option Label) (multiLocale : Bool) (locale : Option String)
    (config : Option LocaleConfig) : Option Label :=
  match multiLocale, label with
  | true, some (.byLocale texts) => some (.byLocale texts)
  | _, _ => (resolve label locale config).map .plain

/-- The text of a map for one locale. -/
def textFor (texts : List (String × String)) (fallback : String) (default? : Option String)
    (locale : String) : Option String :=
  texts.lookup locale <|> texts.lookup fallback <|> texts.lookup english <|> default?

/-- A text for each locale; locales with nothing to show are left out. -/
def perLocale (label : Option Label) (locales : List String) (fallback : String)
    (default? : Option String) : List (String × String) :=
  match label with
  | none => Dictionary.tabulate locales fun _ => default?
  | some (.plain t) =>
    Dictionary.tabulate locales fun _ => if t.isEmpty then default? else some t
  | some (.byLocale texts) => Dictionary.tabulate locales (textFor texts fallback default?)

/-! ## Small laws -/

/-- Only an absent label and an empty map have no text. -/
theorem resolve_eq_none_iff (label : Option Label) (locale : Option String)
    (config : Option LocaleConfig) :
    resolve label locale config = none ↔ label = none ∨ label = some (.byLocale []) := by
  cases label with
  | none => simp [resolve]
  | some l =>
    cases l with
    | plain t => simp [resolve]
    | byLocale texts =>
      simp only [resolve, pick]
      cases texts with
      | nil =>
        have h : ∀ l : List String, l.findSome? (fun _ => (none : Option String)) = none := by
          intro l
          induction l <;> simp_all [List.findSome?]
        simp [h]
      | cons e r => split <;> simp

end SchemaTypes.Locale
