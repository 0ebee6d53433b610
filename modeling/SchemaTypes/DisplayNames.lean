/-
# Labels of an entity

The labels of an entity and of its fields in every configured locale, and the placeholders of the
fields that have one (`DisplayNames.ofSchema`).  A field of a compound type takes its label from
the override of the schema, else from the plugin, else from the label of the property with the
entry in parentheses.
-/
import SchemaTypes.Zod.Entity

namespace SchemaTypes

/-- Texts by locale. -/
abbrev LocaleTexts := List (String × String)

/-- The labels and placeholders of an entity. -/
structure DisplayNames where
  label : LocaleTexts
  fields : List (String × LocaleTexts) := []
  placeholders : List (String × LocaleTexts) := []
deriving DecidableEq, Repr

/-- The label says nothing. -/
def Label.isEmpty : Label → Bool
  | .plain t => t.isEmpty
  | .byLocale texts => texts.isEmpty

namespace DisplayNames

/-- A label in every configured locale. -/
def inLocales (config : Config) (label : Option Label) (default? : Option String) : LocaleTexts :=
  Locale.perLocale label config.localeConfig.locales config.localeConfig.fallbackLocale default?

/-- Sets the label of a field. -/
def putField (d : DisplayNames) (name : String) (texts : LocaleTexts) : DisplayNames :=
  { d with fields := Dictionary.put name texts d.fields }

/-- Sets the placeholder of a field, if there is one. -/
def putPlaceholder (config : Config) (d : DisplayNames) (name : String) (label : Option Label) :
    DisplayNames :=
  match label.filter (!·.isEmpty) with
  | some l =>
    let texts := inLocales config (some l) (some "")
    { d with placeholders := Dictionary.put name texts d.placeholders }
  | none => d

/-- The labels of one field of a compound property. -/
def entryTexts (config : Config) (name : String) (p : Property) (e : CompoundEntry) : LocaleTexts :=
  let own := (p.overrides.lookup e.suffix).bind (·.displayName) <|> e.label
  match own.filter (!·.isEmpty) with
  | some l => inLocales config (some l) (some e.suffix)
  | none =>
    (inLocales config p.displayName (some name)).map fun t => (t.1, t.2 ++ " (" ++ e.suffix ++ ")")

/-- Adds one field of a compound property. -/
def addEntry (config : Config) (name : String) (p : Property) (d : DisplayNames)
    (e : CompoundEntry) : DisplayNames :=
  let field := Zod.partName name e.suffix
  putPlaceholder config (d.putField field (entryTexts config name p e)) field
    ((p.overrides.lookup e.suffix).bind (·.placeholder) <|> e.placeholder)

/-- Adds a property that is one field. -/
def addSingle (config : Config) (name : String) (p : Property) (d : DisplayNames) : DisplayNames :=
  let field := Naming.snake name
  putPlaceholder config (d.putField field (inLocales config p.displayName (some name))) field
    p.placeholder

/-- Adds a compound property: its own label, if it has one, then its fields. -/
def addCompound (config : Config) (name : String) (p : Property) (t : CustomType)
    (d : DisplayNames) : DisplayNames :=
  let d :=
    if (p.displayName.filter (!·.isEmpty)).isSome then
      d.putField (Naming.snake name) (inLocales config p.displayName (some name))
    else d
  t.expand.foldl (addEntry config name p) d

/-- Adds a property. -/
def addProperty (config : Config) (d : DisplayNames) (e : String × Property) : DisplayNames :=
  match Zod.compoundOf? config e.2 with
  | some t =>
    if t.expand.isEmpty then addSingle config e.1 e.2 d else addCompound config e.1 e.2 t d
  | none => addSingle config e.1 e.2 d

/-- The labels and placeholders of an entity. -/
def ofSchema (config : Config) (s : Schema) : DisplayNames :=
  s.properties.foldl (addProperty config)
    { label := inLocales config s.displayName (some s.name) }

end DisplayNames

end SchemaTypes
