/-
# Rules of an entity

The rules of the properties of an entity as data for form libraries, each with its message in every
configured locale (`EntityRules.ofSchema`).  The rules of a property come in a fixed order:
required, e-mail, lengths, range, pattern.  A message is the template of the rule with the bound
filled in and then the label of the property; a template without text gives no message.  A bound
that is too long to be written cannot be filled in (`EntityRules.ofSchema?`).
-/
import SchemaTypes.DisplayNames
import SchemaTypes.Messages.Basic
import SchemaTypes.Text.Search

namespace SchemaTypes

/-- One rule with its messages by locale. -/
structure PropertyRule where
  message : LocaleTexts
  required : Bool := false
  type : Option String := none
  min : Option Bound := none
  max : Option Bound := none
  pattern : Option String := none
deriving DecidableEq, Repr

/-- The label and the rules of a property. -/
structure PropertyRules where
  displayName : LocaleTexts
  rules : List PropertyRule := []
deriving DecidableEq, Repr

/-- The label of an entity and the rules of its properties. -/
structure EntityRules where
  displayName : LocaleTexts
  properties : List (String × PropertyRules) := []
deriving DecidableEq, Repr

namespace EntityRules

/-- Tags whose values have a length here. -/
def lengthTags : List String := ["String", "Text", "LongText"]

/-- Tags whose values have a range here. -/
def rangeTags : List String := ["Int", "BigInt", "Float"]

/-- The variable for the label of a property. -/
def labelVariable : String := "displayName"

/-- The hole for the label of a property. -/
def labelHole : String := Messages.hole labelVariable

/-- A rule of a known name before its message is made. -/
structure Draft where
  name : String
  bound : Option (String × Bound) := none
  required : Bool := false
  type : Option String := none
  min : Option Bound := none
  max : Option Bound := none
  pattern : Option String := none
deriving DecidableEq, Repr

/-- A rule with a least value. -/
def Draft.least (name : String) (type : Option String) (b : Bound) : Draft :=
  { name := name, bound := some ("min", b), type := type, min := some b }

/-- A rule with a greatest value. -/
def Draft.greatest (name : String) (type : Option String) (b : Bound) : Draft :=
  { name := name, bound := some ("max", b), type := type, max := some b }

/-- A whole number as a bound. -/
def natBound (n : Nat) : Bound := .whole (Int.ofNat n)

/-- The rules on the length of a text. -/
def lengthDrafts (p : Property) : List Draft :=
  if lengthTags.contains p.tag then
    ((Zod.positive? p.minLength).map fun n => Draft.least "minLength" none (natBound n)).toList
      ++ ((Zod.upperLength? p).map fun n => Draft.greatest "maxLength" none (natBound n)).toList
  else []

/-- The rules on the range of a number. -/
def rangeDrafts (p : Property) : List Draft :=
  if rangeTags.contains p.tag then
    let type := some (if p.tag == "Float" then "number" else "integer")
    (p.min.map (Draft.least "min" type)).toList ++ (p.max.map (Draft.greatest "max" type)).toList
  else []

/-- The rules of a property, in order. -/
def draftsOf (p : Property) : List Draft :=
  (if p.isNullable then [] else [{ name := "required", required := true }])
    ++ (if p.tag == "Email" then [{ name := "email", type := some "email" }] else [])
    ++ lengthDrafts p
    ++ rangeDrafts p
    ++ ((p.pattern.filter (!·.isEmpty)).map fun s =>
          { name := "pattern", pattern := some s : Draft }).toList

/-- The values of the holes of a template: the bound, and the label as a hole again. -/
def variablesOf (d : Draft) : List (String × String) :=
  (d.bound.map fun b => (b.1, b.2.text)).toList ++ [(labelVariable, labelHole)]

/-- The messages of a rule with the label of the property filled in. -/
def messagesOf (config : Config) (templates : MessageTable) (name : String)
    (labels : LocaleTexts) (d : Draft) : LocaleTexts :=
  let raw :=
    Messages.localized templates d.name config.localeConfig.locales (variablesOf d)
      (some config.localeConfig.fallbackLocale)
  (raw.filter (!·.2.isEmpty)).map fun m =>
    (m.1, Text.replace m.2 labelHole ((labels.lookup m.1).getD name))

/-- A rule with its messages. -/
def ruleOf (config : Config) (templates : MessageTable) (name : String) (labels : LocaleTexts)
    (d : Draft) : PropertyRule :=
  { message := messagesOf config templates name labels d
    required := d.required
    type := d.type
    min := d.min
    max := d.max
    pattern := d.pattern }

/-- The label and the rules of a property. -/
def ofProperty (config : Config) (templates : MessageTable) (name : String) (p : Property) :
    PropertyRules :=
  let labels := DisplayNames.inLocales config p.displayName (some name)
  ⟨labels, (draftsOf p).map (ruleOf config templates name labels)⟩

/-- The rules of an entity. -/
def ofSchema (config : Config) (s : Schema) : EntityRules :=
  let templates := Messages.withUserTemplates config.validationTemplates
  { displayName := DisplayNames.inLocales config s.displayName (some s.name)
    properties := s.properties.map fun e => (e.1, ofProperty config templates e.1 e.2) }

/-! ## Numbers that are too long -/

/-- The numbers in a rule. -/
def Draft.numbers (d : Draft) : List Bound := d.min.toList ++ d.max.toList

/-- The numbers in the rules of an entity. -/
def numbersOf (s : Schema) : List Bound :=
  s.properties.flatMap fun e => (draftsOf e.2).flatMap Draft.numbers

/-- The message of a rule in some locale has a hole for its bound. -/
def Draft.showsBound (config : Config) (templates : MessageTable) (d : Draft) : Bool :=
  config.localeConfig.locales.any fun l =>
    d.bound.any fun b =>
      Text.contains
        (Messages.templateFor ((templates.lookup d.name).getD [])
          (some config.localeConfig.fallbackLocale) l)
        (Messages.hole b.1)

/-- The rules of an entity, unless a message has a hole for a number that is too long to be
written. -/
def ofSchema? (config : Config) (s : Schema) : Option EntityRules :=
  let templates := Messages.withUserTemplates config.validationTemplates
  let shown (d : Draft) : Bool :=
    !d.showsBound config templates || decide (∀ b ∈ d.numbers, b.IsShort)
  if s.properties.all fun e => (draftsOf e.2).all shown then some (ofSchema config s) else none

/-- Rules whose numbers can all be written are there. -/
theorem ofSchema?_of_isShort (config : Config) {s : Schema} (h : ∀ b ∈ numbersOf s, b.IsShort) :
    ofSchema? config s = some (ofSchema config s) := by
  have hdraft : ∀ e ∈ s.properties, ∀ d ∈ draftsOf e.2, ∀ b ∈ d.numbers, b.IsShort :=
    fun e he d hd b hb => h b (List.mem_flatMap.2 ⟨e, he, List.mem_flatMap.2 ⟨d, hd, hb⟩⟩)
  unfold ofSchema?
  refine if_pos (List.all_eq_true.2 fun e he => List.all_eq_true.2 fun d hd => ?_)
  rw [Bool.or_eq_true, decide_eq_true_eq]
  exact Or.inr (hdraft e he d hd)

end EntityRules

end SchemaTypes
