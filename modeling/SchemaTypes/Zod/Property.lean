/-
# Validators of properties

`ofProperty?` gives the validator of a property that is one field: a base by kind and tag with
its bounds, then the rule set, then the pattern, and last of all the methods that let the value be
absent.  Relations, files and unregistered tags have none.  `ofEntry` gives the validator of one
field of a compound type, where the schema overrides the plugin setting by setting.
-/
import SchemaTypes.Zod.Rules
import SchemaTypes.Interface

namespace SchemaTypes.Zod

/-! ## 1. Primitives -/

/-- The number, unless it is missing or zero. -/
def positive? (n : Option Nat) : Option Nat := n.filter (· != 0)

/-- The greatest length of a text: the stated maximum, else the length of its column. -/
def upperLength? (p : Property) : Option Nat := positive? p.maxLength <|> positive? p.length

/-- The methods of the greatest length. -/
def upperCalls (p : Property) : List Call :=
  callsOf (fun n => [.max (Int.ofNat n)]) (upperLength? p)

/-- The rule set states a least length itself. -/
def hasLengthRule (p : Property) : Bool := (p.rules.bind (·.minLength)).isSome

/-- The methods of the least length: a value that has to be there has at least one character,
unless the rule set says otherwise. -/
def lowerCalls (p : Property) : List Call :=
  if !p.isNullable && !hasLengthRule p then
    [.min (max 1 (Int.ofNat (p.minLength.getD 0)))]
  else callsOf (fun n => [.min (Int.ofNat n)]) (positive? p.minLength)

/-- The methods of numeric bounds. -/
def boundCalls (p : Property) : List Call :=
  callsOf (fun b => [.gte b]) p.min ++ callsOf (fun b => [.lte b]) p.max

/-- The validators of the other primitive tags. -/
def fixedValidators : List (String × Expr) := [
  ("Boolean", ⟨.boolean, []⟩),
  ("Date", ⟨.string, [.date]⟩),
  ("DateTime", ⟨.string, [.datetime]⟩),
  ("Timestamp", ⟨.string, [.datetime]⟩),
  ("Time", ⟨.string, [.time]⟩),
  ("Json", ⟨.unknown, []⟩),
  ("Lookup", ⟨.number, [.int, .positive]⟩)]

/-- The validator of a primitive before its rule set. -/
def ofPrimitive? (p : Property) : Option Expr :=
  if p.tag == "Email" then some ⟨.string, .email :: upperCalls p⟩
  else if stringTags.contains p.tag then some ⟨.string, lowerCalls p ++ upperCalls p⟩
  else if p.tag == "Float" then some ⟨.number, boundCalls p⟩
  else if numericTags.contains p.tag then some ⟨.number, .int :: boundCalls p⟩
  else fixedValidators.lookup p.tag

/-! ## 2. Properties -/

/-- The validator of a list of values. -/
def ofValues (values : List EnumValue) : Expr :=
  if values.isEmpty then ⟨.string, []⟩ else ⟨.enum (values.map (·.value)), []⟩

/-- The validator of a simple plugin type. -/
def ofCustom (p : Property) (t : CustomType) : Expr :=
  ⟨.string,
    callsOf (fun n => [.max (Int.ofNat n)]) (positive? t.length) ++ absentCalls p.isNullable⟩

/-- The methods of a pattern that is not empty. -/
def patternCalls (pattern : Option String) : List Call :=
  callsOf (fun s => [.regex s none]) (pattern.filter (!·.isEmpty))

/-- The validator with the rule set, the pattern and the nullability of a property. -/
def finish (p : Property) (e : Expr) : Expr :=
  (applyRules e p.rules p.tag).andAlso (patternCalls p.pattern ++ absentCalls p.isNullable)

/-- The validator of a property that is one field. -/
def ofProperty? (config : Config) (p : Property) : Option Expr :=
  match p.kind with
  | .association .. => none
  | .file _ => none
  | .custom => (config.customType? p.tag).map (ofCustom p)
  | .enumRef enum => some (finish p ⟨.nativeEnum enum, []⟩)
  | .inlineEnum values => some (finish p (ofValues values))
  | .select options => some (finish p (ofValues options))
  | .primitive => (ofPrimitive? p).map (finish p)

/-! ## 3. Fields of compound types -/

/-- The validator of a format of a field. -/
def ofFormat (format : Option String) : Expr :=
  match format with
  | some "email" => ⟨.string, [.email]⟩
  | some "url" => ⟨.string, [.url]⟩
  | some "postal_code" => ⟨.string, [.regex "^\\d\x7b3\x7d-?\\d\x7b4\x7d$" none]⟩
  | _ => ⟨.string, []⟩

/-- A setting of a rule set: of the override, else of the plugin. -/
def ruleSetting (p : Property) (e : CompoundEntry) (f : RuleSet → Option α) : Option α :=
  (((p.overrides.lookup e.suffix).bind (·.rules)).bind f) <|> e.rules.bind f

/-- The greatest length of a field: of the override, of its rules, of the rules of the plugin,
of the plugin. -/
def entryLength (p : Property) (e : CompoundEntry) : Option Nat :=
  (p.overrides.lookup e.suffix).bind (·.length) <|> ruleSetting p e (·.maxLength) <|> e.length

/-- The methods of the least length of a field. -/
def entryLowerCalls (p : Property) (e : CompoundEntry) : List Call :=
  let least := ruleSetting p e (·.minLength)
  if Interface.entryNullable p e then callsOf (fun n => [.min (Int.ofNat n)]) (positive? least)
  else [.min (Int.ofNat (least.getD 1))]

/-- The format of a field, unless it is empty. -/
def entryFormat (p : Property) (e : CompoundEntry) : Option String :=
  (ruleSetting p e (·.format)).filter (!·.isEmpty)

/-- The validator of one field of a compound type. -/
def ofEntry (p : Property) (e : CompoundEntry) : Expr :=
  let format := entryFormat p e
  (ofFormat format).andAlso
    (entryLowerCalls p e
      ++ callsOf (fun n => [.max (Int.ofNat n)]) (positive? (entryLength p e))
      ++ (if format.isSome then [] else patternCalls (ruleSetting p e (·.pattern)))
      ++ absentCalls (Interface.entryNullable p e))

end SchemaTypes.Zod
