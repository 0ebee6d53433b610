/-
# Reading schemas

How each record of a snapshot is read: rule sets, values of enumerations, plugin types, properties
with their kinds, schemas.  Shorthand is put into full form first: a bare scalar as the value of
an enumeration, the nested `sql` and `typescript` parts of plugin entries, accessors given by
name or as records.
-/
import SchemaTypes.Reading.Record
import SchemaTypes.Schema.Collection

namespace SchemaTypes.Reading

/-! ## 1. Rule sets -/

/-- Affixes: a text or a list of texts. -/
def affixes : Reader Affixes :=
  either "str" (fun v => (text v).map .one) "list[str]" fun v => (list text v).map .many

/-- A rule set. -/
def ruleSet : Reader RuleSet := record fun es =>
  RuleSet.mk
    <$> fieldOr (word "url") false switch es
    <*> fieldOr (word "uuid") false switch es
    <*> fieldOr (word "ip") false switch es
    <*> fieldOr (word "ipv4") false switch es
    <*> fieldOr (word "ipv6") false switch es
    <*> fieldOpt ⟨"minLength", "min_length"⟩ (natFrom 0) es
    <*> fieldOpt ⟨"maxLength", "max_length"⟩ (natFrom 0) es
    <*> fieldOr (word "alpha") false switch es
    <*> fieldOr ⟨"alphaNum", "alpha_num"⟩ false switch es
    <*> fieldOr ⟨"alphaDash", "alpha_dash"⟩ false switch es
    <*> fieldOr (word "numeric") false switch es
    <*> fieldOpt (word "digits") (natFrom 0) es
    <*> fieldOpt ⟨"digitsBetween", "digits_between"⟩ (pair int) es
    <*> fieldOpt ⟨"startsWith", "starts_with"⟩ affixes es
    <*> fieldOpt ⟨"endsWith", "ends_with"⟩ affixes es
    <*> fieldOr (word "lowercase") false switch es
    <*> fieldOr (word "uppercase") false switch es
    <*> fieldOpt (word "min") bound es
    <*> fieldOpt (word "max") bound es
    <*> fieldOpt (word "between") (pair bound) es
    <*> fieldOpt (word "gt") bound es
    <*> fieldOpt (word "lt") bound es
    <*> fieldOpt ⟨"multipleOf", "multiple_of"⟩ bound es
    <*> fieldOpt (word "pattern") text es
    <*> fieldOpt (word "format") text es

/-! ## 2. Values of enumerations -/

/-- The text of a whole number; one that is too long to be written is refused. -/
def numberText (i : Int) : Outcome String :=
  match Numeral.text? i with
  | some s => .accepted s
  | none => .fail .invalidEntry

/-- The text of a raw value; numbers are accepted as what they print. -/
def rawValue : Reader String
  | .int i => numberText i
  | .real d => .accepted d.text
  | v => text v

/-- A value of an enumeration: a scalar stands for a record with that value alone. -/
def enumValue : Reader EnumValue
  | .bool b => .accepted ⟨if b then "true" else "false", none, none⟩
  | .text s => .accepted ⟨s, none, none⟩
  | .int i => (numberText i).map fun s => ⟨s, none, none⟩
  | .real d => .accepted ⟨d.text, none, none⟩
  | .halfText => Outcome.under (.name "value") (.fail .notUnicode)
  | v => v |> record fun es =>
    EnumValue.mk
      <$> field (word "value") rawValue es
      <*> fieldOpt (word "label") label es
      <*> fieldOpt (word "extra") (map anything) es

/-! ## 3. Plugin types -/

/-- Removes the entries of a text key. -/
def without (name : String) (es : Entries) : Entries :=
  es.filter fun e => e.1 != .text name

/-- Adds an entry unless the key is there. -/
def withDefault (name : String) (v : Value) (es : Entries) : Entries :=
  if (Value.entry? name es).isSome then es else es ++ [(.text name, v)]

/-- Adds the entry of a nested map under the same name, unless the key is there. -/
def liftEntry (name : String) (nested es : Entries) : Entries :=
  match Value.entry? name nested with
  | some v => withDefault name v es
  | none => es

/-- Lifts nullability and length out of the nested `sql` part. -/
def liftSql (es : Entries) : Entries :=
  match Value.entry? "sql" es with
  | some (.map nested) => liftEntry "length" nested (liftEntry "nullable" nested (without "sql" es))
  | _ => without "sql" es

/-- Lifts the type out of the nested `typescript` part. -/
def liftTypescript (es : Entries) : Entries :=
  match Value.entry? "typescript" es with
  | some (.map nested) =>
    match Value.entry? "type" nested with
    | some v => withDefault "type_hint" v (without "typescript" es)
    | none => without "typescript" es
  | _ => without "typescript" es

/-- The flat form of a plugin entry. -/
def lifted (es : Entries) : Entries := liftTypescript (liftSql es)

/-- One field of a compound type. -/
def compoundEntry : Reader CompoundEntry := record fun raw =>
  let es := lifted raw
  CompoundEntry.mk
    <$> field (word "suffix") nonEmptyText es
    <*> fieldOpt (word "nullable") switch es
    <*> fieldOr ⟨"typeHint", "type_hint"⟩ "string" text es
    <*> fieldOpt (word "length") (natFrom 1) es
    <*> fieldOpt (word "rules") ruleSet es
    <*> fieldOpt (word "label") label es
    <*> fieldOpt (word "placeholder") label es

/-- The name of an accessor that is given as a record or directly. -/
def accessorName : Value → Outcome Value
  | .map es =>
    match Value.entry? "name" es with
    | some v => .accepted v
    | none => .broken .missingName
  | v => .accepted v

/-- The accessors of a compound type. -/
def accessorNames : Reader (List String)
  | .list items => (Outcome.all (items.map accessorName)).andThen fun vs => list text (.list vs)
  | v => list text v

/-- A plugin type. -/
def customType : Reader CustomType := record fun raw =>
  let es := lifted raw
  CustomType.mk
    <$> fieldOpt (word "name") text es
    <*> fieldOr (word "compound") false switch es
    <*> fieldOr (word "expand") [] (list compoundEntry) es
    <*> fieldOr (word "accessors") [] accessorNames es
    <*> fieldOr ⟨"typeHint", "type_hint"⟩ "string" text es
    <*> fieldOpt (word "length") (natFrom 1) es

/-- The override of one entry of a compound type. -/
def entryOverride : Reader EntryOverride := record fun es =>
  EntryOverride.mk
    <$> fieldOpt (word "nullable") switch es
    <*> fieldOpt (word "length") (natFrom 1) es
    <*> fieldOpt ⟨"displayName", "display_name"⟩ label es
    <*> fieldOpt (word "placeholder") label es
    <*> fieldOpt (word "rules") ruleSet es

/-- An enumeration of a plugin. -/
def pluginEnum : Reader PluginEnum := record fun es =>
  PluginEnum.mk
    <$> field (word "name") nonEmptyText es
    <*> fieldOpt ⟨"displayName", "display_name"⟩ label es
    <*> fieldOr (word "values") [] (list enumValue) es

/-! ## 4. Properties -/

/-- The kind that a tag selects.  The tag `Enum` refers to an enumeration when the enumeration is
a text.  A tag that is a list or a map cannot be looked up. -/
def kindOf (es : Entries) : Outcome PropertyTag :=
  match Value.entry? "type" es with
  | some (.text tag) =>
    if tag == "Association" then .accepted .association
    else if tag == "EnumRef" then .accepted .enumRef
    else if tag == "Enum" then
      match Value.entry? "enum" es with
      | some (.text _) => .accepted .enumRef
      | some .halfText => .accepted .enumRef
      | _ => .accepted .inlineEnum
    else if tag == "Select" then .accepted .select
    else if tag == "File" then .accepted .file
    else if primitiveTags.contains tag then .accepted .primitive
    else .accepted .custom
  | some (.list _) => .broken .unusableKey
  | some (.map _) => .broken .unusableKey
  | some .endless => .broken .unusableKey
  | _ => .accepted .custom

/-- What a kind has beside the common settings. -/
def kindData (es : Entries) : PropertyTag → Outcome PropertyKind
  | .primitive => .accepted .primitive
  | .association =>
    PropertyKind.association
      <$> field (word "relation") text es
      <*> fieldOpt (word "target") text es
      <*> fieldOr (word "targets") [] (list text) es
  | .enumRef => PropertyKind.enumRef <$> field (word "enum") nonEmptyText es
  | .inlineEnum => PropertyKind.inlineEnum <$> fieldOr (word "enum") [] (list enumValue) es
  | .select => PropertyKind.select <$> fieldOr (word "options") [] (list enumValue) es
  | .file => PropertyKind.file <$> fieldOr (word "multiple") false switch es
  | .custom => .accepted .custom

/-- A property of a given kind. -/
def propertyOf (tag : PropertyTag) (es : Entries) : Outcome Property :=
  Property.mk
    <$> field (word "type") nonEmptyText es
    <*> fieldOpt ⟨"displayName", "display_name"⟩ label es
    <*> fieldOpt (word "placeholder") label es
    <*> fieldOpt (word "nullable") switch es
    <*> fieldOpt (word "length") (natFrom 1) es
    <*> fieldOpt ⟨"minLength", "min_length"⟩ (natFrom 0) es
    <*> fieldOpt ⟨"maxLength", "max_length"⟩ (natFrom 0) es
    <*> fieldOpt (word "min") bound es
    <*> fieldOpt (word "max") bound es
    <*> fieldOpt (word "pattern") text es
    <*> fieldOpt (word "rules") ruleSet es
    <*> fieldOr ⟨"fields", "field_overrides"⟩ [] (map entryOverride) es
    <*> kindData es tag

/-- A property; paths name its kind. -/
def property : Reader Property
  | .map es => (kindOf es).andThen fun tag => (propertyOf tag es).under (.name tag.text)
  | _ => Outcome.under (.name PropertyTag.custom.text) (.fail .notRecord)

/-! ## 5. Schemas -/

/-- The kind of a schema. -/
def schemaKind : Reader SchemaKind := choice [("object", .object), ("enum", .enum)]

/-- The switches of a schema. -/
def schemaOptions : Reader SchemaOptions := record fun es =>
  SchemaOptions.mk
    <$> fieldOr (word "id") true switch es
    <*> fieldOr ⟨"idType", "id_type"⟩ "BigInt" text es
    <*> fieldOr (word "timestamps") true switch es
    <*> fieldOr ⟨"softDelete", "soft_delete"⟩ false switch es
    <*> fieldOr (word "hidden") false switch es

/-- A schema. -/
def schema : Reader Schema := record fun es =>
  Schema.mk
    <$> field (word "name") nonEmptyText es
    <*> fieldOr (word "kind") .object schemaKind es
    <*> fieldOpt ⟨"displayName", "display_name"⟩ label es
    <*> fieldOr (word "properties") [] (map property) es
    <*> fieldOr (word "values") [] (list enumValue) es
    <*> fieldOr (word "options") {} schemaOptions es
    <*> fieldOpt ⟨"sourcePath", "source_path"⟩ text es

end SchemaTypes.Reading
