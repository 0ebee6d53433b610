/-
# Reading a snapshot

A snapshot is a map with the schemas, as a list or by name, and at most one section of settings.
`Snapshot.ofEntries` reads both; the schemas are read first, and only the first of the two that
fails is reported.  `overrideConfig` puts settings over those of the section, whichever of its
names and spellings the snapshot uses.
-/
import SchemaTypes.Reading.Config
import SchemaTypes.Reading.LoadError
import SchemaTypes.Text.Title

namespace SchemaTypes

open Reading (Entries)

/-- The schemas and the settings of one run. -/
structure Snapshot where
  collection : Collection
  config : Config
deriving Repr

namespace Snapshot

/-! ## 1. Schemas -/

/-- The entries of a record with a name in front that the record itself may replace. -/
def withName (name : Key) (es : Entries) : Entries :=
  es.foldl (fun done e => putEntry e.1 e.2 done) [(.text "name", name.value)]

/-- The refusal of a schema that is no map.  A name that is too long to be shown is refused
itself. -/
def notMap (name : Key) (v : Value) : ReadFailure :=
  match name.display? with
  | some s => .load (.schemaNotMap s v.kindName)
  | none => .unusable (.unusable Numeral.unwritableText)

/-- The records of a map from names to schemas. -/
def namedSchemas : Entries → Except ReadFailure (List Value)
  | [] => .ok []
  | (name, .map es) :: rest => do
    let others ← namedSchemas rest
    return .map (withName name es) :: others
  | (name, v) :: _ => .error (notMap name v)

/-- The records of the schemas; items of a list that are no records are left out. -/
def schemaRecords : Value → Except ReadFailure (List Value)
  | .list items => .ok (items.filter Value.isMap)
  | .map es => namedSchemas es
  | v => .error (.load (.schemasNotList v.kindName))

/-! ## 2. Settings -/

/-- The names of the section of settings, the first that holds a map is used. -/
def sectionNames : List String := ["config", "generation_config", "options"]

/-- The section of settings under one of the names. -/
def sectionOf (names : List String) (raw : Entries) : Option (String × Entries) :=
  names.findSome? fun name =>
    match Value.entry? name raw with
    | some (.map es) => some (name, es)
    | _ => none

/-- The section of settings. -/
def configSection (raw : Entries) : Option (String × Entries) := sectionOf sectionNames raw

/-- The settings as they are written, none if there is no section. -/
def configEntries (raw : Entries) : Entries := ((configSection raw).map (·.2)).getD []

/-! ## 3. The snapshot -/

/-- What a reading gives, with the cause for the case that it rejects. -/
def settle (cause : List Reading.Issue → LoadError) : Reading.Outcome α → Except ReadFailure α
  | .accepted a => .ok a
  | .rejected issues => .error (.load (cause issues))
  | .broken b => .error (.broken b)

/-- Reads the schemas of a snapshot. -/
def readCollection (records : List Value) : Except ReadFailure Collection :=
  settle .schemaIssues
    (((Reading.list Reading.schema (.list records)).under (.name "schemas")).map Collection.mk)

/-- Reads the settings of a snapshot. -/
def readConfig (es : Entries) : Except ReadFailure Config :=
  settle .configIssues (Reading.config (.map es))

/-- Reads a snapshot. -/
def ofEntries (raw : Entries) : Except ReadFailure Snapshot :=
  match Value.entry? "schemas" raw with
  | none => .error (.load .noSchemas)
  | some schemas =>
    match schemaRecords schemas with
    | .error e => .error e
    | .ok records => do
      let collection ← readCollection records
      let config ← readConfig (configEntries raw)
      return ⟨collection, config⟩

/-! ## 4. Overrides -/

/-- Drops an underscore between an ASCII letter or digit and an ASCII capital or digit. -/
def dropInnerUnderscores : List Char → List Char
  | a :: '_' :: b :: r =>
    if Text.isAlphanumeric a && (Text.isCapital b || Text.isDigit b) then
      a :: dropInnerUnderscores (b :: r)
    else a :: dropInnerUnderscores ('_' :: b :: r)
  | c :: r => c :: dropInnerUnderscores r
  | [] => []

/-- A digit stands in front of a small letter. -/
def hasDigitBeforeSmall : List Char → Bool
  | a :: b :: r => (Text.isDigit a && Text.isSmall b) || hasDigitBeforeSmall (b :: r)
  | _ => false

/-- Without a line break at the end. -/
def dropFinalBreak (cs : List Char) : List Char :=
  if cs.getLast? = some '\n' then cs.dropLast else cs

/-- The name is in camel case already: small letters first, then letters and digits. -/
def isCamel (cs : List Char) : Bool :=
  match dropFinalBreak cs with
  | [] => false
  | c :: r => Text.isSmall c && r.all Text.isAlphanumeric && !hasDigitBeforeSmall (c :: r)

/-- Small form of the first ASCII capital behind leading underscores. -/
def lowerHead : List Char → List Char
  | '_' :: r => '_' :: lowerHead r
  | c :: r => if Text.isCapital c then Text.lowerChar c ++ r else c :: r
  | [] => []

/-- The camel form of a field name: `min_length` becomes `minLength`. -/
def camelChars (cs : List Char) : List Char :=
  if isCamel cs then cs else lowerHead (dropInnerUnderscores (Text.title cs))

/-- The camel form of a string. -/
def camel (s : String) : String := String.ofList (camelChars s.toList)

/-- Sets one setting, in place of either spelling of it. -/
def overrideEntry (es : Entries) (o : String × Value) : Entries :=
  putEntry (.text o.1) o.2 (Reading.without (camel o.1) es)

/-- Puts settings over those of a snapshot; without a section, a section is added. -/
def overrideConfig (raw : Entries) (overrides : List (String × Value)) : Entries :=
  let name := ((configSection raw).map (·.1)).getD "config"
  putEntry (.text name) (.map (overrides.foldl overrideEntry (configEntries raw))) raw

/-- Overrides, if there are any, and reads. -/
def ofEntriesWith (raw : Entries) (overrides : List (String × Value)) :
    Except ReadFailure Snapshot :=
  ofEntries (if overrides.isEmpty then raw else overrideConfig raw overrides)

end Snapshot

end SchemaTypes
