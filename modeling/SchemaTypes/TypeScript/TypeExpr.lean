/-
# Type expressions of properties

`resolve` gives the TypeScript type of a property as text together with the entities and
enumerations that it refers to: a file, a relation (one target, a list of one target, or a union
of targets), an enumeration, a union of literals, a plugin type, or a primitive.
`references` goes the other way and finds the entities that a type expression mentions.
-/
import SchemaTypes.Schema.Collection
import SchemaTypes.TypeScript.Literal
import SchemaTypes.Text.Replace
import SchemaTypes.Text.Search
import SchemaTypes.Text.Blank

namespace SchemaTypes.TypeExpr

/-! ## 1. Tables -/

/-- The types of primitive tags. -/
def primitiveTypes : List (String × String) := [
  ("String", "string"), ("TinyInt", "number"), ("Int", "number"), ("BigInt", "number"),
  ("Float", "number"), ("Boolean", "boolean"), ("Text", "string"), ("MediumText", "string"),
  ("LongText", "string"), ("Date", "DateString"), ("Time", "string"),
  ("DateTime", "DateTimeString"), ("Timestamp", "DateTimeString"), ("Json", "unknown"),
  ("Email", "string"), ("Password", "string"), ("Enum", "string"), ("Select", "string"),
  ("Lookup", "number")]

/-- The type of what is not known. -/
def unknown : String := "unknown"

/-- The type of a primary key. -/
def primaryKey (idType : String) : String :=
  if idType == "Uuid" || idType == "String" then "string" else "number"

/-! ## 2. Relations -/

/-- What a relation refers to. -/
inductive Cardinality where
  | one
  | many
  | oneOf
deriving DecidableEq, Repr

/-- The cardinality of a kind of relation, if the kind is known. -/
def cardinality? (relation : String) : Option Cardinality :=
  if relation == "MorphTo" then some .oneOf
  else if ["OneToOne", "ManyToOne", "MorphOne"].contains relation then some .one
  else if ["OneToMany", "ManyToMany", "MorphMany", "MorphToMany", "MorphedByMany"].contains relation
    then some .many
  else none

/-- A type expression and what it refers to. -/
structure Resolved where
  expr : String
  entities : List String := []
  enums : List String := []
deriving DecidableEq, Repr

/-- The expression says nothing about the type. -/
def Resolved.isUnknown (r : Resolved) : Bool := r.expr == unknown

/-- The target of a relation, if it is given and not empty. -/
def givenTarget (target : Option String) : List String := target.toList.filter (!·.isEmpty)

/-- The type of a relation. -/
def ofRelation (relation : String) (target : Option String) (targets : List String) : Resolved :=
  let refs := givenTarget target
  let one := refs.headD unknown
  match cardinality? relation with
  | some .oneOf =>
    if targets.isEmpty then ⟨unknown, [], []⟩ else ⟨String.intercalate " | " targets, targets, []⟩
  | some .one => ⟨one, refs, []⟩
  | some .many => ⟨one ++ "[]", refs, []⟩
  | none => ⟨unknown, [], []⟩

/-! ## 3. Properties -/

/-- The union of the quoted values. -/
def literalUnion (values : List String) : String :=
  String.intercalate " | " (values.map TypeScript.quote)

/-- The union of the values of an enumeration, or a text if there are none. -/
def ofValues (values : List EnumValue) : Resolved :=
  if values.isEmpty then ⟨"string", [], []⟩ else ⟨literalUnion (values.map (·.value)), [], []⟩

/-- The type of a tag that names a primitive. -/
def ofTag (tag : String) : String := (primitiveTypes.lookup tag).getD unknown

/-- The type of a property.  With a collection, only entities of the collection count as referred
to; the expression itself does not change. -/
def resolve (p : Property) (collection : Option Collection)
    (customTypes : List (String × CustomType)) : Resolved :=
  match p.kind with
  | .file multiple => ⟨if multiple then "File[]" else "File | null", [], []⟩
  | .association relation target targets =>
    let r := ofRelation relation target targets
    match collection with
    | none => r
    | some c => ⟨r.expr, r.entities.filter (c.objectNames.contains ·), []⟩
  | .enumRef enum => ⟨enum, [], [enum]⟩
  | .inlineEnum values => ofValues values
  | .select options => ofValues options
  | .custom =>
    match customTypes.lookup p.tag with
    | some t => ⟨if t.compound then unknown else t.typeHint, [], []⟩
    | none => ⟨ofTag p.tag, [], []⟩
  | .primitive => ⟨ofTag p.tag, [], []⟩

/-! ## 4. Entities that an expression mentions -/

/-- Types of the language itself. -/
def languageTypes : List String :=
  ["string", "number", "boolean", "unknown", "null", "undefined", "void", "never", "any"]

/-- The rest of a text after an alternative that begins with `null`, blanks around the bar
included. -/
def afterNullMember? (cs : List Char) : Option (List Char) :=
  match cs.dropWhile Text.isBlank with
  | '|' :: r =>
    match r.dropWhile Text.isBlank with
    | 'n' :: 'u' :: 'l' :: 'l' :: r => some r
    | _ => none
  | _ => none

theorem length_afterNullMember? {cs r : List Char} (h : afterNullMember? cs = some r) :
    r.length < cs.length := by
  unfold afterNullMember? at h
  have h₁ : (cs.dropWhile Text.isBlank).length ≤ cs.length :=
    (List.dropWhile_sublist _).length_le
  split at h
  · rename_i t ht
    have h₂ : (t.dropWhile Text.isBlank).length ≤ t.length := (List.dropWhile_sublist _).length_le
    split at h
    · rename_i u hu
      simp only [Option.some.injEq] at h
      subst h
      rw [ht] at h₁
      rw [hu] at h₂
      simp only [List.length_cons] at h₁ h₂
      omega
    · simp at h
  · simp at h

/-- Drops the alternatives that begin with `null`. -/
def dropNullMembers (cs : List Char) : List Char :=
  match _h : afterNullMember? cs with
  | some r => dropNullMembers r
  | none =>
    match cs with
    | [] => []
    | c :: r => c :: dropNullMembers r
termination_by cs.length
decreasing_by
  · exact length_afterNullMember? _h
  · simp

/-- A single or double quote. -/
def isQuoteMark (c : Char) : Bool := c == '\'' || c == '"'

/-- Drops a quote from the front. -/
def dropQuote : List Char → List Char
  | c :: r => if isQuoteMark c then r else c :: r
  | [] => []

/-- Drops a quote from each end. -/
def unquote (cs : List Char) : List Char := (dropQuote (dropQuote cs).reverse).reverse

/-- The alternatives of an expression without array marks, null members, blanks and quotes. -/
def alternatives (expr : String) : List String :=
  let bare := Text.replaceAll ['[', ']'] [] expr.toList
  (Text.splitOn '|' (dropNullMembers bare)).map fun part =>
    String.ofList (unquote (Text.trim part))

/-- The entities that a type expression mentions, in order. -/
def references (expr : String) (entities : List String) : List String :=
  (alternatives expr).filter fun a => !languageTypes.contains a && entities.contains a

end SchemaTypes.TypeExpr
