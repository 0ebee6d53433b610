/-
# Files of entities

The generated file of an entity (`baseModule`): its interface, and then either the validators with
labels, schemas and label functions, or two utility types for creating and updating.
-/
import SchemaTypes.DisplayNames
import SchemaTypes.ImportPaths
import SchemaTypes.Data.Json.Printer
import SchemaTypes.Output.Header

namespace SchemaTypes.Output

open TypeScript (Statement Block SourceFile ImportDecl Specifier quote)

/-! ## 1. Interfaces -/

/-- A field of an interface, under its comment. -/
def fieldText (f : InterfaceField) : String :=
  let line :=
    "  " ++ (if f.readonly then "readonly " else "") ++ f.name ++ (if f.optional then "?" else "")
      ++ ": " ++ f.type ++ ";"
  match f.comment.filter (!·.isEmpty) with
  | some c => "  /** " ++ c ++ " */\n" ++ line
  | none => line

/-- The interface of an entity. -/
def interfaceStatement (i : Interface) (heritage : List String) : Statement :=
  .interface i.name heritage (i.fields.map fieldText)

/-! ## 2. Labels -/

/-- The lines of one field in the table of labels. -/
def labelLinesOf (d : DisplayNames) (field : String × LocaleTexts) : List String :=
  let placeholder := ((d.placeholders.lookup field.1).getD [])
  ["    " ++ field.1 ++ ": \x7b",
   "      label: " ++ Json.textMap .compact field.2 ++ ","]
    ++ (if placeholder.isEmpty then []
        else ["      placeholder: " ++ Json.textMap .compact placeholder ++ ","])
    ++ ["    \x7d,"]

/-- The table of labels of an entity. -/
def labelTable (name : String) (d : DisplayNames) : Statement :=
  .const true (Naming.lowerFirst name ++ "I18n") none
    (String.intercalate "\n"
      (["\x7b",
        "  /** Model display name */",
        "  label: " ++ Json.textMap .compact d.label ++ ",",
        "  /** Field labels and placeholders */",
        "  fields: \x7b"]
        ++ d.fields.flatMap (labelLinesOf d)
        ++ ["  \x7d,", "\x7d as const"]))

/-- The functions that read the table of labels. -/
def labelFunctions (name : String) : List Block :=
  let table := Naming.lowerFirst name ++ "I18n"
  let fieldLine :=
    "const fieldI18n = " ++ table ++ ".fields[field as keyof typeof " ++ table ++ ".fields];"
  [.described
     (.function ("get" ++ name ++ "Label") "locale: string" "string"
       ["return " ++ table ++ ".label[locale as keyof typeof " ++ table ++ ".label] ?? "
          ++ table ++ ".label['en'] ?? " ++ quote name ++ ";"])
     "Get model label for a specific locale",
   .described
     (.function ("get" ++ name ++ "FieldLabel") "field: string, locale: string" "string"
       [fieldLine,
        "if (!fieldI18n) return field;",
        "return fieldI18n.label[locale as keyof typeof fieldI18n.label] "
          ++ "?? fieldI18n.label['en'] ?? field;"])
     "Get field label for a specific locale",
   .described
     (.function ("get" ++ name ++ "FieldPlaceholder") "field: string, locale: string" "string"
       [fieldLine,
        "if (!fieldI18n || !('placeholder' in fieldI18n)) return '';",
        "const placeholder = fieldI18n.placeholder as Record<string, string>;",
        "return placeholder[locale] ?? placeholder['en'] ?? '';"])
     "Get field placeholder for a specific locale"]

/-! ## 3. Validators -/

/-- Lines between braces, each with a line break after it. -/
def lineTable (lines : List String) : String :=
  "\x7b\n" ++ String.join (lines.map (· ++ "\n")) ++ "\x7d"

/-- The lines of one validator. -/
def schemaLines (f : Zod.Field) : List String :=
  ((f.comment.filter (!·.isEmpty)).map fun c => "  /** " ++ c ++ " */").toList
    ++ ["  " ++ f.name ++ ": " ++ f.schema.text ++ ","]

/-- The fields that are given when an entity is created. -/
def createFields (fields : List Zod.Field) (excluded : List String) : List Zod.Field :=
  fields.filter fun f => f.inCreate && !excluded.contains f.name

/-- The part with labels and validators. -/
def zodBlocks (name : String) (fields : List Zod.Field) (d : DisplayNames)
    (excluded : List String) : List Block :=
  let schemas := "base" ++ name ++ "Schemas"
  let create := "base" ++ name ++ "CreateSchema"
  let update := "base" ++ name ++ "UpdateSchema"
  [.banner "I18n (Internationalization)",
   .declare (labelTable name d)
     (some ["Unified i18n object for " ++ name,
            "Contains model label and all field labels/placeholders"])
     false,
   .banner "Zod Schemas",
   .described (.const true schemas none (lineTable (fields.flatMap schemaLines) ++ " as const"))
     ("Field schemas for " ++ name),
   .described
     (.const true create none
       ("z.object("
         ++ lineTable ((createFields fields excluded).map fun f =>
              "  " ++ f.name ++ ": " ++ schemas ++ "." ++ f.name ++ ",")
         ++ ")"))
     ("Create schema for " ++ name ++ " (POST requests)"),
   .described (.const true update none (create ++ ".partial()"))
     ("Update schema for " ++ name ++ " (PUT/PATCH requests)"),
   .banner "Inferred Types",
   .declaration
     { statements :=
         [.typeAlias ("Base" ++ name ++ "Create") ("z.infer<typeof " ++ create ++ ">"),
          .typeAlias ("Base" ++ name ++ "Update") ("z.infer<typeof " ++ update ++ ">")] },
   .banner "I18n Helper Functions"]
    ++ labelFunctions name

/-! ## 4. Utility types -/

/-- The types for creating and updating an entity without validators. -/
def utilityBlocks (name : String) (excluded : List String) : List Block :=
  let omitted :=
    if excluded.isEmpty then name
    else "Omit<" ++ name ++ ", " ++ TypeExpr.literalUnion excluded ++ ">"
  [.described (.typeAlias (name ++ "Create") omitted)
     ("For creating new " ++ name ++ " (POST requests)"),
   .described (.typeAlias (name ++ "Update") ("Partial<" ++ name ++ "Create>"))
     ("For updating " ++ name ++ " (PUT/PATCH requests)")]

/-! ## 5. The file -/

/-- The types of the common file that an interface uses. -/
def commonTypesOf (i : Interface) : List String :=
  ["DateTimeString", "DateString"].filter i.usesType

/-- The validators of an entity and their labels. -/
structure ZodPart where
  fields : List Zod.Field
  names : DisplayNames
deriving Repr

/-- The imports of the file of an entity. -/
def baseImports (i : Interface) (paths : ImportPaths) (withZod : Bool)
    (pluginEnums : List String) : List ImportDecl :=
  (if withZod then [{ names := [.plain "z"], module := "zod" }] else [])
    ++ (if (commonTypesOf i).isEmpty then []
        else [{ names := (commonTypesOf i).map .plain, module := paths.commonFromBase,
                typeOnly := true }])
    ++ i.enumDependencies.map (fun e =>
        { names := [.plain e], module := paths.enumFromBase e (pluginEnums.contains e) })
    ++ i.dependencies.map (fun e =>
        { names := [.plain e], module := paths.entityFromBase e, typeOnly := true })

/-- The file of an entity. -/
def baseModule (i : Interface) (paths : ImportPaths) (zod : Option ZodPart)
    (excluded pluginEnums : List String) : SourceFile :=
  { header := some (generatedHeader defaultSubject)
    imports := baseImports i paths zod.isSome pluginEnums
    blocks :=
      .declare (interfaceStatement i []) (some [i.comment]) true
        :: (match zod with
            | some z => zodBlocks i.name z.fields z.names excluded
            | none => utilityBlocks i.name excluded) }

end SchemaTypes.Output
