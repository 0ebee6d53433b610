/-
# Source files of TypeScript

A generated module is data: a header, imports, and blocks.  A block is a declaration with an
optional doc comment, a banner, a line comment, an export list, an import, or a group of blocks
without blank lines between them.  Statements keep the name that they declare apart from their
text, so that what a file exports can be read off (`SourceFile.exportedNames`).

`SourceFile.text` fixes the spacing once: one blank line between header, imports and blocks, and
one line break at the end.
-/
import SchemaTypes.Text.Blank

namespace SchemaTypes.TypeScript

/-! ## 1. Doc comments -/

/-- Drops blanks from the end of a text. -/
def trimEnd (s : String) : String :=
  String.ofList ((s.toList.reverse.dropWhile Text.isBlank).reverse)

/-- A doc comment: one line stays on one line unless a block is asked for. -/
def docComment (lines : List String) (indent : String) (block : Bool) : String :=
  match lines, block with
  | [line], false => indent ++ "/** " ++ line ++ " */"
  | lines, _ =>
    indent ++ "/**\n"
      ++ String.intercalate "\n" (lines.map fun l => trimEnd (indent ++ " * " ++ l))
      ++ "\n" ++ indent ++ " */"

/-! ## 2. Imports and exports -/

/-- A name in an import or export list, possibly under another name or as a type alone. -/
structure Specifier where
  name : String
  asName : Option String := none
  typeOnly : Bool := false
deriving DecidableEq, Repr

namespace Specifier

/-- A name as it is. -/
def plain (name : String) : Specifier := { name := name }

/-- The text of a name in a list. -/
def text (s : Specifier) : String :=
  (if s.typeOnly then "type " else "") ++ s.name
    ++ (match s.asName with
        | some a => " as " ++ a
        | none => "")

/-- The name by which other code knows it. -/
def known (s : Specifier) : String := s.asName.getD s.name

end Specifier

/-- An import of names from a module. -/
structure ImportDecl where
  names : List Specifier
  module : String
  typeOnly : Bool := false
  multiline : Bool := false
deriving DecidableEq, Repr

/-- An export of names, of a module or of the file itself. -/
structure ExportDecl where
  names : List Specifier
  module : Option String := none
  typeOnly : Bool := false
  multiline : Bool := false
deriving DecidableEq, Repr

/-- Names between braces, on one line or one name a line. -/
def braced (names : List Specifier) (multiline : Bool) : String :=
  if multiline then
    "\x7b\n" ++ String.join (names.map fun n => "  " ++ n.text ++ ",\n") ++ "\x7d"
  else "\x7b " ++ String.intercalate ", " (names.map Specifier.text) ++ " \x7d"

/-- The text of an import. -/
def ImportDecl.text (d : ImportDecl) : String :=
  (if d.typeOnly then "import type " else "import ") ++ braced d.names d.multiline
    ++ " from '" ++ d.module ++ "';"

/-- The text of an export. -/
def ExportDecl.text (d : ExportDecl) : String :=
  (if d.typeOnly then "export type " else "export ") ++ braced d.names d.multiline
    ++ (match d.module with
        | some m => " from '" ++ m ++ "'"
        | none => "")
    ++ ";"

/-! ## 3. Statements -/

/-- A statement at the top level. -/
inductive Statement where
  | interface (name : String) (heritage : List String) (members : List String)
  | enum (name : String) (members : List String)
  | typeAlias (name expr : String)
  | const (exported : Bool) (name : String) (type : Option String) (value : String)
  | function (name params result : String) (body : List String)
  | verbatim (text : String)
deriving DecidableEq, Repr

/-- The lines of a function's body, each indented; an empty line stays empty. -/
def functionBody (lines : List String) : String :=
  String.join (lines.map fun l => if l.isEmpty then "\n" else "  " ++ l ++ "\n")

/-- Lines between braces. -/
def bracedLines (lines : List String) : String :=
  "\x7b\n" ++ String.intercalate "\n" lines ++ "\n\x7d"

namespace Statement

/-- The text of a statement. -/
def text : Statement → String
  | .interface name heritage members =>
    "export interface " ++ name
      ++ (if heritage.isEmpty then "" else " extends " ++ String.intercalate ", " heritage)
      ++ " " ++ bracedLines members
  | .enum name members => "export enum " ++ name ++ " " ++ bracedLines members
  | .typeAlias name expr => "export type " ++ name ++ " = " ++ expr ++ ";"
  | .const exported name type value =>
    (if exported then "export const " else "const ") ++ name
      ++ (match type with
          | some t => ": " ++ t
          | none => "")
      ++ " = " ++ value ++ ";"
  | .function name params result body =>
    "export function " ++ name ++ "(" ++ params ++ "): " ++ result ++ " \x7b\n"
      ++ functionBody body ++ "\x7d"
  | .verbatim text => text

/-- The name that a statement exports. -/
def exportedName? : Statement → Option String
  | .interface name _ _ => some name
  | .enum name _ => some name
  | .typeAlias name _ => some name
  | .const exported name _ _ => if exported then some name else none
  | .function name _ _ _ => some name
  | .verbatim _ => none

end Statement

/-! ## 4. Blocks -/

/-- Statements one below the other, with an optional doc comment above the first. -/
structure Declaration where
  statements : List Statement
  doc : Option (List String) := none
  blockDoc : Bool := false
deriving DecidableEq, Repr

/-- The text of a declaration. -/
def Declaration.text (d : Declaration) : String :=
  let body := String.intercalate "\n" (d.statements.map Statement.text)
  match d.doc with
  | some lines => docComment lines "" d.blockDoc ++ "\n" ++ body
  | none => body

/-- A part of a file. -/
inductive Block where
  | declaration (d : Declaration)
  | banner (title : String)
  | comment (text : String)
  | exports (d : ExportDecl)
  | imports (d : ImportDecl)
  | group (items : List Block)
deriving Repr

/-- The rule above and below the title of a banner. -/
def bannerRule : String := "// " ++ String.ofList (List.replicate 76 '=')

mutual

/-- The text of a block. -/
def Block.text : Block → String
  | .declaration d => d.text
  | .banner title => bannerRule ++ "\n// " ++ title ++ "\n" ++ bannerRule
  | .comment text => "// " ++ text
  | .exports d => d.text
  | .imports d => d.text
  | .group items => String.intercalate "\n" (Block.texts items)

/-- The texts of blocks. -/
def Block.texts : List Block → List String
  | [] => []
  | b :: r => Block.text b :: Block.texts r

end

mutual

/-- The declarations of a block. -/
def Block.declarations : Block → List Declaration
  | .declaration d => [d]
  | .group items => Block.declarationsOf items
  | _ => []

/-- The declarations of blocks. -/
def Block.declarationsOf : List Block → List Declaration
  | [] => []
  | b :: r => Block.declarations b ++ Block.declarationsOf r

end

mutual

/-- The export lists of a block. -/
def Block.exportDecls : Block → List ExportDecl
  | .exports d => [d]
  | .group items => Block.exportDeclsOf items
  | _ => []

/-- The export lists of blocks. -/
def Block.exportDeclsOf : List Block → List ExportDecl
  | [] => []
  | b :: r => Block.exportDecls b ++ Block.exportDeclsOf r

end

/-- A declaration of one statement. -/
def Block.declare (s : Statement) (doc : Option (List String)) (blockDoc : Bool) : Block :=
  .declaration { statements := [s], doc := doc, blockDoc := blockDoc }

/-- A declaration with a doc comment of one line. -/
def Block.described (s : Statement) (doc : String) : Block := .declare s (some [doc]) false

/-! ## 5. Files -/

/-- A generated module. -/
structure SourceFile where
  header : Option String := none
  imports : List ImportDecl := []
  blocks : List Block := []
deriving Repr

namespace SourceFile

/-- Drops line breaks from the end of a text. -/
def dropLineBreaks (s : String) : String :=
  String.ofList ((s.toList.reverse.dropWhile (· == '\n')).reverse)

/-- The header, if there is one that is not empty. -/
def headerSection (f : SourceFile) : List String :=
  (f.header.filter (!·.isEmpty)).toList.map dropLineBreaks

/-- The imports, if there are any. -/
def importSection (f : SourceFile) : List String :=
  if f.imports.isEmpty then []
  else [String.intercalate "\n" (f.imports.map ImportDecl.text)]

/-- The parts of a file that blank lines separate. -/
def sections (f : SourceFile) : List String :=
  f.headerSection ++ f.importSection ++ f.blocks.map Block.text

/-- The text of a file. -/
def text (f : SourceFile) : String := String.intercalate "\n\n" f.sections ++ "\n"

/-- The export lists of a file. -/
def exportDecls (f : SourceFile) : List ExportDecl := Block.exportDeclsOf f.blocks

/-- The names that the file declares for others. -/
def declaredNames (f : SourceFile) : List String :=
  (Block.declarationsOf f.blocks).flatMap fun d => d.statements.filterMap (·.exportedName?)

/-- The names that others can import from the file. -/
def exportedNames (f : SourceFile) : List String :=
  f.declaredNames ++ f.exportDecls.flatMap fun d => d.names.map Specifier.known

end SourceFile

/-! ## 6. Small laws -/

@[simp] theorem functionBody_nil : functionBody [] = "" := rfl

theorem Block.texts_eq_map (bs : List Block) : Block.texts bs = bs.map Block.text := by
  induction bs with
  | nil => rfl
  | cons b r ih => simp [Block.texts, ih]

/-- A file ends with a line break. -/
theorem SourceFile.getLast?_text (f : SourceFile) : f.text.toList.getLast? = some '\n' := by
  simp [SourceFile.text]

/-- No line break is dropped behind a comment. -/
theorem SourceFile.dropLineBreaks_comment (a : String) :
    dropLineBreaks (a ++ " */") = a ++ " */" := by
  have hlist : (a ++ " */").toList = a.toList ++ [' ', '*', '/'] := String.toList_append
  have hends : (a ++ " */").toList.reverse.dropWhile (· == '\n') = (a ++ " */").toList.reverse := by
    rw [hlist, List.reverse_append]
    rfl
  rw [dropLineBreaks, hends, List.reverse_reverse, String.ofList_toList]

/-- A file with a header of several lines begins with the first of them. -/
theorem SourceFile.exists_text_of_header (f : SourceFile) {line next : String}
    {lines : List String} (h : f.header = some (docComment (line :: next :: lines) "" false)) :
    ∃ rest, f.text = "/**\n" ++ trimEnd (" * " ++ line) ++ rest := by
  obtain ⟨middle, hcomment⟩ : ∃ middle, docComment (line :: next :: lines) "" false
      = "/**\n" ++ trimEnd (" * " ++ line) ++ middle ++ " */" := by
    refine ⟨"\n" ++ String.intercalate "\n" ((next :: lines).map fun l => trimEnd (" * " ++ l))
      ++ "\n", ?_⟩
    simp [docComment, String.append_assoc]
  have hne : ("/**\n" ++ trimEnd (" * " ++ line) ++ middle ++ " */").isEmpty = false := by
    simp [String.isEmpty_eq_false_iff]
  have hsections : f.sections = ("/**\n" ++ trimEnd (" * " ++ line) ++ middle ++ " */") ::
      (f.importSection ++ f.blocks.map Block.text) := by
    rw [sections, headerSection, h, hcomment]
    simp [Option.filter, hne, dropLineBreaks_comment]
  rw [text, hsections]
  cases f.importSection ++ f.blocks.map Block.text with
  | nil =>
    rw [String.intercalate_singleton]
    exact ⟨middle ++ " */" ++ "\n", by simp only [String.append_assoc]⟩
  | cons b rest =>
    rw [String.intercalate_cons_cons]
    exact ⟨middle ++ " */" ++ "\n\n" ++ String.intercalate "\n\n" (b :: rest) ++ "\n", by
      simp only [String.append_assoc]⟩

end SchemaTypes.TypeScript
