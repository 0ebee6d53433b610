/-
# Links between modules

A link is a name that a file takes from a module, to use it or to pass it on (`SourceFile.links`).
The name of a module is a path from the directory of the file that names it, without the suffix of
the file behind it (`modulePath`).  Where a link leads is a matter of the directories on both sides
and of the way between them (`Leads`, `Leads.text_modulePath`).
-/
import SchemaTypes.Proofs.Text.Path
import SchemaTypes.TypeScript.Source

namespace SchemaTypes.TypeScript

/-! ## 1. Links -/

/-- A name that is taken from a module. -/
structure Link where
  name : String
  module : String
deriving DecidableEq, Repr

/-- The links of an import. -/
def ImportDecl.links (d : ImportDecl) : List Link := d.names.map fun n => ⟨n.name, d.module⟩

/-- The links of an export; the file's own names are no links. -/
def ExportDecl.links (d : ExportDecl) : List Link :=
  match d.module with
  | some m => d.names.map fun n => ⟨n.name, m⟩
  | none => []

mutual

/-- The links of a block. -/
def Block.links : Block → List Link
  | .imports d => d.links
  | .exports d => d.links
  | .group items => Block.linksOf items
  | _ => []

/-- The links of blocks. -/
def Block.linksOf : List Block → List Link
  | [] => []
  | b :: r => Block.links b ++ Block.linksOf r

end

/-- The links of a file. -/
def SourceFile.links (f : SourceFile) : List Link :=
  f.imports.flatMap ImportDecl.links ++ Block.linksOf f.blocks

namespace Block

theorem linksOf_eq_flatMap (bs : List Block) : linksOf bs = bs.flatMap links := by
  induction bs with
  | nil => rfl
  | cons b r ih => rw [linksOf, ih, List.flatMap_cons]

theorem linksOf_append (a b : List Block) : linksOf (a ++ b) = linksOf a ++ linksOf b := by
  rw [linksOf_eq_flatMap, List.flatMap_append, ← linksOf_eq_flatMap, ← linksOf_eq_flatMap]

theorem mem_linksOf_iff {bs : List Block} {l : Link} : l ∈ linksOf bs ↔ ∃ b ∈ bs, l ∈ b.links := by
  rw [linksOf_eq_flatMap, List.mem_flatMap]

theorem declarationsOf_eq_flatMap (bs : List Block) :
    declarationsOf bs = bs.flatMap declarations := by
  induction bs with
  | nil => rfl
  | cons b r ih => rw [declarationsOf, ih, List.flatMap_cons]

theorem exportDeclsOf_eq_flatMap (bs : List Block) :
    exportDeclsOf bs = bs.flatMap exportDecls := by
  induction bs with
  | nil => rfl
  | cons b r ih => rw [exportDeclsOf, ih, List.flatMap_cons]

end Block

/-! ## 2. Modules as files -/

/-- The file behind the name of a module: the suffix of scripts, if there is one, gives way to that
of sources. -/
def moduleFile (module : String) : String :=
  (if Text.endsWith module ".js" then
      String.ofList (module.toList.take (module.toList.length - ".js".length))
    else module) ++ ".ts"

/-- Where a module leads that a file names. -/
def modulePath (file module : String) : Pathname :=
  ((Pathname.ofText file).parent.child (Pathname.ofText (moduleFile module))).normal

/-- The suffix of a module is that of scripts or nothing. -/
theorem moduleFile_append {base ext : String} (hext : ext = "" ∨ ext = ".js")
    (hbase : Text.endsWith base ".js" = false) : moduleFile (base ++ ext) = base ++ ".ts" := by
  rcases hext with rfl | rfl
  · rw [String.append_empty, moduleFile, hbase]
    rfl
  · have hends : Text.endsWith (base ++ ".js") ".js" = true := by
      refine Text.endsWith_iff.2 ⟨base.toList, ?_⟩
      rw [String.toList_append]
    have htake : (base ++ ".js").toList.take ((base ++ ".js").toList.length - ".js".length)
        = base.toList := by
      rw [String.toList_append, List.length_append]
      exact List.take_left' (Nat.add_sub_cancel ..).symm
    rw [moduleFile, hends, if_pos rfl, htake, String.ofList_toList]

/-- A name that can end the name of a module. -/
structure EndsModule (name : String) : Prop where
  slash : '/' ∉ name.toList
  script : ∀ location : String, Text.endsWith (location ++ "/" ++ name) ".js" = false

/-- A name without a slash and a dot has no suffix. -/
theorem EndsModule.of_not_mem {name : String} (hslash : '/' ∉ name.toList)
    (hdot : '.' ∉ name.toList) : EndsModule name where
  slash := hslash
  script location := by
    refine Text.endsWith_eq_false_iff.2 fun h => ?_
    have hname : '/' :: name.toList <:+ (location ++ "/" ++ name).toList :=
      ⟨location.toList, by simp⟩
    rcases Nat.le_total ".js".toList.length ('/' :: name.toList).length with hle | hle
    · -- the suffix would be part of the name, which has no dot
      have hmem : '.' ∈ '/' :: name.toList :=
        (List.suffix_of_suffix_length_le h hname hle).subset (by decide)
      rcases List.mem_cons.1 hmem with hmem | hmem
      · exact absurd hmem (by decide)
      · exact hdot hmem
    · -- the slash would be part of the suffix
      have hmem : '/' ∈ ".js".toList :=
        (List.suffix_of_suffix_length_le hname h hle).subset List.mem_cons_self
      exact absurd hmem (by decide)

/-- A name with another suffix. -/
theorem EndsModule.append_rules {name : String} (hslash : '/' ∉ name.toList) :
    EndsModule (name ++ ".rules") where
  slash := by
    rw [String.toList_append, List.mem_append]
    exact fun h => h.elim hslash (by decide)
  script location := by
    refine Text.endsWith_eq_false_iff.2 fun h => ?_
    have hrules : ".rules".toList <:+ (location ++ "/" ++ (name ++ ".rules")).toList :=
      ⟨(location ++ "/" ++ name).toList, by simp⟩
    exact absurd (List.suffix_of_suffix_length_le h hrules (by decide)) (by decide)

/-! ## 3. The way to a module -/

/-- From one directory a location leads to the other, whatever both stand in. -/
structure Leads (directory : List String) (location : String) (directory' : List String) :
    Prop where
  nonempty : location ≠ ""
  relative : Path.isAbsolute location = false
  way : ∀ absolute done,
    (directory ++ (Pathname.ofText location).names).foldl (Path.push absolute) done
      = directory'.foldl (Path.push absolute) done

/-- The path of a file at a relative location. -/
theorem ofText_file {location name : String} (hne : location ≠ "")
    (hrelative : Path.isAbsolute location = false) (hslash : '/' ∉ name.toList) :
    Pathname.ofText (location ++ "/" ++ name ++ ".ts")
      = ⟨"", (Pathname.ofText location).names ++ [name ++ ".ts"]⟩ := by
  have hpath : location ++ "/" ++ name ++ ".ts" = location ++ "/" ++ (name ++ ".ts") :=
    String.append_assoc
  have hfile : '/' ∉ (name ++ ".ts").toList := by
    rw [String.toList_append, List.mem_append]
    exact fun h => h.elim hslash (by decide)
  have hends (other : String) (h : ¬ ".ts".toList <:+ other.toList) : name ++ ".ts" ≠ other := by
    rintro rfl
    exact h ⟨name.toList, String.toList_append.symm⟩
  have hnames : (Pathname.ofText (location ++ "/" ++ (name ++ ".ts"))).names
      = (Pathname.ofText location).names ++ [name ++ ".ts"] := by
    rw [Pathname.names_slash,
      Pathname.names_single hfile (hends "" (by decide)) (hends "." (by decide))]
  have hroot : (Pathname.ofText (location ++ "/" ++ (name ++ ".ts"))).root = "" := by
    refine Pathname.root_of_relative ?_
    rw [String.append_assoc]
    exact Path.isAbsolute_append hne hrelative _
  rw [hpath, ← hnames, ← hroot]

/-- **Where a link leads.**  A module in a directory to which its location leads is the file with
its name there. -/
theorem Leads.text_modulePath {directory directory' route : List String} {location : String}
    (h : Leads directory location directory') {file target root last name ext : String}
    (hfile : Pathname.ofText file = ⟨root, route ++ directory ++ [last]⟩)
    (htarget : Pathname.ofText target = ⟨root, route ++ directory' ++ [name ++ ".ts"]⟩)
    (hname : EndsModule name) (hext : ext = "" ∨ ext = ".js") :
    (modulePath file (location ++ "/" ++ name ++ ext)).text = Path.normalise target := by
  have hparent : (Pathname.ofText file).parent = ⟨root, route ++ directory⟩ := by
    rw [hfile, Pathname.parent, List.dropLast_concat]
  have hreduce (absolute : Bool) :
      Path.reduce absolute (route ++ directory
          ++ ((Pathname.ofText location).names ++ [name ++ ".ts"]))
        = Path.reduce absolute (route ++ directory' ++ [name ++ ".ts"]) := by
    have hway := h.way absolute (Path.reduce absolute route)
    rw [List.foldl_append] at hway
    simp only [Path.reduce_append, List.foldl_append, hway]
  have hpath : modulePath file (location ++ "/" ++ name ++ ext)
      = (Pathname.ofText target).normal := by
    rw [modulePath, moduleFile_append hext (hname.script location),
      ofText_file h.nonempty h.relative hname.slash, hparent, htarget, Pathname.child_relative,
      Pathname.normal, Pathname.normal]
    exact congrArg (fun ns => Pathname.mk root ns.reverse) (hreduce _)
  rw [hpath, Pathname.text_normal]

end SchemaTypes.TypeScript
