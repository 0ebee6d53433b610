/-
# Modules of packages

The name of a module that begins with a dot segment is a path from the directory of the file that
names it; any other name stands under the directory of packages (`moduleAt`).  A package can also
say itself which files stand behind its subpaths: its description maps patterns with a star to
targets, and the text of the star is put into the target (`Package.target?`).
-/
import SchemaTypes.Data.Value
import SchemaTypes.Proofs.TypeScript.Links

namespace SchemaTypes.TypeScript

/-! ## 1. Names of modules -/

/-- The name of a module is a path. -/
def isRelative (module : String) : Bool :=
  Text.startsWith module "./" || Text.startsWith module "../"

/-- The place of the source behind the name of a module that a file names. -/
def moduleAt (file module : String) : Pathname :=
  if isRelative module then
    ((Pathname.ofText file).parent.child (Pathname.ofText (module ++ ".ts"))).normal
  else (Pathname.ofText ("node_modules/" ++ module ++ ".ts")).normal

theorem isRelative_eq_false {module : String} (h : module.toList.head? ≠ some '.') :
    isRelative module = false := by
  have hstart (start : String) (hs : Text.startsWith start (String.singleton '.') = true) :
      Text.startsWith module start = false := by
    by_contra hm
    rw [Bool.not_eq_false] at hm
    exact h (Text.startsWith_singleton.1 (Text.startsWith_trans hm hs))
  rw [isRelative, hstart "./" (by decide), hstart "../" (by decide)]
  rfl

/-! ## 2. Descriptions of packages -/

namespace Package

/-- What the star of a pattern stands for in a text that fits the pattern. -/
def starIn? (pattern text : String) : Option String :=
  match Text.splitOn '*' pattern.toList with
  | [before, after] =>
    let rest := text.toList.drop before.length
    if before.isPrefixOf text.toList && after.isSuffixOf rest then
      some (String.ofList (rest.take (rest.length - after.length)))
    else none
  | _ => none

/-- The text with another one in place of each star. -/
def fillStars (text filling : String) : String :=
  String.intercalate filling (Text.pieces '*' text)

/-- The value under a key of a map. -/
def field? (name : String) : Value → Option Value
  | .map entries => Value.entry? name entries
  | _ => none

/-- The patterns of a description with their targets under a condition. -/
def patterns (description : Value) (condition : String) : List (String × String) :=
  match field? "exports" description with
  | some (.map entries) =>
    entries.filterMap fun e =>
      match e.1, field? condition e.2 with
      | .text pattern, some (.text target) => some (pattern, target)
      | _, _ => none
  | _ => none.toList

/-- The part of the name of a module behind the name of its package. -/
def subpath? (package module : String) : Option String :=
  if Text.startsWith module package then
    some ("." ++ String.ofList (module.toList.drop package.toList.length))
  else none

/-- The file of a package behind the name of a module: the target of the first pattern that the
subpath fits. -/
def target? (description : Value) (condition package module : String) : Option String :=
  (subpath? package module).bind fun subpath =>
    (patterns description condition).findSome? fun p => (starIn? p.1 subpath).map (fillStars p.2)

theorem subpath?_append (package rest : String) :
    subpath? package (package ++ rest) = some ("." ++ rest) := by
  rw [subpath?, Text.startsWith_append, if_pos rfl, String.toList_append, List.drop_left,
    String.ofList_toList]

/-- A pattern with its star at the end. -/
theorem starIn?_star {before : String} (h : '*' ∉ before.toList) (text : String) :
    starIn? (before ++ "*") text
      = if Text.startsWith text before then
          some (String.ofList (text.toList.drop before.toList.length))
        else none := by
  have hsplit : Text.splitOn '*' (before ++ "*").toList = [before.toList, []] := by
    rw [String.toList_append, show "*".toList = '*' :: [] from rfl, Text.splitOn_append_sep,
      Text.splitOn_of_not_mem h]
    rfl
  have hnil (rest : List Char) : ([] : List Char).isSuffixOf rest = true := rfl
  rw [starIn?, hsplit]
  simp only [hnil, Bool.and_true, List.length_nil, Nat.sub_zero, List.take_length]
  rfl

end Package

end SchemaTypes.TypeScript
