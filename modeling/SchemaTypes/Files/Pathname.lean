/-
# Paths as lists of names

A path as files are reached by it: the slashes in front, and the names without empty and
single-dot ones.  `resolve` puts a path behind the current directory and lets a double dot cancel
the name before it.
-/
import SchemaTypes.Text.Path

namespace SchemaTypes

/-- The slashes in front of a path and its names. -/
structure Pathname where
  root : String
  names : List String
deriving DecidableEq, Repr, Inhabited

namespace Pathname

/-! ## 1. Texts -/

/-- The path of a text. -/
def ofText (s : String) : Pathname :=
  ⟨Path.root s, (Path.names s).filter fun n => n != "" && n != "."⟩

/-- The text of a path; the empty path is the single dot. -/
def text (p : Pathname) : String :=
  if p.root.isEmpty && p.names.isEmpty then "."
  else p.root ++ String.intercalate "/" p.names

/-! ## 2. Parts -/

/-- The path begins with a slash. -/
def isAbsolute (p : Pathname) : Bool := !p.root.isEmpty

/-- The last name, empty if there is none. -/
def name (p : Pathname) : String := p.names.getLastD ""

/-- The path without its last name. -/
def parent (p : Pathname) : Pathname := ⟨p.root, p.names.dropLast⟩

/-- A path behind another one; an absolute path stands alone. -/
def child (p q : Pathname) : Pathname :=
  if q.isAbsolute then q else ⟨p.root, p.names ++ q.names⟩

/-- What stands in front of the last dot, and what follows it. -/
def splitAtLastDot? : List Char → Option (List Char × List Char)
  | [] => none
  | c :: rest =>
    match splitAtLastDot? rest with
    | some (head, tail) => some (c :: head, tail)
    | none => if c = '.' then some ([], rest) else none

/-- A name without its suffix, and the suffix; a dot at either end begins none. -/
def splitName (name : List Char) : List Char × List Char :=
  match splitAtLastDot? name with
  | some (head, tail) =>
    if head.isEmpty || tail.isEmpty then (name, []) else (head, '.' :: tail)
  | none => (name, [])

/-- The last name without its suffix. -/
def stem (p : Pathname) : String := String.ofList (splitName p.name.toList).1

/-- The last dot of the last name and what follows it. -/
def suffix (p : Pathname) : String := String.ofList (splitName p.name.toList).2

/-! ## 3. Absolute paths -/

/-- The absolute form of a path seen from the current directory. -/
def resolve (directory : List String) (p : Pathname) : Pathname :=
  let names := if p.isAbsolute then p.names else directory ++ p.names
  ⟨"/", (Path.reduce true names).reverse⟩

/-! ## 4. Small laws -/

@[simp] theorem child_relative (p : Pathname) (names : List String) :
    p.child ⟨"", names⟩ = ⟨p.root, p.names ++ names⟩ := by
  simp [child, isAbsolute]

theorem eq_of_splitAtLastDot? {name head tail : List Char}
    (h : splitAtLastDot? name = some (head, tail)) : name = head ++ '.' :: tail := by
  induction name generalizing head with
  | nil => simp [splitAtLastDot?] at h
  | cons c rest ih =>
    unfold splitAtLastDot? at h
    split at h
    · rename_i hd tl e
      simp only [Option.some.injEq, Prod.mk.injEq] at h
      obtain ⟨rfl, rfl⟩ := h
      simp [ih e]
    · split at h
      · rename_i hc
        simp only [Option.some.injEq, Prod.mk.injEq] at h
        obtain ⟨rfl, rfl⟩ := h
        simp [hc]
      · simp at h

/-- The two parts of a name together are the name. -/
theorem splitName_append (name : List Char) :
    (splitName name).1 ++ (splitName name).2 = name := by
  unfold splitName
  split
  · rename_i e
    split
    · simp
    · simp [eq_of_splitAtLastDot? e]
  · simp

end Pathname

end SchemaTypes
