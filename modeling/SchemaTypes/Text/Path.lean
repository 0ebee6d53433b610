/-
# Paths

A path is a text of names with slashes between them.  `join` puts one path behind another,
`baseName` is the last name, and `normalise` removes empty and single-dot names and lets a name
cancel the double dot after it, without looking at any file system.
-/
import SchemaTypes.Text.Search

namespace SchemaTypes.Path

/-! ## 1. Names of a path -/

/-- The names between slashes. -/
def names (path : String) : List String := Text.pieces '/' path

/-- The path begins with a slash. -/
def isAbsolute (path : String) : Bool := Text.startsWith path "/"

/-- A path behind another one; an absolute path stands alone. -/
def join (a b : String) : String :=
  if isAbsolute b then b
  else if a.isEmpty || Text.endsWith a "/" then a ++ b
  else a ++ "/" ++ b

/-- The last name of a path. -/
def baseName (path : String) : String := (names path).getLastD ""

/-! ## 2. Normal form -/

/-- One name more on a reversed list of names: empty and single-dot names change nothing, and a
double dot removes the name before it; at the start of a relative path it stays. -/
def push (absolute : Bool) (done : List String) (name : String) : List String :=
  if name == "" || name == "." then done
  else if name == ".." then
    match done with
    | [] => if absolute then [] else [".."]
    | d :: r => if d == ".." then ".." :: d :: r else r
  else name :: done

/-- The names of a path in normal form, reversed. -/
def reduce (absolute : Bool) (ns : List String) : List String := ns.foldl (push absolute) []

/-- The slashes that a path keeps in front: two stay two, more become one. -/
def root (path : String) : String :=
  if Text.startsWith path "///" then "/"
  else if Text.startsWith path "//" then "//"
  else if isAbsolute path then "/"
  else ""

/-- The normal form of a path; the empty path is the single dot. -/
def normalise (path : String) : String :=
  let reduced := root path ++ String.intercalate "/" (reduce (isAbsolute path) (names path)).reverse
  if reduced.isEmpty then "." else reduced

/-! ## 3. Small laws -/

/-- An absolute path keeps no double dot. -/
theorem push_absolute {done : List String} {name : String} (h : ".." ∉ done) :
    ".." ∉ push true done name := by
  unfold push
  split
  · exact h
  · split
    · cases done with
      | nil => simp
      | cons d r =>
        have hd : d ≠ ".." := fun e => h (by simp [e])
        have hr : ".." ∉ r := fun m => h (List.mem_cons_of_mem _ m)
        simpa [hd] using hr
    · rename_i hn
      have hn : name ≠ ".." := by simpa using hn
      simpa [List.mem_cons, hn.symm] using h

end SchemaTypes.Path
