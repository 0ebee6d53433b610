/-
# Searching a text

Whether a text begins with, ends with or contains another one, and its pieces between separators.
-/
namespace SchemaTypes.Text

/-- The text occurs somewhere in the other. -/
def containsChars (needle : List Char) : List Char → Bool
  | [] => needle.isEmpty
  | c :: r => needle.isPrefixOf (c :: r) || containsChars needle r

/-- The string occurs somewhere in the other. -/
def contains (s needle : String) : Bool := containsChars needle.toList s.toList

/-- The string begins with the other. -/
def startsWith (s start : String) : Bool := start.toList.isPrefixOf s.toList

/-- The string ends with the other. -/
def endsWith (s tail : String) : Bool := tail.toList.isSuffixOf s.toList

/-- The pieces between the occurrences of a character. -/
def splitOn (sep : Char) : List Char → List (List Char)
  | [] => [[]]
  | c :: r =>
    if c = sep then [] :: splitOn sep r
    else match splitOn sep r with
      | w :: ws => (c :: w) :: ws
      | [] => [[c]]

/-- The pieces of a string between the occurrences of a character. -/
def pieces (sep : Char) (s : String) : List String := (splitOn sep s.toList).map String.ofList

/-- A text has at least one piece. -/
theorem splitOn_ne_nil (sep : Char) (cs : List Char) : splitOn sep cs ≠ [] := by
  cases cs with
  | nil => simp [splitOn]
  | cons c r =>
    simp only [splitOn]
    split
    · simp
    · split <;> simp

/-! ## Beginnings and ends -/

theorem startsWith_iff {s start : String} :
    startsWith s start = true ↔ start.toList <+: s.toList :=
  List.isPrefixOf_iff_prefix

theorem endsWith_iff {s tail : String} : endsWith s tail = true ↔ tail.toList <:+ s.toList :=
  List.isSuffixOf_iff_suffix

theorem endsWith_eq_false_iff {s tail : String} :
    endsWith s tail = false ↔ ¬ tail.toList <:+ s.toList := by
  rw [← endsWith_iff, Bool.not_eq_true]

theorem startsWith_append (start rest : String) : startsWith (start ++ rest) start = true := by
  rw [startsWith_iff, String.toList_append]
  exact List.prefix_append _ _

theorem startsWith_trans {a b c : String} (h : startsWith a b = true)
    (h' : startsWith b c = true) : startsWith a c = true :=
  startsWith_iff.2 ((startsWith_iff.1 h').trans (startsWith_iff.1 h))

/-- The first character decides whether a text begins with a text of one character. -/
theorem startsWith_singleton {s : String} {c : Char} :
    startsWith s (String.singleton c) = true ↔ s.toList.head? = some c := by
  rw [startsWith_iff, String.toList_singleton]
  cases s.toList with
  | nil => simp
  | cons d r => simp [eq_comm]

/-- Two beginnings of one text begin alike. -/
theorem startsWith_append_congr {a b : String} {c : Char} (h : a.toList ≠ []) :
    startsWith (a ++ b) (String.singleton c) = startsWith a (String.singleton c) := by
  rw [Bool.eq_iff_iff, startsWith_singleton, startsWith_singleton, String.toList_append]
  cases ha : a.toList with
  | nil => exact absurd ha h
  | cons d r => exact Iff.rfl

/-! ## Joined texts -/

/-- Every part of a joined text stands in it. -/
theorem infix_intercalate {sep name : String} {names : List String} (h : name ∈ names) :
    name.toList <:+: (String.intercalate sep names).toList := by
  induction names with
  | nil => exact nomatch h
  | cons first rest ih =>
    cases rest with
    | nil =>
      exact ⟨[], [], by simp [List.mem_singleton.1 h]⟩
    | cons second others =>
      rw [String.intercalate_cons_cons, String.toList_append, String.toList_append]
      rcases List.mem_cons.1 h with rfl | h
      · exact ⟨[], sep.toList ++ (String.intercalate sep (second :: others)).toList, by simp⟩
      · exact (ih h).trans (List.suffix_append _ _).isInfix

end SchemaTypes.Text
