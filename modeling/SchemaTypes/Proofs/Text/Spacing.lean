/-
# Spacing of joined texts

A text is unbroken if it is on one line.  It is solid if it is not empty, neither begins nor ends
with a line break, and has no two blank lines in a row.  Solid texts stay solid when they are put
one behind the other, one below the other, or with a blank line between them (`Solid.stack`), so
that the spacing of a file follows from that of its parts.
-/
import Mathlib
import SchemaTypes.Proofs.Text.Replace
import SchemaTypes.Text.Search

namespace SchemaTypes.Text

/-! ## 1. Unbroken texts -/

/-- The text is on one line. -/
def Unbroken (s : String) : Prop := '\n' ∉ s.toList

instance : DecidablePred Unbroken := fun s => inferInstanceAs (Decidable ('\n' ∉ s.toList))

/-- A text of given characters; a literal is one. -/
theorem unbroken_chars {cs : List Char} (h : cs.all (· != '\n') = true) :
    Unbroken (String.ofList cs) := by
  rw [Unbroken, String.toList_ofList]
  intro hm
  simpa using List.all_eq_true.1 h _ hm

@[simp] theorem unbroken_append {a b : String} :
    Unbroken (a ++ b) ↔ Unbroken a ∧ Unbroken b := by
  simp [Unbroken]

/-- A text on one line between two others. -/
theorem unbroken_between {front t back : String} (hfront : Unbroken front) (h : Unbroken t)
    (hback : Unbroken back) : Unbroken (front ++ t ++ back) :=
  unbroken_append.2 ⟨unbroken_append.2 ⟨hfront, h⟩, hback⟩

theorem unbroken_intercalate {sep : String} (hsep : Unbroken sep) {ts : List String}
    (h : ∀ t ∈ ts, Unbroken t) : Unbroken (String.intercalate sep ts) := by
  induction ts with
  | nil => simp [Unbroken]
  | cons t ts ih =>
    obtain ⟨ht, hts⟩ := List.forall_mem_cons.1 h
    cases ts with
    | nil => rwa [String.intercalate_singleton]
    | cons u ts =>
      rw [String.intercalate_cons_cons]
      exact unbroken_between ht hsep (ih hts)

theorem unbroken_join {ts : List String} (h : ∀ t ∈ ts, Unbroken t) :
    Unbroken (String.join ts) := by
  induction ts with
  | nil => decide
  | cons t ts ih =>
    obtain ⟨ht, hts⟩ := List.forall_mem_cons.1 h
    rw [String.join_cons]
    exact unbroken_append.2 ⟨ht, ih hts⟩

/-! ## 2. Solid texts -/

/-- Two blank lines in a row. -/
def twoBlankLines : List Char := ['\n', '\n', '\n']

/-- The text ends with a character that is no line break. -/
def Firm (s : String) : Prop := ∃ r c, s.toList = r ++ [c] ∧ c ≠ '\n'

/-- The text is not empty, begins and ends with something else than a line break, and has no two
blank lines in a row. -/
structure Solid (s : String) : Prop where
  head : ∃ c r, s.toList = c :: r ∧ c ≠ '\n'
  firm : Firm s
  spaced : ¬twoBlankLines <:+: s.toList

variable {a b s u : String} {ts : List String}

theorem Unbroken.solid (h : Unbroken u) (hne : u ≠ "") : Solid u := by
  have hchars : u.toList ≠ [] := fun e => hne (String.toList_inj.1 e)
  have hother : ∀ c ∈ u.toList, c ≠ '\n' := fun c hc e => h (e ▸ hc)
  refine ⟨?_, ?_, fun hin => h (hin.subset (by decide))⟩
  · obtain ⟨c, r, hr⟩ := List.exists_cons_of_ne_nil hchars
    exact ⟨c, r, hr, hother c (by simp [hr])⟩
  · exact ⟨_, _, (List.dropLast_append_getLast hchars).symm,
      hother _ (List.getLast_mem hchars)⟩

theorem Solid.ne_empty (h : Solid s) : s ≠ "" := by
  rintro rfl
  obtain ⟨c, r, hr, -⟩ := h.head
  simp at hr

/-- **Solid texts with up to two line breaks between them** are a solid text. -/
theorem Solid.stack (ha : Solid a) (hb : Solid b) {gap : String} {n : Nat} (hn : n ≤ 2)
    (hgap : gap.toList = List.replicate n '\n') : Solid (a ++ gap ++ b) := by
  obtain ⟨c, r, hc, hnc⟩ := ha.head
  obtain ⟨r', c', hc', hnc'⟩ := ha.firm
  obtain ⟨d, t, hd, hnd⟩ := hb.head
  obtain ⟨t', d', hd', hnd'⟩ := hb.firm
  refine ⟨⟨c, r ++ gap.toList ++ b.toList, by simp [hc], hnc⟩,
    ⟨a.toList ++ gap.toList ++ t', d', by simp [hd'], hnd'⟩, fun hin => ?_⟩
  have hnotin : ∀ {x : Char}, x ≠ '\n' → x ∉ twoBlankLines := by
    intro x hx
    simpa [twoBlankLines] using hx
  have hlist : (a ++ gap ++ b).toList = r' ++ c' :: (List.replicate n '\n' ++ d :: t) := by
    simp [hc', hd, hgap]
  -- Three line breaks stand in front of `c'`, between `c'` and `d`, or behind `d`.
  rw [hlist] at hin
  rcases infix_append_cons (hnotin hnc') hin with hin | hin
  · exact ha.spaced (hc' ▸ hin.trans (List.prefix_append _ _).isInfix)
  · rcases infix_append_cons (hnotin hnd) hin with hin | hin
    · have hlength := hin.length_le
      rw [List.length_replicate] at hlength
      exact absurd (hlength.trans hn) (by decide)
    · exact hb.spaced (hd ▸ hin.trans (List.suffix_cons _ _).isInfix)

theorem Solid.append (ha : Solid a) (hb : Solid b) : Solid (a ++ b) := by
  have hstack : Solid (a ++ "" ++ b) := ha.stack hb (n := 0) (by decide) rfl
  rwa [String.append_empty] at hstack

theorem Solid.append_unbroken (ha : Solid a) (hu : Unbroken u) : Solid (a ++ u) := by
  by_cases h : u = ""
  · rwa [h, String.append_empty]
  · exact ha.append (hu.solid h)

theorem Unbroken.append_solid (hu : Unbroken u) (hb : Solid b) : Solid (u ++ b) := by
  by_cases h : u = ""
  · rwa [h, String.empty_append]
  · exact (hu.solid h).append hb

theorem Solid.below (ha : Solid a) (hb : Solid b) : Solid (a ++ "\n" ++ b) :=
  ha.stack hb (n := 1) (by decide) rfl

theorem Solid.apart (ha : Solid a) (hb : Solid b) : Solid (a ++ "\n\n" ++ b) :=
  ha.stack hb (n := 2) (by decide) rfl

/-! ## 3. Lists of texts -/

/-- The text is on one line and not empty. -/
def IsLine (l : String) : Prop := Unbroken l ∧ l ≠ ""

instance : DecidablePred IsLine := fun _ => inferInstanceAs (Decidable (_ ∧ _))

@[simp] theorem isLine_iff {l : String} : IsLine l ↔ Unbroken l ∧ l ≠ "" := Iff.rfl

/-- One line more. -/
theorem lines_cons {line : String} {lines : List String} (hline : Unbroken line) (hne : line ≠ "")
    (h : ∀ l ∈ lines, IsLine l) : ∀ l ∈ line :: lines, IsLine l :=
  List.forall_mem_cons.2 ⟨⟨hline, hne⟩, h⟩

theorem lines_nil : ∀ l ∈ ([] : List String), IsLine l := fun _ hl => nomatch hl

theorem solid_of_lines (h : ∀ l ∈ ts, IsLine l) : ∀ l ∈ ts, Solid l := fun l hl =>
  (h l hl).1.solid (h l hl).2

/-- Solid texts with the same number of line breaks between them. -/
theorem solid_intercalate {sep : String} {n : Nat} (hn : n ≤ 2)
    (hsep : sep.toList = List.replicate n '\n') (hne : ts ≠ []) (h : ∀ t ∈ ts, Solid t) :
    Solid (String.intercalate sep ts) := by
  induction ts with
  | nil => exact absurd rfl hne
  | cons t ts ih =>
    obtain ⟨ht, hts⟩ := List.forall_mem_cons.1 h
    cases ts with
    | nil => rwa [String.intercalate_singleton]
    | cons u ts =>
      rw [String.intercalate_cons_cons]
      exact ht.stack (ih (by simp) hts) hn hsep

theorem solid_lines (hne : ts ≠ []) (h : ∀ t ∈ ts, Solid t) : Solid (String.intercalate "\n" ts) :=
  solid_intercalate (n := 1) (by decide) rfl hne h

/-- Lines between an opening and a closing line; without lines there is a blank line. -/
theorem solid_between (ha : Solid a) (hb : Solid b) (h : ∀ t ∈ ts, Solid t) :
    Solid (a ++ "\n" ++ String.intercalate "\n" ts ++ "\n" ++ b) := by
  cases ts with
  | nil =>
    have hgap : a ++ "\n" ++ String.intercalate "\n" [] ++ "\n" ++ b = a ++ "\n\n" ++ b := by
      rw [String.intercalate_nil, String.append_empty, @String.append_assoc a]
      rfl
    rw [hgap]
    exact ha.apart hb
  | cons t ts => exact (ha.below (solid_lines (by simp) h)).below hb

theorem join_map_break : ∀ (ts : List String), ts ≠ [] →
    String.join (ts.map (· ++ "\n")) = String.intercalate "\n" ts ++ "\n"
  | [], h => absurd rfl h
  | [t], _ => by simp [String.join]
  | t :: u :: ts, _ => by
    rw [String.intercalate_cons_cons, List.map_cons, String.join_cons,
      join_map_break (u :: ts) (by simp)]
    simp only [String.append_assoc]

/-- Lines that each end with a line break, between an opening and a closing line. -/
theorem solid_table (ha : Solid a) (hb : Solid b) (h : ∀ t ∈ ts, Solid t) :
    Solid (a ++ "\n" ++ String.join (ts.map (· ++ "\n")) ++ b) := by
  by_cases hne : ts = []
  · simpa [hne, String.join] using ha.below hb
  · rw [join_map_break ts hne, ← String.append_assoc]
    exact (ha.below (solid_lines hne h)).below hb

/-! ## 4. Ends of texts -/

/-- The text ends with one line break and no more. -/
def EndsOnce (s : String) : Prop := endsWith s "\n" = true ∧ endsWith s "\n\n" = false

theorem Firm.append_left (h : Firm b) (a : String) : Firm (a ++ b) := by
  obtain ⟨r, c, hc, hne⟩ := h
  exact ⟨a.toList ++ r, c, by simp [hc], hne⟩

/-- Texts one after the other end as the last of them does. -/
theorem Firm.intercalate_concat (h : Firm s) (sep : String) (ts : List String) :
    Firm (String.intercalate sep (ts ++ [s])) := by
  induction ts with
  | nil => simpa using h
  | cons t ts ih =>
    obtain ⟨u, us, hus⟩ : ∃ u us, ts ++ [s] = u :: us := List.exists_cons_of_ne_nil (by simp)
    rw [List.cons_append, hus, String.intercalate_cons_cons, ← hus]
    exact ih.append_left _

theorem Firm.endsOnce (h : Firm s) : EndsOnce (s ++ "\n") := by
  obtain ⟨r, c, hc, hne⟩ := h
  refine ⟨endsWith_iff.2 ?_, endsWith_eq_false_iff.2 fun hend => hne ?_⟩
  · rw [String.toList_append]
    exact List.suffix_append _ _
  · have hlist : (s ++ "\n").toList = r ++ [c, '\n'] := by simp [hc]
    obtain ⟨front, hfront⟩ := hend
    rw [hlist] at hfront
    have htwo : ['\n', '\n'] = [c, '\n'] := (List.append_inj' hfront rfl).2
    exact (List.cons.inj htwo).1.symm

/-- A line break behind a solid text makes no blank lines. -/
theorem Solid.spaced_break (h : Solid s) : ¬twoBlankLines <:+: (s ++ "\n").toList := by
  obtain ⟨r, c, hc, hne⟩ := h.firm
  have hlist : (s ++ "\n").toList = r ++ c :: ['\n'] := by simp [hc]
  rw [hlist]
  intro hin
  rcases infix_append_cons (by simpa [twoBlankLines] using hne) hin with hin | hin
  · exact h.spaced (hc ▸ hin.trans (List.prefix_append _ _).isInfix)
  · exact absurd hin.length_le (by decide)

end SchemaTypes.Text
