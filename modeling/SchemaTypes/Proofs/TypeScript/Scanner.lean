/-
# Literals as they are read

What a reader of TypeScript takes for the literals of a generated text.  A literal in single quotes
ends at the next quote that no backslash escapes, or where its line ends (`literalsOf`).  The
literal of a regular expression ends at the next slash that stands neither in brackets nor behind a
backslash (`readRegex?`).

Quoted values with separators between them are read back exactly if each of them is on one line
(`literalsFrom_joined_iff`), and a text between slashes is read as one regular expression exactly
if no slash in it is bare (`regexFrom_iff`).  In an escaped text none is (`passesOver_escapeBy`).
-/
import Mathlib
import SchemaTypes.TypeScript.Literal

namespace SchemaTypes.TypeScript

/-! ## 1. Texts in single quotes -/

/-- The line of a literal in quotes ends here. -/
def isLineEnd (c : Char) : Bool := c == '\n' || c == '\r'

/-- The letters that stand for another character behind a backslash. -/
def letterEscapes : List (Char × Char) :=
  [('b', '\x08'), ('t', '\t'), ('n', '\n'), ('v', '\x0b'), ('f', '\x0c'), ('r', '\r'),
    ('0', '\x00')]

/-- The character that a backslash and one more character stand for.  Longer escapes and lines that
a backslash continues do not come from quoting. -/
def escapedChar (c : Char) : Char := (letterEscapes.lookup c).getD c

/-- The values of the literals in a text.  The reader is outside of a literal, or inside of one
whose value begins with the given characters, the last in front. -/
def literalsFrom : Option (List Char) → List Char → List String
  | none, [] => []
  | some value, [] => [String.ofList value.reverse]
  | none, c :: r => if c = '\'' then literalsFrom (some []) r else literalsFrom none r
  | some value, '\\' :: c :: r => literalsFrom (some (escapedChar c :: value)) r
  | some value, c :: r =>
    if c = '\'' || isLineEnd c then String.ofList value.reverse :: literalsFrom none r
    else literalsFrom (some (c :: value)) r

/-- The values of the literals of a text, in order. -/
def literalsOf (text : String) : List String := literalsFrom none text.toList

/-- The text is on one line. -/
def OneLine (s : String) : Prop := ∀ c ∈ s.toList, isLineEnd c = false

theorem escapeBy_append (p : Char → Bool) (a b : List Char) :
    escapeBy p (a ++ b) = escapeBy p a ++ escapeBy p b := by
  induction a with
  | nil => rfl
  | cons c r ih => cases h : p c <;> simp [escapeBy, h, ih]

/-- What is escaped keeps its characters. -/
theorem mem_escapeBy {p : Char → Bool} {cs : List Char} {c : Char} (h : c ∈ cs) :
    c ∈ escapeBy p cs := by
  induction cs with
  | nil => exact absurd h List.not_mem_nil
  | cons d r ih =>
    rcases List.mem_cons.1 h with rfl | hr
    · cases hc : p c <;> simp [escapeBy, hc]
    · cases hd : p d <;> simp [escapeBy, hd, ih hr]

/-- Outside of literals everything but a quote is passed over. -/
theorem literalsFrom_skip {cs : List Char} (h : '\'' ∉ cs) (rest : List Char) :
    literalsFrom none (cs ++ rest) = literalsFrom none rest := by
  induction cs with
  | nil => rfl
  | cons c r ih =>
    rw [List.mem_cons, not_or] at h
    rw [List.cons_append, literalsFrom, if_neg (Ne.symm h.1), ih h.2]

/-- **Inside a literal** the escaped characters are read back up to a quote or the end of the
line. -/
theorem literalsFrom_escaped {cs : List Char} (hcs : ∀ c ∈ cs, isLineEnd c = false)
    (stop : Char) (hstop : (stop = '\'' || isLineEnd stop) = true) (value rest : List Char) :
    literalsFrom (some value) (escapeBy isQuoteSpecial cs ++ stop :: rest)
      = String.ofList (value.reverse ++ cs) :: literalsFrom none rest := by
  have hne : stop ≠ '\\' := by
    rintro rfl
    exact absurd hstop (by decide)
  induction cs generalizing value with
  | nil => simp [literalsFrom, hstop, hne]
  | cons c r ih =>
    have hr := ih fun d hd => hcs d (List.mem_cons_of_mem _ hd)
    by_cases hc : isQuoteSpecial c = true
    · have hself : escapedChar c = c := by
        rcases (by simpa [isQuoteSpecial] using hc : c = '\\' ∨ c = '\'') with rfl | rfl <;> decide
      rw [escapeBy, if_pos hc, List.cons_append, List.cons_append, literalsFrom, hself, hr]
      simp
    · have hline := hcs c List.mem_cons_self
      obtain ⟨hback, hquote⟩ : c ≠ '\\' ∧ c ≠ '\'' := by simpa [isQuoteSpecial] using hc
      rw [escapeBy, if_neg hc, List.cons_append]
      simp [literalsFrom, hback, hquote, hline, hr]

theorem toList_quote (s : String) :
    (quote s).toList = '\'' :: (escapeBy isQuoteSpecial s.toList ++ ['\'']) := by
  simp [quote, escapeString]

/-- **A quoted value** on one line is read back. -/
theorem literalsFrom_quote {s : String} (h : OneLine s) (rest : List Char) :
    literalsFrom none ((quote s).toList ++ rest) = s :: literalsFrom none rest := by
  have hread := literalsFrom_escaped h '\'' (by decide) [] rest
  simpa [toList_quote, literalsFrom] using hread

/-- **A quoted value** on several lines is read up to the end of the first one. -/
theorem exists_head_literalsFrom {s : String} (h : ¬OneLine s) (rest : List Char) :
    ∃ first ≠ s, (literalsFrom none ((quote s).toList ++ rest)).head? = some first := by
  obtain ⟨stop, hstop⟩ : ∃ stop, s.toList.find? isLineEnd = some stop := by
    rw [← Option.isSome_iff_exists, List.find?_isSome]
    simpa [OneLine] using h
  -- The first line of the value, and what ends it.
  obtain ⟨hend, line, more, hsplit, hline⟩ := List.find?_eq_some_iff_append.1 hstop
  have hplain : isQuoteSpecial stop = false := by
    rcases (by simpa [isLineEnd] using hend : stop = '\n' ∨ stop = '\r') with rfl | rfl <;> decide
  have hescaped : escapeBy isQuoteSpecial s.toList
      = escapeBy isQuoteSpecial line ++ stop :: escapeBy isQuoteSpecial more := by
    rw [hsplit, escapeBy_append, escapeBy, if_neg (by simp [hplain])]
  have hone : ∀ c ∈ line, isLineEnd c = false := by simpa using hline
  have hread := literalsFrom_escaped hone stop (by simp [hend]) []
    (escapeBy isQuoteSpecial more ++ '\'' :: rest)
  refine ⟨String.ofList line, fun hfirst => ?_, ?_⟩
  · have hlength := congrArg List.length (hsplit.symm.trans (congrArg String.toList hfirst.symm))
    simp at hlength
  · rw [toList_quote, hescaped, List.cons_append, literalsFrom, if_pos rfl, List.append_assoc,
      List.append_assoc, List.cons_append, List.singleton_append, hread]
    rfl

/-- **Quoted values with separators between them** are read back as a list exactly if each of them
is on one line. -/
theorem literalsFrom_joined_iff {sep : String} (hsep : '\'' ∉ sep.toList) {back : List Char}
    (hback : '\'' ∉ back) (values : List String) :
    literalsFrom none ((String.intercalate sep (values.map quote)).toList ++ back) = values
      ↔ ∀ v ∈ values, OneLine v := by
  have hend : literalsFrom none back = [] := by
    have hskip := literalsFrom_skip hback []
    rw [List.append_nil] at hskip
    exact hskip
  induction values with
  | nil => simpa using hend
  | cons v rest ih =>
    -- Behind the first value come the others, with or without a separator.
    obtain ⟨tail, htext, htail⟩ : ∃ tail,
        (String.intercalate sep ((v :: rest).map quote)).toList ++ back
          = (quote v).toList ++ tail ∧
        literalsFrom none tail
          = literalsFrom none ((String.intercalate sep (rest.map quote)).toList ++ back) := by
      cases rest with
      | nil => exact ⟨back, by simp, by simp⟩
      | cons w rest =>
        refine ⟨sep.toList ++ ((String.intercalate sep ((w :: rest).map quote)).toList ++ back),
          ?_, literalsFrom_skip hsep _⟩
        simp [String.intercalate_cons_cons]
    rw [htext, List.forall_mem_cons]
    by_cases hv : OneLine v
    · rw [literalsFrom_quote hv, htail, List.cons_inj_right]
      exact ih.trans ⟨fun h => ⟨hv, h⟩, And.right⟩
    · obtain ⟨first, hne, hread⟩ := exists_head_literalsFrom hv tail
      refine ⟨fun h => ?_, fun h => absurd h.1 hv⟩
      rw [h] at hread
      exact absurd (Option.some.inj hread).symm hne

/-! ## 2. Regular expressions -/

/-- Where the reader of a regular expression is: in brackets or not, behind a backslash or not. -/
inductive RegexPlace where
  | free
  | escape
  | bracket
  | bracketEscape
deriving DecidableEq, Repr

/-- The place behind one more character.  A bracket inside of brackets opens nothing. -/
def RegexPlace.after : RegexPlace → Char → RegexPlace
  | .free, '\\' => .escape
  | .free, '[' => .bracket
  | .free, _ => .free
  | .escape, _ => .free
  | .bracket, '\\' => .bracketEscape
  | .bracket, ']' => .free
  | .bracket, _ => .bracket
  | .bracketEscape, _ => .bracket

/-- The place behind some characters. -/
def RegexPlace.behind (p : RegexPlace) (cs : List Char) : RegexPlace := cs.foldl RegexPlace.after p

/-- The line of a regular expression ends here. -/
def isRegexLineEnd (c : Char) : Bool :=
  isLineEnd c || c.toNat == 0x2028 || c.toNat == 0x2029

/-- The rest of a literal up to its last slash, and what follows. -/
def regexFrom (p : RegexPlace) : List Char → Option (List Char × List Char)
  | [] => none
  | c :: r =>
    if isRegexLineEnd c then none
    else if p = .free ∧ c = '/' then some ([], r)
    else (regexFrom (p.after c) r).map fun x => (c :: x.1, x.2)

/-- The literal of a regular expression in front: its body, and what follows.  Behind the first
slash another slash or a star would begin a comment. -/
def readRegexChars? : List Char → Option (List Char × List Char)
  | '/' :: c :: r => if c = '/' ∨ c = '*' then none else regexFrom .free (c :: r)
  | _ => none

/-- The literal of a regular expression at the beginning of a text. -/
def readRegex? (text : String) : Option (String × String) :=
  (readRegexChars? text.toList).map fun x => (String.ofList x.1, String.ofList x.2)

/-- Some slash stands neither in brackets nor behind a backslash. -/
def BareSlash (p : RegexPlace) (cs : List Char) : Prop :=
  ∃ before after, cs = before ++ '/' :: after ∧ p.behind before = .free

theorem bareSlash_cons_iff {p : RegexPlace} {c : Char} {cs : List Char} :
    BareSlash p (c :: cs) ↔ (p = .free ∧ c = '/') ∨ BareSlash (p.after c) cs := by
  constructor
  · rintro ⟨before, after, hsplit, hfree⟩
    cases before with
    | nil =>
      obtain ⟨rfl, -⟩ := List.cons.inj hsplit
      exact .inl ⟨hfree, rfl⟩
    | cons d before =>
      obtain ⟨rfl, rfl⟩ := List.cons.inj hsplit
      exact .inr ⟨before, after, rfl, hfree⟩
  · rintro (⟨rfl, rfl⟩ | ⟨before, after, rfl, hfree⟩)
    · exact ⟨[], cs, rfl, rfl⟩
    · exact ⟨c :: before, after, rfl, hfree⟩

/-- **A body between slashes** is read as a whole exactly if its line does not end in it, its
brackets are closed, no backslash stands alone at its end, and no slash in it is bare. -/
theorem regexFrom_iff {p : RegexPlace} {body rest : List Char} :
    regexFrom p (body ++ '/' :: rest) = some (body, rest)
      ↔ (∀ c ∈ body, isRegexLineEnd c = false) ∧ p.behind body = .free ∧ ¬BareSlash p body := by
  induction body generalizing p with
  | nil =>
    have hbare : ¬BareSlash p [] := by
      rintro ⟨before, after, hsplit, -⟩
      simp at hsplit
    have hline : isRegexLineEnd '/' = false := by decide
    by_cases hp : p = .free
    · simp [regexFrom, hline, hp, RegexPlace.behind, hp ▸ hbare]
    · cases hrest : regexFrom (p.after '/') rest <;>
        simp [regexFrom, hline, hp, hrest, RegexPlace.behind]
  | cons c body ih =>
    rw [List.forall_mem_cons, bareSlash_cons_iff, List.cons_append, regexFrom]
    cases hline : isRegexLineEnd c with
    | true => simp
    | false =>
      by_cases hslash : p = .free ∧ c = '/'
      · simp [hslash]
      · have hnext : (p.behind (c :: body)) = (p.after c).behind body := rfl
        rw [if_neg (by simp), if_neg hslash, hnext]
        have hmap : (regexFrom (p.after c) (body ++ '/' :: rest)).map (fun x => (c :: x.1, x.2))
              = some (c :: body, rest)
            ↔ regexFrom (p.after c) (body ++ '/' :: rest) = some (body, rest) := by
          cases regexFrom (p.after c) (body ++ '/' :: rest) <;> simp [Prod.ext_iff]
        rw [hmap, ih]
        simp [hslash]

/-- What every regular expression on one line is like: it is not empty, no star stands in front of
it, its brackets are closed, and no backslash stands alone at its end. -/
structure RegexBody (cs : List Char) : Prop where
  ne_nil : cs ≠ []
  head : cs.head? ≠ some '*'
  oneLine : cs.any isRegexLineEnd = false
  closed : RegexPlace.free.behind cs = .free

/-- A literal with the body between two slashes. -/
def regexLiteral (body : String) : String := "/" ++ body ++ "/"

/-- **A regular expression between slashes** is read as one literal with that body exactly if no
slash in it is bare. -/
theorem readRegexChars?_iff {body : List Char} (h : RegexBody body) (rest : List Char) :
    readRegexChars? ('/' :: (body ++ '/' :: rest)) = some (body, rest)
      ↔ ¬BareSlash .free body := by
  have hline : ∀ c ∈ body, isRegexLineEnd c = false := by simpa using h.oneLine
  have hfrom : regexFrom .free (body ++ '/' :: rest) = some (body, rest)
      ↔ ¬BareSlash .free body :=
    regexFrom_iff.trans ⟨fun hall => hall.2.2, fun hbare => ⟨hline, h.closed, hbare⟩⟩
  obtain ⟨c, r, rfl⟩ := List.exists_cons_of_ne_nil h.ne_nil
  have hstar : c ≠ '*' := fun hc => h.head (congrArg some hc)
  rw [List.cons_append] at hfrom ⊢
  rw [readRegexChars?]
  by_cases hslash : c = '/'
  · rw [if_pos (Or.inl hslash), bareSlash_cons_iff]
    simp [hslash]
  · rw [if_neg (not_or.2 ⟨hslash, hstar⟩), hfrom]

theorem toList_regexLiteral_append (body after : String) :
    (regexLiteral body ++ after).toList = '/' :: (body.toList ++ '/' :: after.toList) := by
  simp [regexLiteral]

theorem readRegex?_eq_some_iff {text body after : String} :
    readRegex? text = some (body, after)
      ↔ readRegexChars? text.toList = some (body.toList, after.toList) := by
  rw [readRegex?]
  cases readRegexChars? text.toList with
  | none => simp
  | some x =>
    simp only [Option.map_some, Option.some.injEq, Prod.ext_iff, ← String.toList_inj,
      String.toList_ofList]

/-- The same for texts. -/
theorem readRegex?_iff {body : String} (h : RegexBody body.toList) (after : String) :
    readRegex? (regexLiteral body ++ after) = some (body, after)
      ↔ ¬BareSlash .free body.toList := by
  rw [← readRegexChars?_iff h after.toList, readRegex?_eq_some_iff, toList_regexLiteral_append]

/-! ## 3. Escaped bodies -/

/-- The reader of a literal takes the characters over into its body, whatever follows them. -/
def PassesOver (cs : List Char) : Prop :=
  ∀ rest, regexFrom .free (cs ++ rest) = (regexFrom .free rest).map fun x => (cs ++ x.1, x.2)

theorem PassesOver.append {a b : List Char} (ha : PassesOver a) (hb : PassesOver b) :
    PassesOver (a ++ b) := by
  intro rest
  rw [List.append_assoc, ha, hb, Option.map_map]
  simp [Function.comp_def]

theorem passesOver_cons {c : Char} {r : List Char} (hline : isRegexLineEnd c = false)
    (hslash : c ≠ '/') (hplace : RegexPlace.free.after c = .free) (hr : PassesOver r) :
    PassesOver (c :: r) := by
  intro rest
  rw [List.cons_append, regexFrom, if_neg (by simp [hline]), if_neg (by simp [hslash]), hplace, hr,
    Option.map_map]
  rfl

theorem passesOver_nil : PassesOver [] := fun rest => by simp

/-- An escaped text on one line is passed over. -/
theorem passesOver_escapeBy {cs : List Char} (h : ∀ c ∈ cs, isRegexLineEnd c = false) :
    PassesOver (escapeBy isRegexSpecial cs) := by
  induction cs with
  | nil => exact passesOver_nil
  | cons c r ih =>
    obtain ⟨hline, hr⟩ := List.forall_mem_cons.1 h
    cases hc : isRegexSpecial c with
    | true =>
      intro rest
      have hescape : escapeBy isRegexSpecial (c :: r)
          = '\\' :: c :: escapeBy isRegexSpecial r := by
        rw [escapeBy, if_pos hc]
      have hback : isRegexLineEnd '\\' = false := by decide
      simp [hescape, regexFrom, hback, hline, RegexPlace.after, ih hr rest, Function.comp_def]
    | false =>
      have hplain (d : Char) (hd : isRegexSpecial d = true) : c ≠ d := by
        rintro rfl
        exact absurd hc (by simp [hd])
      rw [escapeBy, if_neg (by simp [hc])]
      refine passesOver_cons hline (hplain '/' (by decide)) ?_ (ih hr)
      simp [RegexPlace.after, hplain '\\' (by decide), hplain '[' (by decide)]

theorem passesOver_intercalate {parts : List (List Char)} (h : ∀ l ∈ parts, PassesOver l) :
    PassesOver (List.intercalate ['|'] parts) := by
  induction parts with
  | nil => exact passesOver_nil
  | cons v more ih =>
    obtain ⟨hv, hmore⟩ := List.forall_mem_cons.1 h
    cases more with
    | nil => simpa using hv
    | cons w more =>
      have hbar : PassesOver ['|'] := passesOver_cons (by decide) (by decide) rfl passesOver_nil
      rw [List.intercalate_cons_cons]
      exact (hv.append hbar).append (ih hmore)

end SchemaTypes.TypeScript
