/-
# Comments as they are read

A comment in a file ends at the first `*/` behind its beginning, whatever it was meant to hold.  So
it holds what it shows exactly if the terminator is only its last two characters (`ClosedAtEnd`),
and that is the case exactly if no terminator is in what it shows (`closedAtEnd_docComment_iff`).

`CodePlace` is where a reader of TypeScript is: in code, in a comment or in a literal.  What it
finds outside of comments is the code of the text (`CodePlace.outside`), and `codeLines` are the
lines of it that are not blank.  A comment that is closed at its end has none
(`codeLines_comment`), and texts that are read as code to their last line break are read one
after the other (`codeLines_append`).
-/
import Mathlib
import SchemaTypes.TypeScript.Source
import SchemaTypes.Proofs.Text.Path
import SchemaTypes.Proofs.TypeScript.Scanner

namespace SchemaTypes.TypeScript

/-! ## 1. Terminators -/

/-- The terminator of a comment occurs in the characters. -/
def ClosesChars (cs : List Char) : Prop := ['*', '/'] <:+: cs

/-- The terminator of a comment occurs in the text. -/
def Closes (text : String) : Prop := ClosesChars text.toList

instance (cs : List Char) : Decidable (ClosesChars cs) :=
  inferInstanceAs (Decidable (['*', '/'] <:+: cs))

instance (text : String) : Decidable (Closes text) :=
  inferInstanceAs (Decidable (ClosesChars text.toList))

/-- The terminator of the comment is its last two characters, and occurs nowhere else in it. -/
def ClosedAtEnd (comment : String) : Prop :=
  ['*', '/'] <:+ comment.toList ∧ ¬ClosesChars comment.toList.dropLast

theorem pair_infix_cons_iff {a b c : Char} {cs : List Char} :
    [a, b] <:+: c :: cs ↔ (c = a ∧ cs.head? = some b) ∨ [a, b] <:+: cs := by
  have hprefix : [a, b] <+: c :: cs ↔ c = a ∧ cs.head? = some b := by
    cases cs <;> simp [List.cons_prefix_cons, eq_comm]
  rw [List.infix_cons_iff, hprefix]

/-- A character that is none of a pair keeps pairs apart. -/
theorem pair_infix_append_cons_iff {a b x : Char} (ha : x ≠ a) (hb : x ≠ b) (cs ds : List Char) :
    [a, b] <:+: cs ++ x :: ds ↔ [a, b] <:+: cs ∨ [a, b] <:+: ds := by
  induction cs with
  | nil =>
    have hnil : ¬[a, b] <:+: [] := by simp
    simp [pair_infix_cons_iff, ha, hnil]
  | cons c cs ih =>
    have hhead : (cs ++ x :: ds).head? = some b ↔ cs.head? = some b := by
      cases cs <;> simp [hb]
    rw [List.cons_append, pair_infix_cons_iff, hhead, ih, pair_infix_cons_iff, or_assoc]

theorem closesChars_cons_iff {c : Char} {cs : List Char} :
    ClosesChars (c :: cs) ↔ (c = '*' ∧ cs.head? = some '/') ∨ ClosesChars cs :=
  pair_infix_cons_iff

theorem not_closesChars_of_notMem {cs : List Char} (h : '*' ∉ cs) : ¬ClosesChars cs :=
  fun hc => h (hc.subset List.mem_cons_self)

/-- A character that is no part of the terminator keeps terminators apart. -/
theorem closesChars_append_cons_iff {x : Char} (hstar : x ≠ '*') (hslash : x ≠ '/')
    (a b : List Char) : ClosesChars (a ++ x :: b) ↔ ClosesChars a ∨ ClosesChars b :=
  pair_infix_append_cons_iff hstar hslash a b

/-- Blanks behind a text hold no part of a terminator. -/
theorem closesChars_append_blanks_iff {blanks : List Char}
    (h : ∀ c ∈ blanks, Text.isBlank c = true) (a : List Char) :
    ClosesChars (a ++ blanks) ↔ ClosesChars a := by
  cases blanks with
  | nil => rw [List.append_nil]
  | cons b rest =>
    have hne {c : Char} (hc : c ∈ b :: rest) (x : Char) (hx : Text.isBlank x = false) : c ≠ x := by
      rintro rfl
      exact Bool.false_ne_true (hx.symm.trans (h c hc))
    have hrest : '*' ∉ rest := fun hmem =>
      hne (List.mem_cons_of_mem _ hmem) '*' (by decide) rfl
    rw [closesChars_append_cons_iff (hne List.mem_cons_self '*' (by decide))
      (hne List.mem_cons_self '/' (by decide)), or_iff_left (not_closesChars_of_notMem hrest)]

theorem closes_append_space_iff (a b : String) :
    Closes (a ++ " " ++ b) ↔ Closes a ∨ Closes b := by
  have htext : (a ++ " " ++ b).toList = a.toList ++ ' ' :: b.toList := by simp
  rw [Closes, htext, closesChars_append_cons_iff (by decide) (by decide)]
  rfl

/-- A title with a part in parentheses has the terminators of both. -/
theorem closes_titled_iff (title part : String) :
    Closes (title ++ " (" ++ part ++ ")") ↔ Closes title ∨ Closes part := by
  have htext : (title ++ " (" ++ part ++ ")").toList
      = title.toList ++ ' ' :: ([] ++ '(' :: (part.toList ++ ')' :: [])) := by simp
  have hnil : ¬ClosesChars [] := by decide
  rw [Closes, htext, closesChars_append_cons_iff (by decide) (by decide),
    closesChars_append_cons_iff (by decide) (by decide),
    closesChars_append_cons_iff (by decide) (by decide), or_iff_right hnil, or_iff_left hnil]
  rfl

theorem closes_listed_iff (texts : List String) :
    Closes (String.intercalate ", " texts) ↔ ∃ t ∈ texts, Closes t := by
  have hnil : ¬ClosesChars [] := by decide
  induction texts with
  | nil => simpa [Closes] using hnil
  | cons first rest ih =>
    cases rest with
    | nil => simp
    | cons second rest =>
      have htext : (String.intercalate ", " (first :: second :: rest)).toList
          = first.toList ++ ',' :: ([] ++ ' ' ::
              (String.intercalate ", " (second :: rest)).toList) := by
        simp [String.intercalate_cons_cons]
      rw [Closes, htext, closesChars_append_cons_iff (by decide) (by decide),
        closesChars_append_cons_iff (by decide) (by decide), or_iff_right hnil]
      exact (or_congr_right ih).trans (by simp [Closes])

/-- What is dropped from the end of a text are blanks. -/
theorem exists_toList_trimEnd (s : String) :
    ∃ blanks, (∀ c ∈ blanks, Text.isBlank c = true) ∧
      s.toList = (trimEnd s).toList ++ blanks := by
  refine ⟨(s.toList.reverse.takeWhile Text.isBlank).reverse, fun c hc => ?_, ?_⟩
  · exact List.mem_takeWhile_imp (List.mem_reverse.1 hc)
  · rw [trimEnd, String.toList_ofList, ← List.reverse_append, List.takeWhile_append_dropWhile,
      List.reverse_reverse]

/-- What a comment of one line has between its beginning and its end. -/
def commentBody (shown : String) (block : Bool) : String :=
  if block then "*\n" ++ trimEnd (" * " ++ shown) ++ "\n" else "* " ++ shown

theorem docComment_eq (shown : String) (block : Bool) :
    docComment [shown] "" block = "/*" ++ commentBody shown block ++ " */" := by
  rw [← String.toList_inj]
  cases block <;> simp [docComment, commentBody]

/-- The body of a comment has the terminators of what it shows. -/
theorem closes_commentBody_iff (shown : String) (block : Bool) :
    Closes (commentBody shown block) ↔ Closes shown := by
  have hline : ClosesChars (" * ".toList ++ shown.toList) ↔ ClosesChars shown.toList := by
    have hfront : ¬ClosesChars [' ', '*'] := by decide
    exact (closesChars_append_cons_iff (by decide) (by decide) [' ', '*'] _).trans
      (or_iff_right hfront)
  have hstar : ¬ClosesChars ['*'] := by decide
  have hnil : ¬ClosesChars [] := by decide
  cases block with
  | false =>
    have hbody : (commentBody shown false).toList = ['*'] ++ ' ' :: shown.toList := by
      simp [commentBody]
    rw [Closes, hbody, closesChars_append_cons_iff (by decide) (by decide), or_iff_right hstar]
    exact Iff.rfl
  | true =>
    obtain ⟨blanks, hblanks, htrim⟩ := exists_toList_trimEnd (" * " ++ shown)
    have hbody : (commentBody shown true).toList
        = ['*'] ++ '\n' :: ((trimEnd (" * " ++ shown)).toList ++ '\n' :: []) := by
      simp [commentBody]
    rw [Closes, hbody, closesChars_append_cons_iff (by decide) (by decide), or_iff_right hstar,
      closesChars_append_cons_iff (by decide) (by decide), or_iff_left hnil,
      ← closesChars_append_blanks_iff hblanks, ← htrim, String.toList_append, hline]
    exact Iff.rfl

/-- **A comment is closed at its end** exactly if no terminator is in what it shows. -/
theorem closedAtEnd_docComment_iff (shown : String) (block : Bool) :
    ClosedAtEnd (docComment [shown] "" block) ↔ ¬Closes shown := by
  obtain ⟨rest, hrest⟩ : ∃ rest, (commentBody shown block).toList = '*' :: rest := by
    cases block <;> exact ⟨_, by simp [commentBody]; rfl⟩
  have hbody : Closes shown ↔ ClosesChars ('*' :: rest) := by
    rw [← closes_commentBody_iff shown block, Closes, hrest]
  have hfront : (docComment [shown] "" block).toList
      = '/' :: '*' :: ('*' :: rest ++ [' ', '*']) ++ ['/'] := by
    simp [docComment_eq, hrest]
  have hend : (docComment [shown] "" block).toList
      = '/' :: '*' :: ('*' :: rest ++ [' ']) ++ ['*', '/'] := by
    simp [docComment_eq, hrest]
  have hstar : ¬ClosesChars ['*'] := by decide
  rw [ClosedAtEnd, and_iff_right (hend ▸ List.suffix_append _ _), hfront, List.dropLast_concat,
    closesChars_cons_iff, closesChars_cons_iff, hbody,
    closesChars_append_cons_iff (by decide) (by decide), or_iff_left hstar]
  simp

/-! ## 2. Text outside of comments -/

/-- What begins a literal and ends it. -/
inductive Mark where
  | single
  | double
  | backtick
deriving DecidableEq, Repr

/-- The character of a mark. -/
def Mark.char : Mark → Char
  | .single => '\''
  | .double => '"'
  | .backtick => '`'

/-- The mark that a character is. -/
def Mark.ofChar? (c : Char) : Option Mark := [single, double, backtick].find? (·.char = c)

theorem Mark.char_of_ofChar? {c : Char} {mark : Mark} (h : ofChar? c = some mark) :
    mark.char = c := by
  simpa using List.find?_some h

/-- Where the reader of a text is. -/
inductive CodePlace where
  | code
  | slash
  | line
  | block
  | star
  | literal (mark : Mark)
  | escape (mark : Mark)
deriving DecidableEq, Repr

namespace CodePlace

/-- The place behind a character of code. -/
def behindCode (c : Char) : CodePlace :=
  if c = '/' then .slash
  else
    match Mark.ofChar? c with
    | some mark => .literal mark
    | none => .code

/-- The place behind one more character.  A slash may begin a comment; a literal ends at its mark,
or at the end of the line unless its mark is a backtick. -/
def after : CodePlace → Char → CodePlace
  | .code, c => behindCode c
  | .slash, c => if c = '*' then .block else if c = '/' then .line else behindCode c
  | .line, c => if isRegexLineEnd c then .code else .line
  | .block, c => if c = '*' then .star else .block
  | .star, c => if c = '/' then .code else if c = '*' then .star else .block
  | .literal mark, c =>
    if c = '\\' then .escape mark
    else if c = mark.char || (isLineEnd c && mark != .backtick) then .code
    else .literal mark
  | .escape mark, _ => .literal mark

/-- The characters that are outside of comments for certain when one more is read. -/
def shows : CodePlace → Char → List Char
  | .code, c => if c = '/' then [] else [c]
  | .slash, c => if c = '*' || c = '/' then [] else ['/', c]
  | .line, c => if isRegexLineEnd c then [c] else []
  | .block, _ | .star, _ => []
  | .literal _, c | .escape _, c => [c]

/-- The place behind some characters. -/
def behind (p : CodePlace) (cs : List Char) : CodePlace := cs.foldl after p

/-- What is outside of comments, read from a place. -/
def outside (p : CodePlace) : List Char → List Char
  | [] => if p = .slash then ['/'] else []
  | c :: r => p.shows c ++ outside (p.after c) r

@[simp] theorem behind_nil (p : CodePlace) : p.behind [] = p := rfl

@[simp] theorem behind_cons (p : CodePlace) (c : Char) (cs : List Char) :
    p.behind (c :: cs) = (p.after c).behind cs := rfl

theorem behind_append (p : CodePlace) (a b : List Char) :
    p.behind (a ++ b) = (p.behind a).behind b := List.foldl_append

/-- Texts are read one after the other, unless a comment may begin between them. -/
theorem outside_append {p : CodePlace} {a : List Char} (h : p.behind a ≠ .slash) (b : List Char) :
    p.outside (a ++ b) = p.outside a ++ (p.behind a).outside b := by
  induction a generalizing p with
  | nil => simp [outside, show p ≠ .slash from h]
  | cons c a ih =>
    rw [List.cons_append, outside, outside, ih h, behind_cons, List.append_assoc]

/-- A text that is read as code to its last line break shows what it shows without it. -/
theorem outside_concat {p : CodePlace} {a : List Char} (h : p.behind (a ++ ['\n']) = .code) :
    p.outside (a ++ ['\n']) = p.outside a ++ ['\n'] := by
  induction a generalizing p with
  | nil =>
    have hafter : p.after '\n' = .code := h
    have hshows : p.shows '\n' = (if p = .slash then ['/'] else []) ++ ['\n'] := by
      cases p with
      | block | star => exact nomatch hafter
      | code | slash | line | literal | escape => rfl
    simp [outside, hafter, hshows]
  | cons c a ih => rw [List.cons_append, outside, outside, ih h, List.append_assoc]

/-- The reader stays in the comment and finds nothing outside of it. -/
def Stays (p : CodePlace) (cs : List Char) : Prop :=
  (p.behind cs = .block ∨ p.behind cs = .star) ∧ p.outside cs = []

theorem Stays.cons {p q : CodePlace} {c : Char} {cs : List Char} (hafter : p.after c = q)
    (hshows : p.shows c = []) (h : q.Stays cs) : p.Stays (c :: cs) := by
  rw [Stays, behind_cons, outside, hafter, hshows]
  exact h

/-- **In a comment** the reader stays up to the terminator, which may be half read. -/
theorem stays_of_not_closes {cs : List Char} :
    (¬ClosesChars cs → CodePlace.block.Stays cs) ∧
      (¬ClosesChars ('*' :: cs) → CodePlace.star.Stays cs) := by
  induction cs with
  | nil => exact ⟨fun _ => ⟨.inl rfl, rfl⟩, fun _ => ⟨.inr rfl, rfl⟩⟩
  | cons c cs ih =>
    obtain ⟨ihblock, ihstar⟩ := ih
    constructor
    · intro h
      by_cases hstar : c = '*'
      · exact .cons (by simp [after, hstar]) rfl (ihstar (hstar ▸ h))
      · have hrest : ¬ClosesChars cs := fun hc => h (closesChars_cons_iff.2 (.inr hc))
        exact .cons (by simp [after, hstar]) rfl (ihblock hrest)
    · intro h
      have hslash : c ≠ '/' := fun hc => h (closesChars_cons_iff.2 (.inl ⟨rfl, by simp [hc]⟩))
      have hrest : ¬ClosesChars (c :: cs) := fun hc => h (closesChars_cons_iff.2 (.inr hc))
      by_cases hstar : c = '*'
      · exact .cons (by simp [after, hstar]) rfl (ihstar (hstar ▸ hrest))
      · have hrest : ¬ClosesChars cs := fun hc => hrest (closesChars_cons_iff.2 (.inr hc))
        exact .cons (by simp [after, hslash, hstar]) rfl (ihblock hrest)

/-- **A comment** without a terminator in what it shows is read to its end, and nothing in it is
outside of it. -/
theorem read_docComment {shown : String} (h : ¬Closes shown) (block : Bool) :
    CodePlace.code.behind (docComment [shown] "" block).toList = .code ∧
      CodePlace.code.outside (docComment [shown] "" block).toList = [] := by
  have hbody : ¬ClosesChars ((commentBody shown block).toList ++ [' ']) := by
    rw [closesChars_append_blanks_iff (by simp; decide)]
    exact fun hc => h ((closes_commentBody_iff shown block).1 hc)
  obtain ⟨hplace, hnone⟩ := stays_of_not_closes.1 hbody
  have htext : (docComment [shown] "" block).toList
      = '/' :: '*' :: ((commentBody shown block).toList ++ [' '] ++ ['*', '/']) := by
    rw [docComment_eq]
    simp
  have hslash : CodePlace.block.behind ((commentBody shown block).toList ++ [' ']) ≠ .slash := by
    rcases hplace with hplace | hplace <;> rw [hplace] <;> decide
  have hfront (cs : List Char) :
      CodePlace.code.behind ('/' :: '*' :: cs) = CodePlace.block.behind cs
      ∧ CodePlace.code.outside ('/' :: '*' :: cs) = CodePlace.block.outside cs := ⟨rfl, rfl⟩
  rw [htext, (hfront _).1, (hfront _).2, behind_append, outside_append hslash, hnone]
  rcases hplace with hplace | hplace <;> rw [hplace] <;> decide

/-- Blanks in front of a text are outside of comments. -/
theorem read_spaces (n : Nat) (cs : List Char) :
    CodePlace.code.behind (List.replicate n ' ' ++ cs) = CodePlace.code.behind cs ∧
      CodePlace.code.outside (List.replicate n ' ' ++ cs)
        = List.replicate n ' ' ++ CodePlace.code.outside cs := by
  induction n with
  | zero => exact ⟨rfl, rfl⟩
  | succ n ih =>
    have hspace : CodePlace.code.after ' ' = .code ∧ CodePlace.code.shows ' ' = [' '] := by decide
    rw [List.replicate_succ, List.cons_append, behind_cons, outside, hspace.1, hspace.2, ih.1, ih.2]
    exact ⟨rfl, rfl⟩

end CodePlace

/-! ## 3. Lines of code -/

/-- The lines of a text outside of its comments that are not blank. -/
def codeLines (text : String) : List (List Char) :=
  (Text.splitOn '\n' (CodePlace.code.outside text.toList)).filter (·.any (!Text.isBlank ·))

/-- The text and the line break behind it are read as code to their end. -/
def Returns (text : String) : Prop := CodePlace.code.behind (text.toList ++ ['\n']) = .code

instance (text : String) : Decidable (Returns text) :=
  inferInstanceAs (Decidable (_ = CodePlace.code))

/-- **Lines are read one after the other** where no comment or literal goes on. -/
theorem codeLines_append {a : String} (h : Returns a) (b : String) :
    codeLines (a ++ "\n" ++ b) = codeLines a ++ codeLines b := by
  have hcode : CodePlace.code.behind (a.toList ++ ['\n']) ≠ .slash := by
    rw [h]
    decide
  have houtside : CodePlace.code.outside (a ++ "\n" ++ b).toList
      = CodePlace.code.outside a.toList ++ '\n' :: CodePlace.code.outside b.toList := by
    have htext : (a ++ "\n" ++ b).toList = (a.toList ++ ['\n']) ++ b.toList := by simp
    rw [htext, CodePlace.outside_append hcode, CodePlace.outside_concat h, h, List.append_assoc]
    rfl
  rw [codeLines, houtside, Text.splitOn_append_sep, List.filter_append]
  rfl

/-- The characters begin no comment, and no literal that goes on behind its line. -/
def Plain (cs : List Char) : Prop := ¬['/', '*'] <:+: cs ∧ '`' ∉ cs

instance (cs : List Char) : Decidable (Plain cs) :=
  inferInstanceAs (Decidable (_ ∧ _))

/-- The reader is neither in a comment of several lines nor in a literal of several lines. -/
def CodePlace.OnLine : CodePlace → Prop
  | .block | .star => False
  | .literal mark | .escape mark => mark ≠ .backtick
  | .code | .slash | .line => True

/-- Behind a character of code only a slash may begin a comment. -/
theorem CodePlace.onLine_behindCode {c : Char} (hc : c ≠ '`') :
    (behindCode c).OnLine ∧ (behindCode c = .slash → c = '/') := by
  unfold behindCode
  split
  · rename_i hslash
    exact ⟨trivial, fun _ => hslash⟩
  · cases hmark : Mark.ofChar? c with
    | none => exact ⟨trivial, nofun⟩
    | some mark =>
      refine ⟨?_, nofun⟩
      rintro rfl
      exact hc (Mark.char_of_ofChar? hmark).symm

/-- One plain character leaves the reader on its line, and behind a slash if it is one. -/
theorem CodePlace.onLine_after {p : CodePlace} {c : Char} (hp : p.OnLine) (hc : c ≠ '`')
    (hstar : p = .slash → c ≠ '*') : (p.after c).OnLine ∧ (p.after c = .slash → c = '/') := by
  cases p with
  | block | star => exact hp.elim
  | code => exact onLine_behindCode hc
  | slash =>
    simp only [after, if_neg (hstar rfl)]
    split
    · exact ⟨trivial, nofun⟩
    · exact onLine_behindCode hc
  | line =>
    simp only [after]
    split <;> exact ⟨trivial, nofun⟩
  | literal mark =>
    simp only [after]
    split
    · exact ⟨hp, nofun⟩
    · split
      · exact ⟨trivial, nofun⟩
      · exact ⟨hp, nofun⟩
  | escape mark => exact ⟨hp, nofun⟩

/-- **Plain characters** leave the reader on its line. -/
theorem CodePlace.onLine_behind {p : CodePlace} {cs : List Char} (hp : p.OnLine) (h : Plain cs)
    (hstar : p = .slash → cs.head? ≠ some '*') : (p.behind cs).OnLine := by
  induction cs generalizing p with
  | nil => exact hp
  | cons c cs ih =>
    obtain ⟨hopen, htick⟩ := h
    rw [pair_infix_cons_iff, not_or] at hopen
    rw [List.mem_cons, not_or] at htick
    obtain ⟨hafter, hslash⟩ := onLine_after hp (Ne.symm htick.1) fun hplace hc =>
      hstar hplace (congrArg some hc)
    exact ih hafter ⟨hopen.2, htick.2⟩ fun hplace hhead => hopen.1 ⟨hslash hplace, hhead⟩

/-- The end of a line ends whatever goes on only to there. -/
theorem CodePlace.after_lineEnd {p : CodePlace} (hp : p.OnLine)
    (hescape : ∀ mark, p ≠ .escape mark) :
    p.after '\n' = .code := by
  cases p with
  | block | star => exact hp.elim
  | code | slash | line => decide
  | literal mark =>
    have hmark : (mark != .backtick) = true := bne_iff_ne.2 hp
    simp [after, hmark, isLineEnd]
  | escape mark => exact absurd rfl (hescape mark)

/-- Only a backslash escapes what follows. -/
theorem CodePlace.after_ne_escape {p : CodePlace} {c : Char} (hc : c ≠ '\\') (mark : Mark) :
    p.after c ≠ .escape mark := by
  cases p <;> grind [after, behindCode]

/-- **A plain line** is read as code to its end, unless it ends with a star or a backslash. -/
theorem returns_of_plain {text : String} {cs : List Char} {stop : Char}
    (htext : text.toList = cs ++ [stop]) (h : Plain cs)
    (hstop : stop ≠ '*' ∧ stop ≠ '`' ∧ stop ≠ '\\') : Returns text := by
  obtain ⟨hstar, htick, hback⟩ := hstop
  have hfront : (CodePlace.code.behind cs).OnLine := CodePlace.onLine_behind trivial h nofun
  have hline := (CodePlace.onLine_after hfront htick fun _ => hstar).1
  rw [Returns, htext, CodePlace.behind_append, CodePlace.behind_append]
  exact CodePlace.after_lineEnd hline (CodePlace.after_ne_escape hback)

theorem plain_append_cons_iff {x : Char} (hslash : x ≠ '/') (hstar : x ≠ '*') (htick : x ≠ '`')
    (a b : List Char) : Plain (a ++ x :: b) ↔ Plain a ∧ Plain b := by
  rw [Plain, pair_infix_append_cons_iff hslash hstar, Plain, Plain]
  simp [Ne.symm htick]
  tauto

theorem Returns.append {a b : String} (ha : Returns a) (hb : Returns b) :
    Returns (a ++ "\n" ++ b) := by
  have htext : (a ++ "\n" ++ b).toList ++ ['\n']
      = (a.toList ++ ['\n']) ++ (b.toList ++ ['\n']) := by simp
  rw [Returns, htext, CodePlace.behind_append, ha]
  exact hb

/-- Lines with line breaks between them. -/
theorem codeLines_intercalate {texts : List String} (h : ∀ t ∈ texts, Returns t) :
    Returns (String.intercalate "\n" texts) ∧
      codeLines (String.intercalate "\n" texts) = texts.flatMap codeLines := by
  induction texts with
  | nil => exact ⟨by decide, by decide⟩
  | cons first rest ih =>
    obtain ⟨hfirst, hrest⟩ := List.forall_mem_cons.1 h
    cases rest with
    | nil => simpa using hfirst
    | cons second rest =>
      obtain ⟨hreturns, hlines⟩ := ih hrest
      rw [String.intercalate_cons_cons]
      exact ⟨hfirst.append hreturns, by rw [codeLines_append hfirst, hlines]; rfl⟩

/-- **A comment has no code** if no terminator is in what it shows, whether it is indented or
not. -/
theorem codeLines_docComment {shown : String} (h : ¬Closes shown) (block : Bool) (n : Nat) :
    Returns (String.ofList (List.replicate n ' ') ++ docComment [shown] "" block) ∧
      codeLines (String.ofList (List.replicate n ' ') ++ docComment [shown] "" block) = [] := by
  obtain ⟨hbehind, houtside⟩ := CodePlace.read_docComment h block
  have hspaces := CodePlace.read_spaces n (docComment [shown] "" block).toList
  refine ⟨?_, ?_⟩
  · rw [Returns, CodePlace.behind_append, String.toList_append, String.toList_ofList, hspaces.1,
      hbehind]
    decide
  · have hline : '\n' ∉ List.replicate n ' ' := fun hmem =>
      absurd (List.eq_of_mem_replicate hmem) (by decide)
    have hspace : Text.isBlank ' ' = true := by decide
    have hblank : (List.replicate n ' ').any (!Text.isBlank ·) = false := by simp [hspace]
    rw [codeLines, String.toList_append, String.toList_ofList, hspaces.2, houtside,
      List.append_nil, Text.splitOn_of_not_mem hline, List.filter_cons_of_neg (by simp [hblank])]
    rfl

end SchemaTypes.TypeScript
