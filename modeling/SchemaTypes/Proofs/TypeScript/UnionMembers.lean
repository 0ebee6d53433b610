/-
# Members of union types

`unionMembers` reads a type as a union: its members stand between the bars that are outside of
brackets and literals.  Taking the text ` | null` out of a type wherever it stands
(`Interface.dropNull`) is meant to take out the members `null`.  A bar of a type may begin such a
member, and it may stand in such a text (`Bar`); if every bar does both or neither and the first
member is another (`PlainNulls`), exactly the null members go, and if only one of the two conditions
holds they do not (`unionMembers_dropNull`).

The proof of the one direction goes along the replacement.  That of the other counts: each text that
is taken out has five characters that are not blank, and so have a null member and its bar.
-/
import Mathlib
import SchemaTypes.Interface
import SchemaTypes.Proofs.Text.Replace
import SchemaTypes.Proofs.Text.Trim
import SchemaTypes.Proofs.TypeScript.Comments

namespace SchemaTypes.TypeScript

open Text (Blank)

/-! ## 1. Members of unions -/

/-- Where the reader of a type is: in some number of brackets, in a literal in them, or behind the
arrow or the question mark of a type that goes on to the end. -/
inductive TypePlace where
  | free (depth : Nat)
  | literal (mark : Mark) (depth : Nat)
  | escape (mark : Mark) (depth : Nat)
  | rest
deriving DecidableEq, Repr

namespace TypePlace

/-- Outside of brackets and literals. -/
def top : TypePlace := .free 0

/-- The place behind a character that is in no literal.  An equals sign and the angle bracket behind
it are an arrow. -/
def behindFree (depth : Nat) (c : Char) : TypePlace :=
  if "([\x7b<".toList.contains c then .free (depth + 1)
  else if ")]\x7d>".toList.contains c then .free (depth - 1)
  else if c = '=' then (if depth = 0 then .rest else .free (depth + 1))
  else if c = '?' ∧ depth = 0 then .rest
  else
    match Mark.ofChar? c with
    | some mark => .literal mark depth
    | none => .free depth

/-- The place behind one more character. -/
def after : TypePlace → Char → TypePlace
  | .free depth, c => behindFree depth c
  | .literal mark depth, c =>
    if c = '\\' then .escape mark depth
    else if c = mark.char then .free depth
    else .literal mark depth
  | .escape mark depth, _ => .literal mark depth
  | .rest, _ => .rest

end TypePlace

/-- The character is a bar between members. -/
def isBar (p : TypePlace) (c : Char) : Bool := p == .top && c == '|'

/-- The characters up to the next bar between members. -/
def headMember (p : TypePlace) : List Char → List Char
  | [] => []
  | c :: r => if isBar p c then [] else c :: headMember (p.after c) r

/-- The characters between the bars behind. -/
def laterMembers (p : TypePlace) : List Char → List (List Char)
  | [] => []
  | c :: r =>
    if isBar p c then headMember (p.after c) r :: laterMembers (p.after c) r
    else laterMembers (p.after c) r

/-- The members of characters read from a place. -/
def membersFrom (p : TypePlace) (cs : List Char) : List (List Char) :=
  (headMember p cs :: laterMembers p cs).map Text.trim

/-- The members of a type, without the blanks around them. -/
def unionMembers (type : String) : List String :=
  (membersFrom .top type.toList).map String.ofList

/-! ## 2. Bars -/

/-- What is taken out of types. -/
def nullText : List Char := " | null".toList

/-- The member is `null`. -/
def isNull (member : List Char) : Bool := Text.trim member == "null".toList

/-- What a bar is: whether a null member begins behind it, and whether it stands in a ` | null`. -/
structure Bar where
  member : Bool
  written : Bool
deriving DecidableEq, Repr

/-- The bars of characters read from a place, behind some character. -/
def barsFrom (prev : Option Char) (p : TypePlace) : List Char → List Bar
  | [] => []
  | c :: r =>
    (if c = '|' then
        [⟨p == .top && isNull (headMember (p.after c) r),
          prev == some ' ' && " null".toList.isPrefixOf r⟩]
      else [])
      ++ barsFrom (some c) (p.after c) r

/-- The bars of a type. -/
def bars (type : String) : List Bar := barsFrom none .top type.toList

/-- Every ` | null` of the type is a null member. -/
def NoStrays (type : String) : Prop := ∀ b ∈ bars type, b.written = true → b.member = true

/-- Every null member of the type is written ` | null`, behind another member. -/
def AllWritten (type : String) : Prop :=
  isNull (headMember .top type.toList) = false ∧ ∀ b ∈ bars type, b.member = true → b.written = true

/-- The first member of the type is another, and each of its bars begins a null member exactly if
it stands in a ` | null`. -/
structure PlainNulls (type : String) : Prop where
  first : isNull (headMember .top type.toList) = false
  bars : ∀ b ∈ bars type, b.member = b.written

theorem plainNulls_iff {type : String} : PlainNulls type ↔ AllWritten type ∧ NoStrays type := by
  constructor
  · exact fun h => ⟨⟨h.first, fun b hb hm => h.bars b hb ▸ hm⟩, fun b hb hw => h.bars b hb ▸ hw⟩
  · exact fun ⟨hwritten, hstrays⟩ => ⟨hwritten.1, fun b hb =>
      Bool.eq_iff_iff.2 ⟨hwritten.2 b hb, hstrays b hb⟩⟩

instance (type : String) : Decidable (NoStrays type) :=
  inferInstanceAs (Decidable (∀ b ∈ bars type, b.written = true → b.member = true))

instance (type : String) : Decidable (AllWritten type) := inferInstanceAs (Decidable (_ ∧ _))

instance (type : String) : Decidable (PlainNulls type) := decidable_of_iff _ plainNulls_iff.symm

/-! ## 3. Blanks at the ends -/

/-- The characters agree up to blanks at their ends. -/
def SameFront (a b : List Char) : Prop :=
  ∃ core x y, Blank x ∧ Blank y ∧ a = core ++ x ∧ b = core ++ y

/-- How many of the characters are not blank. -/
def weight (cs : List Char) : Nat := cs.countP (!Text.isBlank ·)

theorem weight_eq_zero_iff {cs : List Char} : weight cs = 0 ↔ Blank cs := by
  simp [weight, Blank]

theorem weight_append (a b : List Char) : weight (a ++ b) = weight a + weight b :=
  List.countP_append

theorem weight_dropWhile (cs : List Char) : weight (cs.dropWhile Text.isBlank) = weight cs := by
  induction cs with
  | nil => rfl
  | cons c r ih =>
    by_cases hc : Text.isBlank c = true
    · rw [List.dropWhile_cons_of_pos hc, ih, weight, weight, List.countP_cons_of_neg (by simp [hc])]
    · rw [List.dropWhile_cons_of_neg hc]

/-- Trimming drops blanks alone. -/
theorem weight_trim (cs : List Char) : weight (Text.trim cs) = weight cs := by
  have hreverse (l : List Char) : weight l.reverse = weight l := List.countP_reverse
  rw [Text.trim, Text.trimBy, hreverse, weight_dropWhile, hreverse, weight_dropWhile]

theorem SameFront.trim_eq {a b : List Char} (h : SameFront a b) : Text.trim a = Text.trim b := by
  obtain ⟨core, x, y, hx, hy, rfl, rfl⟩ := h
  rw [Text.trim_append_blank hx, Text.trim_append_blank hy]

theorem SameFront.cons {a b : List Char} (h : SameFront a b) (c : Char) :
    SameFront (c :: a) (c :: b) := by
  obtain ⟨core, x, y, hx, hy, rfl, rfl⟩ := h
  exact ⟨c :: core, x, y, hx, hy, rfl, rfl⟩

/-- Blanks agree with nothing but blanks. -/
theorem SameFront.blank {a b c : List Char} (h : SameFront a b) (hb : Blank b) (hc : Blank c) :
    SameFront a c := by
  obtain ⟨core, x, y, hx, -, rfl, rfl⟩ := h
  have hcore : Blank core := fun d hd => hb d (List.mem_append_left _ hd)
  refine ⟨[], core ++ x, c, fun d hd => ?_, hc, rfl, rfl⟩
  rcases List.mem_append.1 hd with hd | hd
  · exact hcore d hd
  · exact hx d hd

/-- Behind `null` only blanks leave the member a null member. -/
theorem isNull_append_iff (more : List Char) :
    isNull (" null".toList ++ more) = true ↔ Blank more := by
  have hnull : Text.trim " null".toList = "null".toList := by decide
  rw [isNull, beq_iff_eq]
  constructor
  · intro h
    have hweight := congrArg weight h
    rw [weight_trim, weight_append] at hweight
    have hfour : weight " null".toList = 4 ∧ weight "null".toList = 4 := by decide
    exact weight_eq_zero_iff.1 (by omega)
  · intro h
    rw [Text.trim_append_blank h, hnull]

/-! ## 4. Along the replacement -/

theorem TypePlace.after_blank_eq_top_iff {p : TypePlace} : p.after ' ' = .top ↔ p = .top := by
  cases p with
  | free depth => exact Iff.rfl
  | literal mark depth =>
    cases mark <;> exact ⟨nofun, nofun⟩
  | escape | rest => exact ⟨nofun, nofun⟩

/-- A text that is taken out has one bar. -/
theorem barsFrom_nullText (prev : Option Char) (p : TypePlace) (rest : List Char) :
    ∃ q, barsFrom prev p (nullText ++ rest)
        = ⟨p == .top && isNull (" null".toList ++ headMember .top rest), true⟩
          :: barsFrom (some 'l') q rest ∧ (p = .top → q = .top) := by
  have htext : nullText ++ rest = ' ' :: '|' :: ' ' :: 'n' :: 'u' :: 'l' :: 'l' :: rest := rfl
  rw [htext]
  refine ⟨(((((((p.after ' ').after '|').after ' ').after 'n').after 'u').after 'l').after 'l'),
    ?_, ?_⟩
  · by_cases hp : p = .top
    · subst hp
      rfl
    · have hafter : (p.after ' ' == .top) = false :=
        beq_eq_false_iff_ne.2 fun h => hp (TypePlace.after_blank_eq_top_iff.1 h)
      have hbefore : (p == .top) = false := beq_eq_false_iff_ne.2 hp
      simp [barsFrom, hafter, hbefore]
  · rintro rfl
    decide

/-- Read from the top it begins a member. -/
theorem members_nullText (rest : List Char) :
    headMember .top (nullText ++ rest) = [' '] ∧
      laterMembers .top (nullText ++ rest)
        = (" null".toList ++ headMember .top rest) :: laterMembers .top rest :=
  ⟨rfl, rfl⟩

/-- The characters without the texts ` | null`. -/
def withoutNullText (cs : List Char) : List Char := Text.replaceAll nullText [] cs

/-- The reader does not stand inside of a ` | null`. -/
def Outside (prev : Option Char) (cs : List Char) : Prop :=
  ¬(prev = some ' ' ∧ "| null".toList <+: cs)

/-- Going on past a kept character does not lead into a ` | null`. -/
theorem outside_cons {c : Char} {r : List Char} (h : ¬nullText <+: c :: r) :
    Outside (some c) r := by
  rintro ⟨hc, hr⟩
  refine h ?_
  rw [Option.some.inj hc]
  exact List.cons_prefix_cons.2 ⟨rfl, hr⟩

/-- A kept bar is not that of a ` | null`. -/
theorem written_eq_false {prev : Option Char} {r : List Char} (h : Outside prev ('|' :: r)) :
    (prev == some ' ' && " null".toList.isPrefixOf r) = false := by
  rw [Bool.and_eq_false_iff, beq_eq_false_iff_ne]
  by_cases hprev : prev = some ' '
  · refine .inr (Bool.eq_false_iff.2 fun hr => h ⟨hprev, ?_⟩)
    exact List.cons_prefix_cons.2 ⟨rfl, List.isPrefixOf_iff_prefix.1 hr⟩
  · exact .inl hprev

/-- **Along the replacement**: if each bar begins a null member exactly if it stands in a ` | null`,
the members are the same, up to blanks, without the null members. -/
theorem members_withoutNullText (cs : List Char) :
    ∀ prev p, Outside prev cs → (∀ b ∈ barsFrom prev p cs, b.member = b.written) →
      SameFront (headMember p (withoutNullText cs)) (headMember p cs) ∧
        (laterMembers p (withoutNullText cs)).map Text.trim
          = ((laterMembers p cs).map Text.trim).filter (· != "null".toList) := by
  have hne : nullText ≠ [] := by decide
  induction cs using Text.replaceAll_induction hne with
  | nil =>
    intro prev p _ _
    have hnil : withoutNullText [] = [] := Text.replaceAll_nil _ _
    rw [hnil]
    exact ⟨⟨[], [], [], nofun, nofun, rfl, rfl⟩, rfl⟩
  | found rest ih =>
    intro prev p _ hbars
    obtain ⟨q, hq, htop⟩ := barsFrom_nullText prev p rest
    rw [hq, List.forall_mem_cons] at hbars
    obtain ⟨hp, hnull⟩ := Bool.and_eq_true_iff.1 hbars.1
    obtain rfl := beq_iff_eq.1 hp
    obtain rfl := htop rfl
    obtain ⟨hhead, hlater⟩ := ih _ _ (by simp [Outside]) hbars.2
    have hwithout : withoutNullText (nullText ++ rest) = withoutNullText rest :=
      Text.replaceAll_append hne rest
    have htrim : Text.trim (" null".toList ++ headMember .top rest) = "null".toList :=
      beq_iff_eq.1 hnull
    rw [hwithout, (members_nullText rest).1, (members_nullText rest).2, List.map_cons, htrim,
      List.filter_cons_of_neg (by simp)]
    exact ⟨hhead.blank ((isNull_append_iff _).1 hnull) Text.blank_space, hlater⟩
  | kept c r hkept ih =>
    intro prev p hout hbars
    have hwithout : withoutNullText (c :: r) = c :: withoutNullText r :=
      Text.replaceAll_cons_of_not hkept
    rw [barsFrom, List.forall_mem_append] at hbars
    obtain ⟨hhead, hlater⟩ := ih _ _ (outside_cons hkept) hbars.2
    rw [hwithout, headMember, headMember, laterMembers, laterMembers]
    by_cases hbar : isBar p c = true
    · -- the bar stands in no text that is taken out, so no null member begins behind it
      obtain ⟨hp, hc⟩ := Bool.and_eq_true_iff.1 hbar
      obtain rfl := beq_iff_eq.1 hc
      have hmember := hbars.1 _ (by rw [if_pos rfl]; exact List.mem_singleton_self _)
      rw [written_eq_false hout, hp, Bool.true_and] at hmember
      have hkeep : Text.trim (headMember (p.after '|') r) ≠ "null".toList :=
        beq_eq_false_iff_ne.1 hmember
      rw [if_pos hbar, if_pos hbar, if_pos hbar, if_pos hbar, List.map_cons, List.map_cons,
        List.filter_cons_of_pos (p := (· != "null".toList)) (bne_iff_ne.2 hkeep), hlater,
        hhead.trim_eq]
      exact ⟨⟨[], [], [], nofun, nofun, rfl, rfl⟩, rfl⟩
    · rw [if_neg hbar, if_neg hbar, if_neg hbar, if_neg hbar]
      exact ⟨hhead.cons c, hlater⟩

/-! ## 5. Counting -/

theorem weight_cons (c : Char) (r : List Char) : weight (c :: r) = weight [c] + weight r :=
  weight_append [c] r

/-- The characters that are not blank are those of the members and the bars between them. -/
theorem weight_eq_members (p : TypePlace) (cs : List Char) :
    weight cs = ((membersFrom p cs).map weight).sum + (laterMembers p cs).length := by
  have hpieces : weight cs
      = weight (headMember p cs) + ((laterMembers p cs).map weight).sum
        + (laterMembers p cs).length := by
    induction cs generalizing p with
    | nil => rfl
    | cons c r ih =>
      rw [weight_cons, ih (p.after c), headMember, laterMembers]
      by_cases hbar : isBar p c = true
      · obtain rfl := beq_iff_eq.1 (Bool.and_eq_true_iff.1 hbar).2
        have hone : weight ['|'] = 1 := by decide
        have hnone : weight [] = 0 := rfl
        rw [if_pos hbar, if_pos hbar, List.map_cons, List.sum_cons, List.length_cons, hone, hnone]
        omega
      · rw [if_neg hbar, if_neg hbar, weight_cons c (headMember (p.after c) r)]
        omega
  have htrim : (laterMembers p cs).map (weight ∘ Text.trim) = (laterMembers p cs).map weight :=
    List.map_congr_left fun m _ => weight_trim m
  rw [membersFrom, List.map_cons, List.map_cons, List.sum_cons, weight_trim, List.map_map, htrim]
  exact hpieces

/-- The null members behind bars. -/
theorem countP_isNull_later (prev : Option Char) (p : TypePlace) (cs : List Char) :
    (laterMembers p cs).countP isNull = (barsFrom prev p cs).countP Bar.member := by
  induction cs generalizing prev p with
  | nil => rfl
  | cons c r ih =>
    rw [barsFrom, List.countP_append, ← ih (some c) (p.after c), laterMembers]
    by_cases hc : c = '|'
    · subst hc
      by_cases hp : p = .top
      · have hbar : isBar p '|' = true := by simp [isBar, hp]
        rw [if_pos hbar, if_pos rfl, List.countP_cons, List.countP_singleton, hp]
        simp [Nat.add_comm]
      · have hbar : isBar p '|' ≠ true := by simp [isBar, hp]
        rw [if_neg hbar, if_pos rfl, List.countP_singleton]
        simp [hp]
    · have hbar : isBar p c ≠ true := by simp [isBar, hc]
      rw [if_neg hbar, if_neg hc]
      simp

/-- Each text that is taken out has five characters that are not blank. -/
theorem weight_withoutNullText (cs : List Char) : ∀ prev p, Outside prev cs →
    weight (withoutNullText cs) + 5 * (barsFrom prev p cs).countP Bar.written = weight cs := by
  have hne : nullText ≠ [] := by decide
  induction cs using Text.replaceAll_induction hne with
  | nil =>
    intro prev p _
    have hnil : withoutNullText [] = [] := Text.replaceAll_nil _ _
    rw [hnil]
    rfl
  | found rest ih =>
    intro prev p _
    obtain ⟨q, hq, -⟩ := barsFrom_nullText prev p rest
    have hwithout : withoutNullText (nullText ++ rest) = withoutNullText rest :=
      Text.replaceAll_append hne rest
    have hfive : weight nullText = 5 := by decide
    have hrest := ih (some 'l') q (by simp [Outside])
    rw [hq, hwithout, weight_append, hfive, List.countP_cons_of_pos rfl]
    omega
  | kept c r hkept ih =>
    intro prev p hout
    have hwithout : withoutNullText (c :: r) = c :: withoutNullText r :=
      Text.replaceAll_cons_of_not hkept
    have hrest := ih (some c) (p.after c) (outside_cons hkept)
    have hbar : (if c = '|' then
          [(⟨p == .top && isNull (headMember (p.after c) r),
            prev == some ' ' && " null".toList.isPrefixOf r⟩ : Bar)]
        else []).countP Bar.written = 0 := by
      by_cases hc : c = '|'
      · subst hc
        rw [if_pos rfl, List.countP_singleton, written_eq_false hout]
        rfl
      · rw [if_neg hc]
        rfl
    rw [hwithout, weight_cons, weight_cons c r, barsFrom, List.countP_append, hbar]
    omega

/-- Each null member that is left out of a list has four characters. -/
theorem weight_filter (ms : List (List Char)) :
    (ms.map weight).sum + ms.length
      = ((ms.filter (· != "null".toList)).map weight).sum + (ms.filter (· != "null".toList)).length
        + 5 * ms.countP (· == "null".toList) := by
  induction ms with
  | nil => rfl
  | cons m ms ih =>
    by_cases hm : m = "null".toList
    · have hfour : weight "null".toList = 4 := by decide
      rw [hm, List.filter_cons_of_neg (by simp), List.countP_cons_of_pos (by simp), List.map_cons,
        List.sum_cons, List.length_cons, hfour]
      omega
    · rw [List.filter_cons_of_pos (by simpa using hm), List.countP_cons_of_neg (by simpa using hm),
        List.map_cons, List.sum_cons, List.map_cons, List.sum_cons, List.length_cons,
        List.length_cons]
      omega

/-- **If the null members are those that are left out**, as many texts were taken out. -/
theorem countP_eq_of_members_eq {cs : List Char}
    (h : membersFrom .top (withoutNullText cs)
      = (membersFrom .top cs).filter (· != "null".toList)) :
    (barsFrom none .top cs).countP Bar.written
      = (barsFrom none .top cs).countP Bar.member
        + (if isNull (headMember .top cs) then 1 else 0) := by
  have htaken := weight_withoutNullText cs none .top (by simp [Outside])
  have hcs := weight_eq_members .top cs
  have hleft := weight_eq_members .top (withoutNullText cs)
  have hfilter := weight_filter (membersFrom .top cs)
  have hlength (ds : List Char) :
      (membersFrom .top ds).length = (laterMembers .top ds).length + 1 := by simp [membersFrom]
  have hlengths := hlength cs
  have hlengths' := hlength (withoutNullText cs)
  have hnulls : (membersFrom .top cs).countP (· == "null".toList)
      = (barsFrom none .top cs).countP Bar.member
        + (if isNull (headMember .top cs) then 1 else 0) := by
    rw [← countP_isNull_later none .top cs, membersFrom, List.countP_map, List.countP_cons]
    rfl
  rw [h] at hleft hlengths'
  omega

/-! ## 6. The members that are left -/

/-- Where one condition implies the other on a list, it holds as often only if they agree. -/
theorem forall_of_countP_le {l : List α} {f g : α → Bool} (h : ∀ a ∈ l, f a = true → g a = true)
    (hle : l.countP g ≤ l.countP f) : ∀ a ∈ l, g a = true → f a = true := by
  induction l with
  | nil => exact nofun
  | cons a l ih =>
    obtain ⟨ha, hl⟩ := List.forall_mem_cons.1 h
    have hmono : l.countP f ≤ l.countP g := List.countP_mono_left hl
    rw [List.countP_cons, List.countP_cons] at hle
    have hstep : (if f a = true then 1 else 0) ≤ (if g a = true then 1 else 0) := by
      by_cases hf : f a = true
      · rw [if_pos hf, if_pos (ha hf)]
      · rw [if_neg hf]
        exact Nat.zero_le _
    refine List.forall_mem_cons.2 ⟨fun hg => ?_, ih hl (by omega)⟩
    by_contra hf
    rw [if_pos hg, if_neg hf] at hle
    omega

/-- **Taking out ` | null`** takes out exactly the null members if every such text is a null member
and every null member is written so behind another; and if only one of the two holds, it does
not. -/
theorem unionMembers_dropNull (type : String) :
    (AllWritten type →
        (unionMembers (Interface.dropNull type) = (unionMembers type).filter (· != "null") ↔
          NoStrays type)) ∧
      (NoStrays type →
        (unionMembers (Interface.dropNull type) = (unionMembers type).filter (· != "null") ↔
          AllWritten type)) := by
  have hiff : unionMembers (Interface.dropNull type) = (unionMembers type).filter (· != "null") ↔
      membersFrom .top (withoutNullText type.toList)
        = (membersFrom .top type.toList).filter (· != "null".toList) := by
    have hdrop : (Interface.dropNull type).toList = withoutNullText type.toList :=
      String.toList_ofList
    have hfilter : (unionMembers type).filter (· != "null")
        = ((membersFrom .top type.toList).filter (· != "null".toList)).map String.ofList := by
      have hsame : (· != "null") ∘ String.ofList = (· != "null".toList) := by
        funext m
        rw [Bool.eq_iff_iff, Function.comp_apply, bne_iff_ne, bne_iff_ne, ne_eq, ne_eq,
          ← String.toList_inj, String.toList_ofList]
      rw [unionMembers, List.filter_map, hsame]
    have hinjective : Function.Injective String.ofList := fun _ _ => String.ofList_inj.1
    rw [hfilter, unionMembers, hdrop, (List.map_injective_iff.2 hinjective).eq_iff]
  have hboth (hwritten : AllWritten type) (hstrays : NoStrays type) :
      membersFrom .top (withoutNullText type.toList)
        = (membersFrom .top type.toList).filter (· != "null".toList) := by
    have hplain : PlainNulls type := plainNulls_iff.2 ⟨hwritten, hstrays⟩
    have hout : Outside none type.toList := by simp [Outside]
    obtain ⟨hhead, hlater⟩ := members_withoutNullText type.toList none .top hout hplain.bars
    have hfirst : Text.trim (headMember .top type.toList) ≠ "null".toList :=
      beq_eq_false_iff_ne.1 hplain.first
    rw [membersFrom, membersFrom, List.map_cons, List.map_cons, hhead.trim_eq, hlater,
      List.filter_cons_of_pos (p := (· != "null".toList)) (bne_iff_ne.2 hfirst)]
  rw [hiff]
  refine ⟨fun hwritten => ⟨fun h => ?_, hboth hwritten⟩,
    fun hstrays => ⟨fun h => ?_, fun hwritten => hboth hwritten hstrays⟩⟩
  · have hcount := countP_eq_of_members_eq h
    rw [if_neg (by simp [hwritten.1])] at hcount
    exact forall_of_countP_le hwritten.2 hcount.le
  · have hcount := countP_eq_of_members_eq h
    have hle : (barsFrom none .top type.toList).countP Bar.written
        ≤ (barsFrom none .top type.toList).countP Bar.member := List.countP_mono_left hstrays
    have hge : (bars type).countP Bar.member ≤ (bars type).countP Bar.written := by
      unfold bars
      omega
    refine ⟨?_, forall_of_countP_le hstrays hge⟩
    cases hnull : isNull (headMember .top type.toList) with
    | false => rfl
    | true =>
      rw [hnull, if_pos rfl] at hcount
      omega

theorem PlainNulls.unionMembers_dropNull {type : String} (h : PlainNulls type) :
    unionMembers (Interface.dropNull type) = (unionMembers type).filter (· != "null") :=
  have ⟨hwritten, hstrays⟩ := plainNulls_iff.1 h
  ((TypeScript.unionMembers_dropNull type).1 hwritten).2 hstrays

end SchemaTypes.TypeScript
