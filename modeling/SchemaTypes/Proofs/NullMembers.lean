/-
# Fields without strict null checks

Without strict null checks the fields of a property are the same but for their types, from which the
text ` | null` is taken out (`expand_loose`).  Types that a property puts together from names and
values have a ` | null` only as a null member, if no name begins like `null` and no value holds that
text (`PlainTexts`); then the types have lost exactly their null members.
-/
import Mathlib
import SchemaTypes.Proofs.TypeScript.References
import SchemaTypes.Proofs.TypeScript.UnionMembers

namespace SchemaTypes

namespace TypeScript

open Text (Blank)
open TypeExpr (IsWord literalUnion)

/-! ## 1. Unions of names -/

/-- A name that a type shows as one member, such as an identifier, and that does not begin like
`null`. -/
structure IsMember (name : String) : Prop where
  word : IsWord name
  free : (name.toList.all fun c => TypePlace.top.after c == .top) = true
  other : ¬"null".toList <+: name.toList

instance (name : String) : Decidable (IsMember name) :=
  decidable_of_iff (IsWord name ∧ (name.toList.all fun c => TypePlace.top.after c == .top) = true ∧
      ¬"null".toList <+: name.toList)
    ⟨fun ⟨word, free, other⟩ => ⟨word, free, other⟩, fun h => ⟨h.word, h.free, h.other⟩⟩

theorem IsMember.after_eq {name : String} (h : IsMember name) :
    ∀ c ∈ name.toList, TypePlace.top.after c = .top :=
  fun c hc => beq_iff_eq.1 (List.all_eq_true.1 h.free c hc)

theorem IsMember.bar_notMem {name : String} (h : IsMember name) : '|' ∉ name.toList :=
  h.word.notMem (by decide)

/-- A type without a bar has none. -/
theorem barsFrom_of_notMem {cs : List Char} (h : '|' ∉ cs) (prev : Option Char) (p : TypePlace) :
    barsFrom prev p cs = [] := by
  induction cs generalizing prev p with
  | nil => rfl
  | cons c r ih =>
    rw [List.mem_cons, not_or] at h
    rw [barsFrom, if_neg (Ne.symm h.1), ih h.2, List.nil_append]

theorem headMember_of_notMem {cs : List Char} (h : '|' ∉ cs) (p : TypePlace) :
    headMember p cs = cs := by
  induction cs generalizing p with
  | nil => rfl
  | cons c r ih =>
    rw [List.mem_cons, not_or] at h
    have hbar : isBar p c ≠ true := by simp [isBar, Ne.symm h.1]
    rw [headMember, if_neg hbar, ih h.2]

/-- Behind a name the reader goes on at the top. -/
theorem barsFrom_append_blank {cs : List Char} (hfree : ∀ c ∈ cs, TypePlace.top.after c = .top)
    (hbar : '|' ∉ cs) (prev : Option Char) (rest : List Char) :
    barsFrom prev .top (cs ++ ' ' :: rest) = barsFrom (some ' ') .top rest := by
  induction cs generalizing prev with
  | nil => rfl
  | cons c r ih =>
    rw [List.forall_mem_cons] at hfree
    rw [List.mem_cons, not_or] at hbar
    rw [List.cons_append, barsFrom, if_neg (Ne.symm hbar.1), hfree.1, ih hfree.2 hbar.2,
      List.nil_append]

theorem headMember_append_bar {cs : List Char} (hfree : ∀ c ∈ cs, TypePlace.top.after c = .top)
    (hbar : '|' ∉ cs) (rest : List Char) : headMember .top (cs ++ '|' :: rest) = cs := by
  induction cs with
  | nil => rfl
  | cons c r ih =>
    rw [List.forall_mem_cons] at hfree
    rw [List.mem_cons, not_or] at hbar
    have hkept : isBar .top c ≠ true := by simp [isBar, Ne.symm hbar.1]
    rw [List.cons_append, headMember, if_neg hkept, hfree.1, ih hfree.2 hbar.2]

/-- The bar behind a name. -/
theorem IsMember.barsFrom {name : String} (h : IsMember name) (prev : Option Char)
    (rest : List Char) :
    barsFrom prev .top (name.toList ++ (" | ".toList ++ rest))
      = ⟨isNull (headMember .top (' ' :: rest)), " null".toList.isPrefixOf (' ' :: rest)⟩
        :: TypeScript.barsFrom (some ' ') .top rest :=
  barsFrom_append_blank h.after_eq h.bar_notMem prev ('|' :: ' ' :: rest)

theorem IsMember.headMember {name : String} (h : IsMember name) (rest : List Char) :
    headMember .top (name.toList ++ (" | ".toList ++ rest)) = name.toList ++ [' '] := by
  have hsplit : name.toList ++ (" | ".toList ++ rest)
      = (name.toList ++ [' ']) ++ '|' :: ' ' :: rest := by simp
  rw [hsplit]
  refine headMember_append_bar (List.forall_mem_append.2 ⟨h.after_eq, ?_⟩) ?_ _
  · simp only [List.mem_singleton, forall_eq]
    decide
  · simp [h.bar_notMem]

/-- Blanks around a name do not make it a null member. -/
theorem IsMember.isNull_eq_false {name : String} (h : IsMember name) {before after : List Char}
    (hbefore : Blank before) (hafter : Blank after) :
    isNull (before ++ (name.toList ++ after)) = false := by
  rw [isNull, beq_eq_false_iff_ne, Text.trim_blank_append hbefore, Text.trim_append_blank hafter,
    Text.trim_eq_self h.word.isBlank_eq_false]
  exact fun e => h.other (e ▸ List.prefix_rfl)

/-- The bar in front of a name begins no null member, and stands in no ` | null`. -/
theorem IsMember.bar_before {name : String} (h : IsMember name) (rest : List Char) :
    isNull (TypeScript.headMember .top (' ' :: (name.toList ++ (" | ".toList ++ rest)))) = false ∧
      " null".toList.isPrefixOf (' ' :: (name.toList ++ (" | ".toList ++ rest))) = false := by
  have hhead : TypeScript.headMember .top (' ' :: (name.toList ++ (" | ".toList ++ rest)))
      = [' '] ++ (name.toList ++ [' ']) := congrArg (' ' :: ·) (h.headMember rest)
  refine ⟨by rw [hhead, h.isNull_eq_false Text.blank_space Text.blank_space], ?_⟩
  rw [Bool.eq_false_iff, ne_eq, List.isPrefixOf_iff_prefix]
  intro hstart
  have hnull : "null".toList <+: name.toList ++ ' ' :: ('|' :: ' ' :: rest) :=
    (List.cons_prefix_cons.1 hstart).2
  exact h.other ((Text.prefix_append_cons_iff (by decide)).1 hnull)

/-- A union of names and `null`, from its first name on. -/
theorem exists_members_cons (n : String) (names : List String) :
    ∃ rest, (String.intercalate " | " (n :: names)).toList ++ " | null".toList
      = n.toList ++ (" | ".toList ++ rest) := by
  cases names with
  | nil => exact ⟨"null".toList, by simp⟩
  | cons m names =>
    exact ⟨(String.intercalate " | " (m :: names)).toList ++ " | null".toList, by
      simp [String.intercalate_cons_cons]⟩

theorem bars_members {names : List String} (hne : names ≠ []) (h : ∀ n ∈ names, IsMember n)
    (prev : Option Char) :
    ∀ b ∈ barsFrom prev .top ((String.intercalate " | " names).toList ++ " | null".toList),
      b.member = b.written := by
  induction names generalizing prev with
  | nil => exact absurd rfl hne
  | cons n names ih =>
    rw [List.forall_mem_cons] at h
    cases names with
    | nil =>
      have htext : (String.intercalate " | " [n]).toList ++ " | null".toList
          = n.toList ++ (" | ".toList ++ "null".toList) := by simp
      rw [htext, h.1.barsFrom, List.forall_mem_cons]
      exact ⟨by decide, by decide⟩
    | cons m names =>
      have htext : (String.intercalate " | " (n :: m :: names)).toList ++ " | null".toList
          = n.toList ++ (" | ".toList
            ++ ((String.intercalate " | " (m :: names)).toList ++ " | null".toList)) := by
        simp [String.intercalate_cons_cons]
      have hrest := ih (List.cons_ne_nil m names) h.2 (some ' ')
      obtain ⟨rest, hm⟩ := exists_members_cons m names
      obtain ⟨hmember, hwritten⟩ := (h.2 m List.mem_cons_self).bar_before rest
      rw [htext, h.1.barsFrom, List.forall_mem_cons]
      refine ⟨?_, hrest⟩
      rw [hm, hmember, hwritten]

/-- **Names and `null` behind them.** -/
theorem plainNulls_members {names : List String} (hne : names ≠ [])
    (h : ∀ n ∈ names, IsMember n) :
    PlainNulls (String.intercalate " | " names ++ " | null") := by
  obtain ⟨n, rest, rfl⟩ := List.exists_cons_of_ne_nil hne
  obtain ⟨tail, htail⟩ := exists_members_cons n rest
  have hn : IsMember n := h n List.mem_cons_self
  constructor
  · rw [String.toList_append, htail, hn.headMember]
    have hnull := hn.isNull_eq_false Text.blank_nil Text.blank_space
    rwa [List.nil_append] at hnull
  · unfold bars
    rw [String.toList_append]
    exact bars_members hne h none

/-- Without a bar a type is its only member. -/
theorem plainNulls_of_notMem {type : String} (hbar : '|' ∉ type.toList)
    (hnull : isNull type.toList = false) : PlainNulls type := by
  constructor
  · rwa [headMember_of_notMem hbar]
  · unfold bars
    rw [barsFrom_of_notMem hbar]
    exact List.forall_mem_nil _

/-! ## 2. Unions of literals -/

/-- Escapes do not hide what begins a text. -/
theorem prefix_of_prefix_escapeBy {needle v more : List Char}
    (hneedle : ∀ c ∈ needle, isQuoteSpecial c = false)
    (h : needle <+: escapeBy isQuoteSpecial v ++ '\'' :: more) : needle <+: v := by
  induction v generalizing needle with
  | nil =>
    cases needle with
    | nil => exact List.nil_prefix
    | cons c needle =>
      obtain rfl := (List.cons_prefix_cons.1 h).1
      exact absurd (hneedle _ List.mem_cons_self) (by decide)
  | cons d v ih =>
    cases needle with
    | nil => exact List.nil_prefix
    | cons c needle =>
      rw [List.forall_mem_cons] at hneedle
      rw [escapeBy] at h
      split at h
      · obtain rfl := (List.cons_prefix_cons.1 h).1
        exact absurd hneedle.1 (by decide)
      · obtain ⟨rfl, hrest⟩ := List.cons_prefix_cons.1 h
        exact List.cons_prefix_cons.2 ⟨rfl, ih hneedle.2 hrest⟩

/-- A value that does not hold ` | null` has only bars that are no part of a null member. -/
theorem bars_quoted {v more : List Char} {prev : Option Char}
    (h : ¬nullText <:+: prev.toList ++ v)
    (hmore : ∀ b ∈ barsFrom (some '\'') .top more, b.member = b.written) :
    ∀ b ∈ barsFrom prev (.literal .single 0) (escapeBy isQuoteSpecial v ++ '\'' :: more),
      b.member = b.written := by
  induction v generalizing prev with
  | nil => exact hmore
  | cons c v ih =>
    have htail : ¬nullText <:+: (some c).toList ++ v := fun hheld =>
      h (hheld.trans (List.suffix_append _ _).isInfix)
    have hliteral : (TypePlace.literal .single 0).after c
        = if c = '\\' then .escape .single 0 else if c = '\'' then .top else .literal .single 0 :=
      rfl
    rw [escapeBy]
    split
    · rename_i hspecial
      -- the backslash takes the character with it, and neither of them is a bar
      have hc : c ≠ '|' := by
        rintro rfl
        exact absurd hspecial (by decide)
      have hskip : barsFrom prev (.literal .single 0)
          ('\\' :: c :: escapeBy isQuoteSpecial v ++ '\'' :: more)
            = barsFrom (some c) (.literal .single 0)
              (escapeBy isQuoteSpecial v ++ '\'' :: more) := by
        simp [barsFrom, TypePlace.after, hc]
      rw [hskip]
      exact ih htail
    · rename_i hspecial
      rw [isQuoteSpecial, Bool.or_eq_true, not_or, beq_iff_eq, beq_iff_eq] at hspecial
      rw [List.cons_append, barsFrom, hliteral, if_neg hspecial.1, if_neg hspecial.2,
        List.forall_mem_append]
      refine ⟨?_, ih htail⟩
      split
      · rename_i hc
        have hinside : (TypePlace.literal .single 0 == .top) = false := by decide
        rw [List.forall_mem_singleton, hinside, Bool.false_and, eq_comm, Bool.eq_false_iff]
        intro hwritten
        obtain ⟨hprev, hstart⟩ := Bool.and_eq_true_iff.1 hwritten
        have hplain : ∀ c ∈ " null".toList, isQuoteSpecial c = false := by simp [isQuoteSpecial]
        have hnull : " null".toList <+: v :=
          prefix_of_prefix_escapeBy hplain (List.isPrefixOf_iff_prefix.1 hstart)
        rw [beq_iff_eq.1 hprev, hc] at h
        have htext : nullText <+: ' ' :: '|' :: v :=
          List.cons_prefix_cons.2 ⟨rfl, List.cons_prefix_cons.2 ⟨rfl, hnull⟩⟩
        exact h htext.isInfix
      · exact List.forall_mem_nil _

/-- The quote of a value begins no ` | null`. -/
theorem bars_quote {v more : List Char} (h : ¬nullText <:+: v) (prev : Option Char)
    (hmore : ∀ b ∈ barsFrom (some '\'') .top more, b.member = b.written) :
    ∀ b ∈ barsFrom prev .top ('\'' :: (escapeBy isQuoteSpecial v ++ '\'' :: more)),
      b.member = b.written := by
  have hquote : ¬nullText <:+: (some '\'').toList ++ v := by
    rw [Option.toList_some, List.singleton_append, List.infix_cons_iff, not_or]
    exact ⟨fun hstart => absurd (List.cons_prefix_cons.1 hstart).1 (by decide), h⟩
  exact bars_quoted hquote hmore

/-- A character that is not blank and not in `null` makes another member. -/
theorem isNull_eq_false_of_mem {c : Char} {member : List Char} (hmem : c ∈ member)
    (hblank : Text.isBlank c = false) (hnull : c ∉ "null".toList) : isNull member = false := by
  have hkept {l : List Char} (hl : c ∈ l) : c ∈ l.dropWhile Text.isBlank := by
    rw [← List.takeWhile_append_dropWhile (p := Text.isBlank) (l := l)] at hl
    rcases List.mem_append.1 hl with hl | hl
    · have := List.mem_takeWhile_imp hl
      rw [hblank] at this
      cases this
    · exact hl
  rw [isNull, beq_eq_false_iff_ne]
  intro h
  refine hnull (h ▸ ?_)
  exact List.mem_reverse.2 (hkept (List.mem_reverse.2 (hkept hmem)))

theorem isNull_quote (rest : List Char) :
    isNull (headMember .top ('\'' :: rest)) = false ∧
      isNull (headMember .top (' ' :: '\'' :: rest)) = false :=
  ⟨isNull_eq_false_of_mem (c := '\'') List.mem_cons_self (by decide) (by decide),
    isNull_eq_false_of_mem (c := '\'') (List.mem_cons_of_mem _ List.mem_cons_self) (by decide)
      (by decide)⟩

theorem bars_literalUnion {values : List String} (h : ∀ v ∈ values, ¬nullText <:+: v.toList)
    (prev : Option Char) :
    ∀ b ∈ barsFrom prev .top (literalUnion values).toList, b.member = b.written := by
  induction values generalizing prev with
  | nil => exact List.forall_mem_nil _
  | cons v values ih =>
    rw [List.forall_mem_cons] at h
    cases values with
    | nil =>
      have htext : (literalUnion [v]).toList
          = '\'' :: (escapeBy isQuoteSpecial v.toList ++ '\'' :: []) := by
        simp [literalUnion, toList_quote]
      rw [htext]
      exact bars_quote h.1 prev (List.forall_mem_nil _)
    | cons w values =>
      obtain ⟨tail, htail⟩ := TypeExpr.toList_literalUnion_cons w values
      have hrest := ih h.2 (some ' ')
      have hbar : barsFrom (some '\'') .top (" | ".toList ++ '\'' :: tail)
          = ⟨isNull (headMember .top (' ' :: '\'' :: tail)), false⟩
            :: barsFrom (some ' ') .top ('\'' :: tail) := rfl
      rw [TypeExpr.toList_literalUnion_cons_cons, htail]
      refine bars_quote h.1 prev ?_
      rw [hbar, (isNull_quote tail).2, ← htail]
      exact List.forall_mem_cons.2 ⟨rfl, hrest⟩

/-- **Quoted values.** -/
theorem plainNulls_literalUnion {values : List String}
    (h : ∀ v ∈ values, ¬nullText <:+: v.toList) : PlainNulls (literalUnion values) := by
  refine ⟨?_, bars_literalUnion h none⟩
  cases values with
  | nil => decide
  | cons v values =>
    obtain ⟨tail, htail⟩ := TypeExpr.toList_literalUnion_cons v values
    rw [htail]
    exact (isNull_quote tail).1

end TypeScript

/-! ## 3. The types of fields -/

namespace Interface

open TypeExpr (givenTarget literalUnion)
open TypeScript (AllWritten IsMember NoStrays PlainNulls nullText plainNulls_literalUnion
  isNull_eq_false_of_mem plainNulls_members plainNulls_of_notMem unionMembers)

/-- The texts that the types of a property are put together from: no name begins like `null`, no
value holds ` | null`, and a plugin writes its types plainly. -/
def PlainTexts (config : Config) (p : Property) : Prop :=
  match customTypeOf? config p with
  | some t =>
    if t.compound then ∀ e ∈ t.expand, PlainNulls e.typeHint else PlainNulls t.typeHint
  | none =>
    match p.kind with
    | .association _ target targets => ∀ n ∈ givenTarget target ++ targets, IsMember n
    | .enumRef enum => IsMember enum
    | .inlineEnum values | .select values => ∀ v ∈ values, ¬nullText <:+: v.value.toList
    | .file _ | .custom | .primitive => True

variable {config : Config} {p : Property}

/-- A name holds no ` | null`. -/
theorem nullText_not_infix_of_isMember {name : String} (h : IsMember name) :
    ¬nullText <:+: name.toList :=
  fun hheld => h.bar_notMem (hheld.subset (by decide))

theorem plainNulls_of_isMember {name : String} (h : IsMember name) : PlainNulls name := by
  refine plainNulls_of_notMem h.bar_notMem ?_
  have hnull := h.isNull_eq_false Text.blank_nil Text.blank_nil
  rwa [List.nil_append, List.append_nil] at hnull

/-- The types of primitives. -/
theorem plainNulls_ofTag (tag : String) : PlainNulls (TypeExpr.ofTag tag) := by
  have htypes : ∀ e ∈ TypeExpr.primitiveTypes, PlainNulls e.2 := by decide +kernel
  unfold TypeExpr.ofTag
  cases hl : TypeExpr.primitiveTypes.lookup tag with
  | none => decide +kernel
  | some type =>
    obtain ⟨before, after, heq, -⟩ := List.lookup_eq_some_iff.1 hl
    exact htypes (tag, type) (by simp [heq])

/-- The types of relations to one entity or to many of one. -/
theorem plainNulls_ofRelation {relation : String} {target : Option String}
    (targets : List String) (hne : relation ≠ "MorphTo")
    (h : ∀ n ∈ givenTarget target, IsMember n) :
    PlainNulls (TypeExpr.ofRelation relation target targets).expr := by
  have hone : PlainNulls ((givenTarget target).headD TypeExpr.unknown) ∧
      PlainNulls ((givenTarget target).headD TypeExpr.unknown ++ "[]") := by
    cases htarget : givenTarget target with
    | nil => exact ⟨by decide +kernel, by decide +kernel⟩
    | cons n rest =>
      have hn : IsMember n := h n (htarget ▸ List.mem_cons_self)
      have hbar : '|' ∉ (n ++ "[]").toList := by simp [hn.bar_notMem]
      have hbracket : '[' ∈ (n ++ "[]").toList := by simp
      exact ⟨plainNulls_of_isMember hn, plainNulls_of_notMem hbar
        (isNull_eq_false_of_mem hbracket (by decide) (by decide))⟩
  unfold TypeExpr.ofRelation
  dsimp only
  split
  · rename_i hcardinality
    exact absurd (TypeExpr.cardinality?_eq_oneOf hcardinality) hne
  · exact hone.1
  · exact hone.2
  · decide +kernel

theorem plainNulls_ofValues {values : List EnumValue}
    (h : ∀ v ∈ values, ¬nullText <:+: v.value.toList) :
    PlainNulls (TypeExpr.ofValues values).expr := by
  unfold TypeExpr.ofValues
  split
  · decide
  · refine plainNulls_literalUnion fun v hv => ?_
    obtain ⟨e, he, rfl⟩ := List.mem_map.1 hv
    exact h e he

/-- The types of a relation to one of several entities. -/
theorem plainNulls_oneOfFields (config : Config) (name : String) {targets : List String}
    (shown : Option String) (h : ∀ n ∈ targets, IsMember n) :
    ∀ f ∈ oneOfFields config name targets shown, PlainNulls f.type := by
  unfold oneOfFields
  simp only [List.forall_mem_cons]
  refine ⟨?_, by decide +kernel, ?_, List.forall_mem_nil _⟩
  · split
    · decide +kernel
    · exact plainNulls_literalUnion fun n hn => nullText_not_infix_of_isMember (h n hn)
  · split
    · decide +kernel
    · rename_i hne
      exact plainNulls_members (by simpa using hne) h

/-- The type of a property without a plugin's. -/
theorem plainNulls_resolve (collection : Option Collection)
    (hcustom : customTypeOf? config p = none)
    (hone : ∀ target targets, p.kind ≠ .association "MorphTo" target targets)
    (h : PlainTexts config p) :
    PlainNulls (TypeExpr.resolve p collection config.customTypes).expr := by
  simp only [PlainTexts, hcustom] at h
  unfold TypeExpr.resolve
  split
  · split <;> decide +kernel
  · rename_i relation target targets hk
    have hne : relation ≠ "MorphTo" := by
      rintro rfl
      exact hone target targets hk
    rw [hk] at h
    have hexpr := plainNulls_ofRelation targets hne fun n hn =>
      h n (List.mem_append_left _ hn)
    split <;> exact hexpr
  · rename_i hk
    rw [hk] at h
    exact plainNulls_of_isMember h
  · rename_i hk
    rw [hk] at h
    exact plainNulls_ofValues h
  · rename_i hk
    rw [hk] at h
    exact plainNulls_ofValues h
  · rename_i hk
    have hnone : config.customTypes.lookup p.tag = none := by
      simpa only [customTypeOf?, hk, Config.customType?] using hcustom
    rw [hnone]
    exact plainNulls_ofTag _
  · exact plainNulls_ofTag _

/-- **Types of plain texts have plain null members.** -/
theorem plainNulls_expandStrict (collection : Collection) (config : Config) (name : String)
    (h : PlainTexts config p) :
    ∀ f ∈ expandStrict collection config name p, PlainNulls f.type := by
  unfold expandStrict
  cases hcustom : customTypeOf? config p with
  | some t =>
    simp only [PlainTexts, hcustom] at h
    dsimp only
    split
    · rename_i hcompound
      have hcomputed : PlainNulls "string | null" := by decide +kernel
      rw [if_pos hcompound] at h
      refine List.forall_mem_append.2 ⟨List.forall_mem_map.2 h, List.forall_mem_map.2 ?_⟩
      exact fun _ _ => hcomputed
    · rename_i hcompound
      rw [if_neg hcompound] at h
      exact List.forall_mem_singleton.2 h
  | none =>
    dsimp only
    split
    · rename_i target targets hk
      simp only [PlainTexts, hcustom, hk] at h
      exact plainNulls_oneOfFields config name _ fun n hn => h n (List.mem_append_right _ hn)
    · rename_i hone
      exact List.forall_mem_singleton.2 (plainNulls_resolve (some collection) hcustom hone h)

/-! ## 4. Strict null checks and none -/

/-- The settings with null checks that are strict or not. -/
def withNullChecks (config : Config) (strict : Bool) : Config :=
  { config with strictNullChecks := strict }

/-- A field with strict null checks and without: its type has lost the null members, if it is
written so that every ` | null` in it is a null member and every null member is one; where one of
the two conditions holds, the other is necessary too. -/
structure Loosened (f g : InterfaceField) : Prop where
  name : g.name = f.name
  optional : g.optional = f.optional
  readonly : g.readonly = f.readonly
  comment : g.comment = f.comment
  written : AllWritten f.type →
    (unionMembers g.type = (unionMembers f.type).filter (· != "null") ↔ NoStrays f.type)
  strays : NoStrays f.type →
    (unionMembers g.type = (unionMembers f.type).filter (· != "null") ↔ AllWritten f.type)

/-- **Without strict null checks** a property has the same fields, with the same names, switches and
comments, and their types have lost the null members as far as ` | null` tells them.  If the types
are put together from plain texts, they have lost exactly those. -/
theorem expand_loose (collection : Collection) (config : Config) (name : String) (p : Property) :
    List.Forall₂ Loosened (expand collection (withNullChecks config true) name p)
        (expand collection (withNullChecks config false) name p) ∧
      (PlainTexts config p →
        (expand collection (withNullChecks config false) name p).map (unionMembers ·.type)
          = (expand collection (withNullChecks config true) name p).map
              fun f => (unionMembers f.type).filter (· != "null")) := by
  have hstrict : expandStrict collection (withNullChecks config true) name p
      = expandStrict collection (withNullChecks config false) name p := rfl
  constructor
  · rw [expand, expand, hstrict, List.forall₂_map_left_iff, List.forall₂_map_right_iff,
      List.forall₂_same]
    intro f _
    obtain ⟨hwritten, hstrays⟩ := TypeScript.unionMembers_dropNull f.type
    exact ⟨rfl, rfl, rfl, rfl, hwritten, hstrays⟩
  · intro h
    have hcustom : customTypeOf? (withNullChecks config false) p = customTypeOf? config p := rfl
    have htexts : PlainTexts (withNullChecks config false) p := by
      unfold PlainTexts at h ⊢
      rwa [hcustom]
    rw [expand, expand, hstrict, List.map_map, List.map_map]
    refine List.map_congr_left fun f hf => ?_
    have hplain := plainNulls_expandStrict collection (withNullChecks config false) name htexts f hf
    have hkept : (applyNullPolicy (withNullChecks config true).strictNullChecks f).type = f.type :=
      rfl
    have hloose : (applyNullPolicy (withNullChecks config false).strictNullChecks f).type
        = dropNull f.type := rfl
    simp only [Function.comp_apply, hkept, hloose, hplain.unionMembers_dropNull]

/-- A relation to one of several entities keeps its entities and loses the null member. -/
theorem expand_loose_commentable :
    let p : Property :=
      { tag := "Association", kind := .association "MorphTo" none ["Post", "Video"] }
    PlainTexts {} p ∧
      (expand ⟨[]⟩ (withNullChecks {} true) "commentable" p).map (·.type)
        = ["'Post' | 'Video'", "number", "Post | Video | null"] ∧
      (expand ⟨[]⟩ (withNullChecks {} false) "commentable" p).map (unionMembers ·.type)
        = [["'Post'", "'Video'"], ["number"], ["Post", "Video"]] := by
  intro p
  have hplain : PlainTexts {} p := by
    have hmember : ∀ n ∈ givenTarget none ++ ["Post", "Video"], IsMember n := by decide +kernel
    simpa only [PlainTexts, customTypeOf?, p] using hmember
  refine ⟨hplain, rfl, ?_⟩
  rw [(expand_loose ⟨[]⟩ {} "commentable" p).2 hplain]
  decide +kernel

/-- A value of an enumeration that holds ` | null` is cut although it is a quoted literal, and an
entity whose name begins with `null` is joined to the one before it. -/
theorem literal_loses_null :
    let p : Property := { tag := "Enum", kind := .inlineEnum [⟨"a | null", none, none⟩] }
    let q : Property :=
      { tag := "Association", kind := .association "MorphTo" none ["Post", "nullable"] }
    (expand ⟨[]⟩ (withNullChecks {} true) "x" p).map (·.type) = ["'a | null'"] ∧
      (expand ⟨[]⟩ (withNullChecks {} false) "x" p).map (·.type) = ["'a'"] ∧
      unionMembers "'a'" ≠ (unionMembers "'a | null'").filter (· != "null") ∧
      ((expand ⟨[]⟩ (withNullChecks {} true) "x" q).map (·.type)).getLast?
        = some "Post | nullable | null" ∧
      ((expand ⟨[]⟩ (withNullChecks {} false) "x" q).map (·.type)).getLast? = some "Postable" ∧
      unionMembers "Postable" ≠ (unionMembers "Post | nullable | null").filter (· != "null") := by
  decide +kernel

end Interface

end SchemaTypes
