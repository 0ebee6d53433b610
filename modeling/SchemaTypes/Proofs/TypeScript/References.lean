/-
# References that printed types keep

A relation names the entities that it leads to, and the interface of an entity finds them again in
the types of its fields, which are texts by then.  A name that is a word (`TypeExpr.IsWord`), as
every identifier is, comes back from each type that a relation gives: alone, as a list, and quoted
among others, whatever the others are (`mem_alternatives_literalUnion`).  So an entity depends on
each other entity that its relations lead to, unless that entity is named like a type of the
language itself, and its dependencies rise strictly (`mem_dependencies_iff_of_relation`).
-/
import Mathlib
import SchemaTypes.Proofs.Text.Order
import SchemaTypes.Proofs.Text.Path
import SchemaTypes.Proofs.Text.Replace
import SchemaTypes.Proofs.Text.Trim
import SchemaTypes.Proofs.TypeScript.Scanner
import SchemaTypes.Proofs.Zod.Types

namespace SchemaTypes

namespace TypeExpr

open Text (Blank)
open TypeScript (quote escapeBy isQuoteSpecial)

/-! ## 1. Words -/

/-- A character that no reader of types takes for a blank, a bar, a bracket or a quote. -/
def isWordChar (c : Char) : Bool := !Text.isBlank c && !"|[]'\"\\".toList.contains c

/-- A name that a type shows as it is, such as an identifier. -/
def IsWord (name : String) : Prop := name.toList.all isWordChar = true

instance (name : String) : Decidable (IsWord name) := by unfold IsWord; infer_instance

theorem IsWord.notMem {name : String} (h : IsWord name) {c : Char} (hc : isWordChar c = false) :
    c ∉ name.toList := fun hm => by
  rw [List.all_eq_true.1 h c hm] at hc
  cases hc

theorem IsWord.isBlank_eq_false {name : String} (h : IsWord name) :
    ∀ c ∈ name.toList, Text.isBlank c = false := by
  intro c hc
  have hword := List.all_eq_true.1 h c hc
  rw [isWordChar, Bool.and_eq_true, Bool.not_eq_true'] at hword
  exact hword.1

/-- Quoting a word escapes nothing. -/
theorem IsWord.escapeBy_eq {name : String} (h : IsWord name) :
    escapeBy isQuoteSpecial name.toList = name.toList := by
  have hplain : ∀ c ∈ name.toList, isQuoteSpecial c = false := by
    intro c hc
    rw [isQuoteSpecial, Bool.or_eq_false_iff, beq_eq_false_iff_ne, beq_eq_false_iff_ne]
    exact ⟨fun e => h.notMem (c := '\\') (by decide) (e ▸ hc),
      fun e => h.notMem (c := '\'') (by decide) (e ▸ hc)⟩
  generalize name.toList = cs at hplain
  induction cs with
  | nil => rfl
  | cons c r ih =>
    rw [List.forall_mem_cons] at hplain
    rw [escapeBy, if_neg (by simp [hplain.1]), ih hplain.2]

/-! ## 2. Null members and quotes -/

@[simp] theorem dropNullMembers_nil : dropNullMembers [] = [] := by
  simp [dropNullMembers, afterNullMember?]

theorem dropNullMembers_of_some {cs r : List Char} (h : afterNullMember? cs = some r) :
    dropNullMembers cs = dropNullMembers r := by
  rw [dropNullMembers]
  split
  · rename_i hsome
    rw [Option.some.inj (h.symm.trans hsome)]
  · rename_i hnone
    rw [h] at hnone
    cases hnone

theorem dropNullMembers_cons_of_none {c : Char} {r : List Char}
    (h : afterNullMember? (c :: r) = none) : dropNullMembers (c :: r) = c :: dropNullMembers r := by
  rw [dropNullMembers]
  split
  · rename_i hsome
    rw [h] at hsome
    cases hsome
  · rfl

/-- Without a bar there is no null member. -/
theorem dropNullMembers_of_notMem {cs : List Char} (h : '|' ∉ cs) : dropNullMembers cs = cs := by
  induction cs with
  | nil => exact dropNullMembers_nil
  | cons c r ih =>
    have hnone : afterNullMember? (c :: r) = none := by
      unfold afterNullMember?
      split
      · rename_i t ht
        have hbar : '|' ∈ (c :: r).dropWhile Text.isBlank := ht ▸ List.mem_cons_self
        exact absurd ((List.dropWhile_sublist _).subset hbar) h
      · rfl
    rw [dropNullMembers_cons_of_none hnone, ih fun hm => h (List.mem_cons_of_mem _ hm)]

theorem dropWhile_append_quote (a b : List Char) :
    (a ++ '\'' :: b).dropWhile Text.isBlank = a.dropWhile Text.isBlank ++ '\'' :: b := by
  induction a with
  | nil => exact List.dropWhile_cons_of_neg (by decide)
  | cons c r ih =>
    cases hc : Text.isBlank c with
    | true =>
      rw [List.cons_append, List.dropWhile_cons_of_pos hc, List.dropWhile_cons_of_pos hc, ih]
    | false =>
      rw [List.cons_append, List.dropWhile_cons_of_neg (by simp [hc]),
        List.dropWhile_cons_of_neg (by simp [hc]), List.cons_append]

theorem afterNullMember?_append_quote (a b : List Char) :
    afterNullMember? (a ++ '\'' :: b) = (afterNullMember? a).map (· ++ '\'' :: b) := by
  unfold afterNullMember?
  rw [dropWhile_append_quote]
  cases a.dropWhile Text.isBlank with
  | nil => rfl
  | cons x u =>
    by_cases hx : x = '|'
    · subst hx
      simp only [List.cons_append, dropWhile_append_quote]
      rcases u.dropWhile Text.isBlank with _ | ⟨c₁, _ | ⟨c₂, _ | ⟨c₃, _ | ⟨c₄, v⟩⟩⟩⟩ <;> grind
    · simp [hx]

/-- Null members are dropped on both sides of a quote. -/
theorem dropNullMembers_append_quote (a b : List Char) :
    dropNullMembers (a ++ '\'' :: b) = dropNullMembers a ++ '\'' :: dropNullMembers b := by
  induction ha : a.length using Nat.strong_induction_on generalizing a with
  | _ n ih =>
    have happend := afterNullMember?_append_quote a b
    cases hrest : afterNullMember? a with
    | some rest =>
      have hshort : rest.length < n := ha ▸ length_afterNullMember? hrest
      rw [hrest, Option.map_some] at happend
      rw [dropNullMembers_of_some happend, dropNullMembers_of_some hrest, ih _ hshort _ rfl]
    | none =>
      rw [hrest, Option.map_none] at happend
      cases a with
      | nil => rw [List.nil_append, dropNullMembers_cons_of_none happend, dropNullMembers_nil,
          List.nil_append]
      | cons c a =>
        have hshort : a.length < n := by
          rw [← ha]
          exact Nat.lt_succ_self _
        rw [List.cons_append] at happend ⊢
        rw [dropNullMembers_cons_of_none hrest, dropNullMembers_cons_of_none happend,
          ih _ hshort _ rfl, List.cons_append]

/-! ## 3. Words in quotes -/

/-- A change of texts that quotes keep apart, and that leaves words as they are. -/
structure KeepsQuoted (change : List Char → List Char) : Prop where
  nil : change [] = []
  quote : ∀ a b, change (a ++ '\'' :: b) = change a ++ '\'' :: change b
  bar : change " | ".toList = " | ".toList
  word : ∀ name, IsWord name → change name.toList = name.toList

theorem KeepsQuoted.comp {f g : List Char → List Char} (hf : KeepsQuoted f) (hg : KeepsQuoted g) :
    KeepsQuoted (f ∘ g) where
  nil := by rw [Function.comp_apply, hg.nil, hf.nil]
  quote a b := by simp only [Function.comp_apply, hg.quote, hf.quote]
  bar := by rw [Function.comp_apply, hg.bar, hf.bar]
  word name h := by rw [Function.comp_apply, hg.word name h, hf.word name h]

/-- So do replacements of what holds no quote and occurs in no word. -/
theorem keepsQuoted_replaceAll {needle : List Char} {c : Char} (hc : isWordChar c = false)
    (hquote : '\'' ∉ c :: needle)
    (hbar : Text.replaceAll (c :: needle) [] " | ".toList = " | ".toList) :
    KeepsQuoted (Text.replaceAll (c :: needle) []) where
  nil := Text.replaceAll_nil _ _
  quote := Text.replaceAll_append_cons (List.cons_ne_nil _ _) hquote
  bar := hbar
  word _ h := Text.replaceAll_of_notMem (h.notMem hc)

theorem keepsQuoted_arrayMarks : KeepsQuoted (Text.replaceAll ['[', ']'] []) :=
  keepsQuoted_replaceAll (by decide) (by decide) (Text.replaceAll_of_notMem (by decide))

theorem keepsQuoted_nullMark : KeepsQuoted (Text.replaceAll " | null".toList []) :=
  keepsQuoted_replaceAll (by decide) (by decide) (by simp [Text.replaceAll])

theorem keepsQuoted_dropNullMembers : KeepsQuoted dropNullMembers where
  nil := dropNullMembers_nil
  quote := dropNullMembers_append_quote
  bar := by
    have hbar : " | ".toList = [' ', '|', ' '] := by decide
    rw [hbar, dropNullMembers_cons_of_none (by decide), dropNullMembers_cons_of_none (by decide),
      dropNullMembers_cons_of_none (by decide), dropNullMembers_nil]
  word _ h := dropNullMembers_of_notMem (h.notMem (by decide))

/-- What a change makes of a quoted value. -/
def wrapped (change : List Char → List Char) (value : String) : List Char :=
  '\'' :: (change (escapeBy isQuoteSpecial value.toList) ++ ['\''])

theorem toList_literalUnion_cons (w : String) (rest : List String) :
    ∃ tail, (literalUnion (w :: rest)).toList = '\'' :: tail := by
  rw [literalUnion, List.map_cons, String.toList_intercalate, List.map_cons,
    TypeScript.toList_quote, List.intercalate_cons_cons_left]
  exact ⟨_, rfl⟩

theorem toList_literalUnion_cons_cons (v w : String) (rest : List String) :
    (literalUnion (v :: w :: rest)).toList
      = '\'' :: (escapeBy isQuoteSpecial v.toList
        ++ '\'' :: (" | ".toList ++ (literalUnion (w :: rest)).toList)) := by
  simp [literalUnion, TypeScript.toList_quote, String.intercalate_cons_cons]

/-- **A change works on the values of a union one by one.** -/
theorem KeepsQuoted.literalUnion {change : List Char → List Char} (h : KeepsQuoted change)
    (values : List String) :
    change (TypeExpr.literalUnion values).toList
      = List.intercalate " | ".toList (values.map (wrapped change)) := by
  have hquoted (e rest : List Char) :
      change ('\'' :: (e ++ '\'' :: rest)) = '\'' :: (change e ++ '\'' :: change rest) := by
    have hopen := h.quote [] (e ++ '\'' :: rest)
    rwa [List.nil_append, h.nil, List.nil_append, h.quote] at hopen
  induction values with
  | nil => exact h.nil
  | cons v rest ih =>
    cases rest with
    | nil =>
      rw [TypeExpr.literalUnion, List.map_singleton, String.intercalate_singleton,
        TypeScript.toList_quote, hquoted, h.nil, List.map_singleton, List.intercalate_singleton,
        wrapped]
    | cons w rest =>
      obtain ⟨tail, htail⟩ := toList_literalUnion_cons w rest
      have htext : (TypeExpr.literalUnion (v :: w :: rest)).toList
          = '\'' :: (escapeBy isQuoteSpecial v.toList
            ++ '\'' :: (" | ".toList ++ '\'' :: tail)) := by
        rw [toList_literalUnion_cons_cons, htail]
      have hrest : change ('\'' :: tail) = '\'' :: change tail := by
        have hopen := h.quote [] tail
        rwa [h.nil] at hopen
      rw [htext, hquoted, h.quote, h.bar, ← hrest, ← htail, ih]
      simp [wrapped]

/-- Blanks around a quoted text and its quotes are taken off. -/
theorem unquote_trim {before after : List Char} (hbefore : Blank before) (hafter : Blank after)
    (cs : List Char) : unquote (Text.trim (before ++ '\'' :: (cs ++ '\'' :: after))) = cs := by
  have hsplit : '\'' :: (cs ++ '\'' :: after) = '\'' :: (cs ++ ['\'']) ++ after := by simp
  rw [Text.trim_blank_append hbefore, hsplit, Text.trim_append_blank hafter,
    Text.trim_of_ends (by decide) (by decide)]
  simp [unquote, dropQuote, isQuoteMark]

/-- A quoted word between blanks is one piece, and is read as the word. -/
theorem exists_piece_wrapped {change : List Char → List Char} (h : KeepsQuoted change)
    {name : String} (hname : IsWord name) {before after : List Char} (hbefore : Blank before)
    (hafter : Blank after) :
    ∃ piece ∈ Text.splitOn '|' (before ++ wrapped change name ++ after),
      unquote (Text.trim piece) = name.toList := by
  have htext : before ++ wrapped change name ++ after
      = before ++ '\'' :: (name.toList ++ '\'' :: after) := by
    rw [wrapped, hname.escapeBy_eq, h.word name hname]
    simp
  have hblank (blanks : List Char) (hb : Blank blanks) : '|' ∉ blanks :=
    fun hm => absurd (hb '|' hm) (by decide)
  have hbar : '|' ∉ before ++ '\'' :: (name.toList ++ '\'' :: after) := by
    have hword : '|' ∉ name.toList := hname.notMem (by decide)
    simp [hblank before hbefore, hblank after hafter, hword]
  rw [htext, Text.splitOn_of_not_mem hbar]
  exact ⟨_, List.mem_singleton_self _, unquote_trim hbefore hafter _⟩

/-- A quoted word among others is a piece of its own. -/
theorem exists_piece_of_mem {change : List Char → List Char} (h : KeepsQuoted change)
    {name : String} (hname : IsWord name) {values : List String} (hmem : name ∈ values)
    {before : List Char} (hbefore : Blank before) :
    ∃ piece ∈ Text.splitOn '|'
        (before ++ List.intercalate " | ".toList (values.map (wrapped change))),
      unquote (Text.trim piece) = name.toList := by
  induction values generalizing before with
  | nil => exact nomatch hmem
  | cons v rest ih =>
    cases rest with
    | nil =>
      obtain rfl := List.mem_singleton.1 hmem
      have hpiece := exists_piece_wrapped h hname hbefore Text.blank_nil
      rw [List.map_singleton, List.intercalate_singleton]
      rwa [List.append_nil] at hpiece
    | cons w rest =>
      have hsplit : before ++ List.intercalate " | ".toList ((v :: w :: rest).map (wrapped change))
          = (before ++ wrapped change v ++ [' '])
            ++ '|' :: ([' ']
              ++ List.intercalate " | ".toList ((w :: rest).map (wrapped change))) := by
        simp
      rw [hsplit, Text.splitOn_append_sep]
      rcases List.mem_cons.1 hmem with rfl | hmem
      · obtain ⟨piece, hpiece, hread⟩ :=
          exists_piece_wrapped h hname hbefore Text.blank_space
        exact ⟨piece, List.mem_append_left _ hpiece, hread⟩
      · obtain ⟨piece, hpiece, hread⟩ := ih hmem Text.blank_space
        exact ⟨piece, List.mem_append_right _ hpiece, hread⟩

/-! ## 4. Alternatives -/

/-- The alternatives of a text that has been changed. -/
theorem mem_alternatives_of_change {change : List Char → List Char} (h : KeepsQuoted change)
    {name : String} (hname : IsWord name) {values : List String} (hmem : name ∈ values) :
    name ∈ alternatives (String.ofList (change (literalUnion values).toList)) := by
  have hall := keepsQuoted_dropNullMembers.comp (keepsQuoted_arrayMarks.comp h)
  obtain ⟨piece, hpiece, hread⟩ := exists_piece_of_mem hall hname hmem Text.blank_nil
  rw [List.nil_append, ← hall.literalUnion] at hpiece
  refine List.mem_map.2 ⟨piece, ?_, ?_⟩
  · rwa [String.toList_ofList]
  · rw [hread, String.ofList_toList]

/-- **A word among quoted names** is one of the alternatives, with or without null members. -/
theorem mem_alternatives_literalUnion (config : Config) {name : String} (hname : IsWord name)
    {values : List String} (hmem : name ∈ values) :
    name ∈ alternatives (Interface.shownType config (literalUnion values)) := by
  unfold Interface.shownType
  split
  · have hself : KeepsQuoted id := ⟨rfl, fun _ _ => rfl, rfl, fun _ _ => rfl⟩
    have hmem' := mem_alternatives_of_change hself hname hmem
    rwa [id, String.ofList_toList] at hmem'
  · exact mem_alternatives_of_change keepsQuoted_nullMark hname hmem

theorem dropQuote_eq_self {cs : List Char} (h : ∀ c ∈ cs, isQuoteMark c = false) :
    dropQuote cs = cs := by
  cases cs with
  | nil => rfl
  | cons c r => rw [dropQuote, if_neg (by simp [h c List.mem_cons_self])]

/-- **A word that stands alone**, but for marks of lists, is the only alternative. -/
theorem alternatives_of_word {name : String} (hname : IsWord name) {expr : String}
    (hbare : Text.replaceAll ['[', ']'] [] expr.toList = name.toList) :
    alternatives expr = [name] := by
  have hbar : '|' ∉ name.toList := hname.notMem (by decide)
  have hmark : ∀ c ∈ name.toList, isQuoteMark c = false := by
    intro c hc
    rw [isQuoteMark, Bool.or_eq_false_iff, beq_eq_false_iff_ne, beq_eq_false_iff_ne]
    exact ⟨fun e => hname.notMem (c := '\'') (by decide) (e ▸ hc),
      fun e => hname.notMem (c := '"') (by decide) (e ▸ hc)⟩
  have hquote : unquote name.toList = name.toList := by
    rw [unquote, dropQuote_eq_self hmark,
      dropQuote_eq_self fun c hc => hmark c (List.mem_reverse.1 hc), List.reverse_reverse]
  rw [alternatives]
  simp only [hbare, dropNullMembers_of_notMem hbar, Text.splitOn_of_not_mem hbar,
    List.map_singleton, Text.trim_eq_self hname.isBlank_eq_false, hquote, String.ofList_toList]

/-- The marks of a list are taken off. -/
theorem replaceAll_arrayMarks {cs : List Char} (h : '[' ∉ cs) :
    Text.replaceAll ['[', ']'] [] (cs ++ ['[', ']']) = cs := by
  induction cs with
  | nil => simp [Text.replaceAll]
  | cons c r ih =>
    have hc : '[' ≠ c := fun e => h (e ▸ List.mem_cons_self)
    rw [List.cons_append, Text.replaceAll, if_neg (by simp [hc]),
      ih fun hm => h (List.mem_cons_of_mem _ hm)]

theorem mem_references {name expr : String} {entities : List String}
    (halternative : name ∈ alternatives expr) (hentity : name ∈ entities)
    (hlanguage : name ∉ languageTypes) : name ∈ references expr entities := by
  simp [references, halternative, hentity, hlanguage]

/-- A type of the language is never taken for an entity. -/
theorem notMem_languageTypes {name expr : String} {entities : List String}
    (h : name ∈ references expr entities) : name ∉ languageTypes := by
  intro hm
  simp [references, hm] at h

/-! ## 5. Relations -/

theorem cardinality?_eq_oneOf {relation : String} (h : cardinality? relation = some .oneOf) :
    relation = "MorphTo" := by
  unfold cardinality? at h
  split at h
  · exact eq_of_beq ‹_›
  · split at h
    · cases h
    · split at h <;> cases h

theorem headD_givenTarget {target : Option String} {entity : String}
    (h : entity ∈ givenTarget target) : (givenTarget target).headD unknown = entity := by
  cases target with
  | none => exact nomatch h
  | some t =>
    obtain ⟨hmem, hne⟩ := List.mem_filter.1 h
    obtain rfl := List.mem_singleton.1 hmem
    simp only [givenTarget, Option.toList_some, List.filter_cons, hne, if_true, List.headD_cons]

/-- What a relation leads to, and how its type shows it. -/
theorem ofRelation_cases {relation : String} {target : Option String} {targets : List String}
    {entity : String} (h : entity ∈ (ofRelation relation target targets).entities) :
    (relation = "MorphTo" ∧ entity ∈ targets) ∨
      (relation ≠ "MorphTo" ∧
        ((ofRelation relation target targets).expr = entity ∨
          (ofRelation relation target targets).expr = entity ++ "[]")) := by
  unfold ofRelation at h ⊢
  dsimp only at h ⊢
  cases hc : cardinality? relation with
  | none =>
    rw [hc] at h
    exact nomatch h
  | some cardinality =>
    rw [hc] at h
    cases cardinality with
    | oneOf =>
      refine .inl ⟨cardinality?_eq_oneOf hc, ?_⟩
      dsimp only at h
      split at h
      · exact nomatch h
      · exact h
    | one =>
      refine .inr ⟨?_, .inl (headD_givenTarget h)⟩
      rintro rfl
      exact absurd hc (by decide)
    | many =>
      refine .inr ⟨?_, .inr (congrArg (· ++ "[]") (headD_givenTarget h))⟩
      rintro rfl
      exact absurd hc (by decide)

end TypeExpr

namespace Interface

open TypeExpr (IsWord languageTypes references alternatives literalUnion)

variable (collection : Collection) (config : Config) (name : String) {p : Property}
  {relation : String} {target : Option String} {targets : List String}

/-- A relation to one of several entities has a field that quotes all of them. -/
theorem exists_field_of_targets (hkind : p.kind = .association "MorphTo" target targets)
    (hne : targets ≠ []) :
    ∃ f ∈ expand collection config name p,
      f.type = shownType config (literalUnion targets) := by
  have hempty : targets.isEmpty = false := by rwa [List.isEmpty_eq_false_iff]
  have hfields : expandStrict collection config name p
      = oneOfFields config name targets (labelText config p.displayName) := by
    simp only [expandStrict, customTypeOf?, hkind]
  have hfirst : (⟨name ++ "Type", literalUnion targets, true, config.isReadonly,
      some ("Polymorphic type for " ++ name)⟩ : InterfaceField)
        ∈ expandStrict collection config name p := by
    rw [hfields, oneOfFields, hempty]
    exact List.mem_cons_self
  exact ⟨_, List.mem_map_of_mem hfirst, applyNullPolicy_type _⟩

/-- Every other relation has one field. -/
theorem expand_of_relation (hkind : p.kind = .association relation target targets)
    (hne : relation ≠ "MorphTo") :
    ∃ f ∈ expand collection config name p,
      f.type = shownType config (TypeExpr.ofRelation relation target targets).expr := by
  have hfields : expandStrict collection config name p
      = [singleField config name p (TypeExpr.ofRelation relation target targets).expr
          (labelText config p.displayName)] := by
    have hcustom : customTypeOf? config p = none := by simp only [customTypeOf?, hkind]
    unfold expandStrict
    rw [hcustom]
    dsimp only
    split
    · rename_i hmorph
      rw [hkind] at hmorph
      exact absurd (PropertyKind.association.inj hmorph).1 hne
    · simp only [TypeExpr.resolve, hkind]
  have hsingle : singleField config name p (TypeExpr.ofRelation relation target targets).expr
      (labelText config p.displayName) ∈ expandStrict collection config name p := by
    rw [hfields]
    exact List.mem_cons_self
  exact ⟨_, List.mem_map_of_mem hsingle, applyNullPolicy_type _⟩

/-- **A field shows each entity** that a relation leads to. -/
theorem exists_field_of_relation (hkind : p.kind = .association relation target targets)
    {entity : String} (hword : IsWord entity)
    (hmem : entity ∈ (TypeExpr.resolve p (some collection) config.customTypes).entities) :
    ∃ f ∈ expand collection config name p, entity ∈ alternatives f.type := by
  have hrelation : entity ∈ (TypeExpr.ofRelation relation target targets).entities := by
    simp only [TypeExpr.resolve, hkind] at hmem
    exact (List.mem_filter.1 hmem).1
  rcases TypeExpr.ofRelation_cases hrelation with ⟨rfl, htarget⟩ | ⟨hne, hexpr⟩
  · obtain ⟨f, hf, htype⟩ :=
      exists_field_of_targets collection config name hkind (List.ne_nil_of_mem htarget)
    exact ⟨f, hf, htype ▸ TypeExpr.mem_alternatives_literalUnion config hword htarget⟩
  · obtain ⟨f, hf, htype⟩ := expand_of_relation collection config name hkind hne
    refine ⟨f, hf, ?_⟩
    have hbracket : '[' ∉ entity.toList := hword.notMem (by decide)
    have hspace : ' ' ∉ (TypeExpr.ofRelation relation target targets).expr.toList := by
      have : ' ' ∉ entity.toList := hword.notMem (by decide)
      rcases hexpr with hexpr | hexpr <;> simp [hexpr, this]
    have hbare : Text.replaceAll ['[', ']'] [] f.type.toList = entity.toList := by
      rw [htype, shownType_of_notMem hspace]
      rcases hexpr with hexpr | hexpr
      · rw [hexpr, Text.replaceAll_of_notMem hbracket]
      · rw [hexpr, String.toList_append]
        exact TypeExpr.replaceAll_arrayMarks hbracket
    rw [TypeExpr.alternatives_of_word hword hbare]
    exact List.mem_singleton_self _

/-- **Dependencies on entities that relations lead to.**  Where the names of entities are words, an
entity depends on each other entity that one of its relations leads to, unless that is named like a
type of the language.  Its dependencies rise strictly, and it is none of them. -/
theorem mem_dependencies_iff_of_relation
    (hnames : ∀ n ∈ collection.objectNames, IsWord n) (s : Schema) :
    (∀ e ∈ s.properties, ∀ relation target targets,
        e.2.kind = .association relation target targets →
        ∀ entity ∈ (TypeExpr.resolve e.2 (some collection) config.customTypes).entities,
          entity ≠ s.name →
          (entity ∈ (ofSchema collection config s).dependencies ↔ entity ∉ languageTypes)) ∧
      (ofSchema collection config s).dependencies.Pairwise (· < ·) ∧
      s.name ∉ (ofSchema collection config s).dependencies := by
  refine ⟨fun e he relation target targets hkind entity hmem hne => ?_,
    Text.pairwise_sortedSet _, self_not_mem_dependenciesOf _ _ _⟩
  have hentity : entity ∈ collection.objectNames := by
    simp only [TypeExpr.resolve, hkind] at hmem
    exact List.contains_iff_mem.1 (List.mem_filter.1 hmem).2
  obtain ⟨f, hf, halternative⟩ := exists_field_of_relation collection config e.1 hkind
    (hnames entity hentity) hmem
  have hfield : f ∈ fieldsOf collection config s := by
    unfold fieldsOf
    have hflat : f ∈ s.properties.flatMap fun e => expand collection config e.1 e.2 :=
      List.mem_flatMap.2 ⟨e, he, hf⟩
    simp only [List.mem_append, hflat, or_true, true_or]
  simp only [ofSchema, dependenciesOf, Text.mem_sortedSet, List.mem_filter, List.mem_flatMap,
    bne_iff_ne]
  constructor
  · rintro ⟨⟨g, -, hg⟩, -⟩
    exact TypeExpr.notMem_languageTypes hg
  · intro hlanguage
    exact ⟨⟨f, hfield, TypeExpr.mem_references halternative hentity hlanguage⟩, hne⟩

/-- A comment on one of two entities; the name of one begins like a null member. -/
def commented : Collection :=
  ⟨[{ name := "Comment"
      properties :=
        [("subject", { tag := "Association"
                       kind := .association "MorphTo" none ["Post", "nullable"] })] },
    { name := "Post" }, { name := "nullable" }]⟩

theorem mem_dependencies_commented :
    (∀ n ∈ commented.objectNames, IsWord n) ∧
      ∃ s ∈ commented.objectSchemas, s.name = "Comment" ∧
        "nullable" ∈ (ofSchema commented {} s).dependencies ∧
        "nullable" ∈ (ofSchema commented { strictNullChecks := false } s).dependencies := by
  have hnames : ∀ n ∈ commented.objectNames, IsWord n := by decide +kernel
  have hmem : commented.schemas[0] ∈ commented.objectSchemas := List.mem_cons_self
  have hentity : "nullable" ∈ ["Post", "nullable"].filter (commented.objectNames.contains ·) := by
    decide
  have hall (config : Config) := (mem_dependencies_iff_of_relation commented config hnames
    commented.schemas[0]).1 _ List.mem_cons_self "MorphTo" none ["Post", "nullable"] rfl "nullable"
      hentity (by decide)
  exact ⟨hnames, _, hmem, rfl, (hall _).2 (by decide), (hall _).2 (by decide)⟩

/-- A note with a text, which is an entity with the name of a type of the language. -/
def noted : Collection :=
  ⟨[{ name := "Note"
      properties :=
        [("text", { tag := "Association"
                    kind := .association "ManyToOne" (some "string") [] })] },
    { name := "string" }]⟩

/-- An entity with the name of a type of the language is no dependency. -/
theorem not_mem_dependencies_noted :
    (∀ n ∈ noted.objectNames, IsWord n) ∧
      ∃ s ∈ noted.objectSchemas, ∃ e ∈ s.properties,
        e.2.kindTag = .association ∧
        (TypeExpr.resolve e.2 (some noted) []).entities = ["string"] ∧ "string" ≠ s.name ∧
        "string" ∉ (ofSchema noted {} s).dependencies := by
  refine ⟨by decide +kernel, noted.schemas[0], List.mem_cons_self, _, List.mem_cons_self, rfl, ?_⟩
  decide +kernel

end Interface

end SchemaTypes
