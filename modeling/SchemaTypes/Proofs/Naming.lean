/-
# Names that become names of files

A type that is generated has a file of its name.  This works out as long as the name holds neither
a slash nor a dot (`Naming.IsStem`), which is so for every identifier of the language.  Names that
are made from such names by changing the case of their words are of the same kind
(`Naming.IsStem.pascal`): the case tables have no slash and no dot among their images.  The same
holds of every class of characters that keeps out only what stands before the digits
(`Text.OutlastsCase`).
-/
import Mathlib
import SchemaTypes.Enumeration

namespace SchemaTypes

open Text

/-! ## 1. Changing case -/

namespace Text

/-- A class of characters that changes of case do not lead out of: it has all that stands behind
the slash, and the character that stands for what is none. -/
structure OutlastsCase (P : Char → Prop) : Prop where
  null : P (Char.ofNat 0)
  behind : ∀ c : Char, 47 < c.toNat → P c

/-- A character that is neither a slash nor a dot. -/
def FitsStem (c : Char) : Prop := c ≠ '/' ∧ c ≠ '.'

instance : DecidablePred FitsStem := fun _ => inferInstanceAs (Decidable (_ ∧ _))

/-- A character up to the slash can be kept out. -/
theorem outlastsCase_ne {d : Char} (h : d.toNat ≤ 47) (hnull : Char.ofNat 0 ≠ d) :
    OutlastsCase (· ≠ d) :=
  ⟨hnull, fun _ hc he => absurd h (Nat.not_le.2 (he ▸ hc))⟩

theorem outlastsCase_fitsStem : OutlastsCase FitsStem where
  null := ⟨by decide, by decide⟩
  behind c hc :=
    ⟨(outlastsCase_ne (d := '/') (by decide) (by decide)).behind c hc,
      (outlastsCase_ne (d := '.') (by decide) (by decide)).behind c hc⟩

/-- A table of changes of case whose images all lie behind the slash. -/
structure LiesBehind (runs : List CaseRun) (expansions : List (Nat × List Nat)) : Prop where
  runs : ∀ r ∈ runs, 47 < (r.first : Int) + r.shift
  expansions : ∀ e ∈ expansions, ∀ n ∈ e.2, 47 < n

theorem lower_liesBehind : LiesBehind lowerRuns lowerExpansions :=
  ⟨by decide +kernel, by decide +kernel⟩

theorem upper_liesBehind : LiesBehind upperRuns upperExpansions :=
  ⟨by decide +kernel, by decide +kernel⟩

namespace OutlastsCase

variable {P : Char → Prop}

theorem ofNat (h : OutlastsCase P) {n : Nat} (hn : 47 < n) : P (Char.ofNat n) := by
  by_cases hv : n.isValidChar
  · refine h.behind _ ?_
    rwa [Char.toNat_ofNat, if_pos hv]
  · rw [Char.ofNat, dif_neg hv]
    exact h.null

theorem shiftBy (h : OutlastsCase P) {runs : List CaseRun}
    (hruns : ∀ r ∈ runs, 47 < (r.first : Int) + r.shift) {c : Char} (hc : P c) :
    P (shiftBy runs c) := by
  unfold Text.shiftBy
  split
  · rename_i r hr
    have hpos := hruns r (List.mem_of_find?_eq_some hr)
    have hcovers := List.find?_some hr
    simp only [CaseRun.covers, Bool.and_eq_true, decide_eq_true_eq] at hcovers
    refine h.ofNat ?_
    have := hcovers.1.1
    simp only [Int.ofNat_eq_natCast]
    omega
  · exact hc

theorem mapCase (h : OutlastsCase P) {runs : List CaseRun} {expansions : List (Nat × List Nat)}
    (hbehind : LiesBehind runs expansions) {c : Char} (hc : P c) :
    ∀ x ∈ mapCase runs expansions c, P x := by
  intro x hx
  unfold Text.mapCase at hx
  split at hx
  · rename_i cs hcs
    obtain ⟨n, hn, rfl⟩ := List.mem_map.1 hx
    obtain ⟨before, after, rfl, -⟩ := List.lookup_eq_some_iff.1 hcs
    exact h.ofNat (hbehind.expansions (c.toNat, cs) (by simp) n hn)
  · rw [List.mem_singleton.1 hx]
    exact h.shiftBy hbehind.runs hc

theorem lowerChar (h : OutlastsCase P) {c : Char} (hc : P c) : ∀ x ∈ lowerChar c, P x := by
  intro x hx
  unfold Text.lowerChar at hx
  split at hx
  · rw [List.mem_singleton.1 hx]
    split
    · rename_i hcapital
      simp only [isCapital, Bool.and_eq_true, decide_eq_true_eq] at hcapital
      have : 65 ≤ c.toNat := hcapital.1
      exact h.ofNat (by omega)
    · exact hc
  · exact h.mapCase lower_liesBehind hc x hx

theorem upperChar (h : OutlastsCase P) {c : Char} (hc : P c) : ∀ x ∈ upperChar c, P x := by
  intro x hx
  unfold Text.upperChar at hx
  split at hx
  · rw [List.mem_singleton.1 hx]
    split
    · rename_i hsmall
      simp only [isSmall, Bool.and_eq_true, decide_eq_true_eq] at hsmall
      have : 97 ≤ c.toNat := hsmall.1
      exact h.ofNat (by omega)
    · exact hc
  · exact h.mapCase upper_liesBehind hc x hx

end OutlastsCase

/-- Each character of a small form comes from one of the text, or is a small sigma. -/
theorem mem_lowerAfter {before cs : List Char} {x : Char} (hx : x ∈ lowerAfter before cs) :
    x = 'σ' ∨ x = 'ς' ∨ ∃ c ∈ cs, x ∈ lowerChar c := by
  induction cs generalizing before with
  | nil => exact nomatch hx
  | cons c r ih =>
    rcases List.mem_append.1 hx with hx | hx
    · unfold lowerBetween at hx
      split at hx
      · rw [List.mem_singleton.1 hx]
        split
        · exact .inr (.inl rfl)
        · exact .inl rfl
      · exact .inr (.inr ⟨c, List.mem_cons_self, hx⟩)
    · rcases ih hx with h | h | ⟨d, hd, h⟩
      · exact .inl h
      · exact .inr (.inl h)
      · exact .inr (.inr ⟨d, List.mem_cons_of_mem _ hd, h⟩)

theorem OutlastsCase.lowerAfter {P : Char → Prop} (h : OutlastsCase P) (before : List Char)
    {cs : List Char} (hcs : ∀ c ∈ cs, P c) : ∀ x ∈ lowerAfter before cs, P x := by
  intro x hx
  rcases mem_lowerAfter hx with rfl | rfl | ⟨c, hc, hx⟩
  · exact h.behind 'σ' (by decide)
  · exact h.behind 'ς' (by decide)
  · exact h.lowerChar (hcs c hc) x hx

end Text

/-! ## 2. Names -/

namespace Naming

/-- A name that can be the name of a file in front of its suffix. -/
def IsStem (s : String) : Prop := ∀ c ∈ s.toList, FitsStem c

instance : DecidablePred IsStem := fun s =>
  decidable_of_iff (s.toList.all fun c => decide (FitsStem c)) (by simp [IsStem])

theorem IsStem.slash {s : String} (h : IsStem s) : '/' ∉ s.toList := fun hm => (h _ hm).1 rfl

theorem IsStem.dot {s : String} (h : IsStem s) : '.' ∉ s.toList := fun hm => (h _ hm).2 rfl

theorem IsStem.append {a b : String} (ha : IsStem a) (hb : IsStem b) : IsStem (a ++ b) := by
  intro c hc
  rw [String.toList_append, List.mem_append] at hc
  exact hc.elim (ha c) (hb c)

/-- The pieces of a text have its characters. -/
theorem mem_of_mem_splitAt {p : Char → Bool} {cs w : List Char} (hw : w ∈ splitAt p cs) {c : Char}
    (hc : c ∈ w) : c ∈ cs := by
  induction cs generalizing w with
  | nil =>
    rw [List.mem_singleton.1 hw] at hc
    exact hc
  | cons d r ih =>
    unfold splitAt at hw
    split at hw
    · rcases List.mem_cons.1 hw with rfl | hw
      · exact nomatch hc
      · exact List.mem_cons_of_mem _ (ih hw hc)
    · split at hw
      · rename_i v vs hvs
        rcases List.mem_cons.1 hw with rfl | hw
        · rcases List.mem_cons.1 hc with rfl | hc
          · exact List.mem_cons_self
          · exact List.mem_cons_of_mem _ (ih (hvs ▸ List.mem_cons_self) hc)
        · exact List.mem_cons_of_mem _ (ih (hvs ▸ List.mem_cons_of_mem _ hw) hc)
      · rw [List.mem_singleton.1 hw] at hc
        rw [List.mem_singleton.1 hc]
        exact List.mem_cons_self

/-- Words begin at underscores that are put in; nothing else is added. -/
theorem mem_markHumps {cs : List Char} {c : Char} (h : c ∈ markHumps cs) : c ∈ cs ∨ c = '_' := by
  induction cs using markHumps.induct with
  | case1 => exact nomatch h
  | case2 a => exact .inl h
  | case3 a b r hhump ih =>
    rw [markHumps, if_pos hhump] at h
    rcases List.mem_cons.1 h with rfl | h
    · exact .inl List.mem_cons_self
    · rcases List.mem_cons.1 h with rfl | h
      · exact .inr rfl
      · exact (ih h).imp_left (List.mem_cons_of_mem _)
  | case4 a b r hhump ih =>
    rw [markHumps, if_neg hhump] at h
    rcases List.mem_cons.1 h with rfl | h
    · exact .inl List.mem_cons_self
    · exact (ih h).imp_left (List.mem_cons_of_mem _)

theorem mem_markCapitals {cs : List Char} {c : Char} (h : c ∈ markCapitals cs) :
    c ∈ cs ∨ c = '_' := by
  induction cs with
  | nil => exact nomatch h
  | cons a r ih =>
    rw [markCapitals] at h
    split at h
    · rcases List.mem_cons.1 h with rfl | h
      · exact .inr rfl
      · rcases List.mem_cons.1 h with rfl | h
        · exact .inl List.mem_cons_self
        · exact (ih h).imp_left (List.mem_cons_of_mem _)
    · rcases List.mem_cons.1 h with rfl | h
      · exact .inl List.mem_cons_self
      · exact (ih h).imp_left (List.mem_cons_of_mem _)

theorem dropUnderscore_subset (cs : List Char) : dropUnderscore cs ⊆ cs := by
  unfold dropUnderscore
  split
  · exact List.subset_cons_self _ _
  · exact List.Subset.refl _

end Naming

namespace Text.OutlastsCase

open Naming

variable {P : Char → Prop} {cs : List Char}

theorem underscore (h : OutlastsCase P) : P '_' := h.behind '_' (by decide)

theorem capitalise (h : OutlastsCase P) (hcs : ∀ c ∈ cs, P c) : ∀ x ∈ capitalise cs, P x := by
  intro x hx
  cases cs with
  | nil => exact nomatch hx
  | cons c r =>
    obtain ⟨hc, hr⟩ := List.forall_mem_cons.1 hcs
    rcases List.mem_append.1 hx with hx | hx
    · exact h.upperChar hc x hx
    · exact h.lowerAfter [] hr x hx

theorem pascalChars (h : OutlastsCase P) (hcs : ∀ c ∈ cs, P c) : ∀ x ∈ pascalChars cs, P x := by
  intro x hx
  rw [Naming.pascalChars, joinWords, List.mem_flatMap] at hx
  obtain ⟨w, hw, hx⟩ := hx
  refine h.capitalise (fun c hc => ?_) x hx
  rcases mem_markHumps (mem_of_mem_splitAt hw hc) with hc | rfl
  · exact hcs c hc
  · exact h.underscore

theorem snakeChars (h : OutlastsCase P) (hcs : ∀ c ∈ cs, P c) : ∀ x ∈ snakeChars cs, P x := by
  refine h.lowerAfter [] fun c hc => ?_
  rcases mem_markCapitals (dropUnderscore_subset _ hc) with hc | rfl
  · exact hcs c hc
  · exact h.underscore

theorem lowerFirstChars (h : OutlastsCase P) (hcs : ∀ c ∈ cs, P c) :
    ∀ x ∈ lowerFirstChars cs, P x := by
  intro x hx
  cases cs with
  | nil => exact nomatch hx
  | cons c r =>
    obtain ⟨hc, hr⟩ := List.forall_mem_cons.1 hcs
    rcases List.mem_append.1 hx with hx | hx
    · exact h.lowerChar hc x hx
    · exact hr x hx

end Text.OutlastsCase

namespace Naming

/-- **The Pascal form of a name can name a file** if the name can. -/
theorem IsStem.pascal {s : String} (h : IsStem s) : IsStem (pascal s) := by
  rw [IsStem, Naming.pascal, String.toList_ofList]
  exact outlastsCase_fitsStem.pascalChars h

end Naming

/-- The type of a property has a name that can name a file. -/
theorem InlineEnum.isStem_typeName {schema property : String} (hs : Naming.IsStem schema)
    (hp : Naming.IsStem property) : Naming.IsStem (InlineEnum.typeName schema property) :=
  hs.append hp.pascal

end SchemaTypes
