/-
# Small forms

The small form of a text is its own small form (`lower_lower`) and has no ASCII capitals
(`isCapital_of_mem_lower`).  Characters that stay as they are wherever they stand are called
settled; the images of the case tables are settled because no run leads to a character that
another run covers (`lowerRuns_apart`).  An underscore separates words for the final sigma, so that
a text is put into small form piece by piece (`lower_append_underscore`).
-/
import Mathlib
import SchemaTypes.Proofs.Naming

namespace SchemaTypes.Text

/-! ## 1. Images of the tables -/

/-- Where a run takes a code point. -/
def CaseRun.image (r : CaseRun) (n : Nat) : Nat := (Int.ofNat n + r.shift).toNat

/-- No image of the first run is covered by the second: all images lie on one side of it, or
between its steps. -/
def CaseRun.apart (r r' : CaseRun) : Bool :=
  Nat.blt (r.image r.last) r'.first || Nat.blt r'.last (r.image r.first)
    || (r'.step == 2 && (r.step == 2 || r.first == r.last)
      && r.image r.first % 2 != r'.first % 2)

theorem lowerRuns_apart :
    (lowerRuns.all fun r => lowerRuns.all r.apart) = true := by decide +kernel

/-- No image is one of the characters that become several. -/
theorem lowerRuns_unexpanded :
    (lowerRuns.all fun r => Nat.blt (r.image r.last) 0x130 || Nat.blt 0x130 (r.image r.first))
      = true := by decide +kernel

theorem CaseRun.covers_iff {r : CaseRun} {n : Nat} :
    r.covers n = true ↔ r.first ≤ n ∧ n ≤ r.last ∧ (n - r.first) % r.step = 0 := by
  simp only [CaseRun.covers, Bool.and_eq_true, decide_eq_true_eq, beq_iff_eq, and_assoc]

/-- The image of a covered code point lies between those of the ends of the run. -/
theorem CaseRun.image_bounds {r : CaseRun} (h : 47 < (r.first : Int) + r.shift) {n : Nat}
    (hn : r.covers n = true) :
    (r.image n : Int) = n + r.shift ∧ r.image r.first ≤ r.image n ∧
      r.image n ≤ r.image r.last := by
  obtain ⟨hfirst, hlast, -⟩ := CaseRun.covers_iff.1 hn
  simp only [CaseRun.image, Int.ofNat_eq_natCast]
  omega

/-- **Images are not covered**, so that no character changes twice. -/
theorem not_covers_image {r r' : CaseRun} (hr : r ∈ lowerRuns) (hr' : r' ∈ lowerRuns) {n : Nat}
    (hn : r.covers n = true) : r'.covers (r.image n) = false := by
  have hapart := List.all_eq_true.1 (List.all_eq_true.1 lowerRuns_apart r hr) r' hr'
  have hpos := lower_liesBehind.runs r hr
  obtain ⟨himage, hlow, hhigh⟩ := CaseRun.image_bounds hpos hn
  obtain ⟨hfirst, hlast, hstep⟩ := CaseRun.covers_iff.1 hn
  by_contra hcovers
  obtain ⟨hfirst', hlast', hstep'⟩ := CaseRun.covers_iff.1 (Bool.not_eq_false _ ▸ hcovers)
  simp only [CaseRun.apart, Bool.or_eq_true, Bool.and_eq_true, Nat.blt_eq, beq_iff_eq,
    bne_iff_ne] at hapart
  rcases hapart with (hbefore | hbehind) | ⟨⟨htwo', hends⟩, hparity⟩
  · omega
  · omega
  -- Between the steps: images and covered code points are of different parity.
  · have hstart : (r.image r.first : Int) = r.first + r.shift := by
      simp only [CaseRun.image, Int.ofNat_eq_natCast]
      omega
    rw [htwo'] at hstep'
    rcases hends with htwo | hsingle
    · rw [htwo] at hstep
      omega
    · omega

/-! ## 2. Settled characters -/

/-- A character that the small form leaves as it is. -/
def Settled (c : Char) : Prop := c ≠ 'Σ' ∧ lowerChar c = [c]

instance : DecidablePred Settled := fun _ => inferInstanceAs (Decidable (_ ∧ _))

/-- An ASCII character that is no capital is settled. -/
theorem settled_ascii {c : Char} (h : c.toNat < 0x80) (hc : isCapital c = false) : Settled c := by
  refine ⟨?_, lowerChar_ascii h hc⟩
  rintro rfl
  exact absurd h (by decide)

/-- A settled character is no ASCII capital. -/
theorem Settled.isCapital {c : Char} (h : Settled c) : isCapital c = false := by
  by_contra hc
  rw [Bool.not_eq_false] at hc
  have hrange := hc
  simp only [Text.isCapital, Bool.and_eq_true, decide_eq_true_eq] at hrange
  have hle : c.toNat ≤ 90 := hrange.2
  have hascii : c.toNat < 0x80 := by omega
  have hlow := h.2
  rw [lowerChar, if_pos hascii, if_pos hc, List.cons.injEq] at hlow
  have hvalid : (c.toNat + 32).isValidChar := .inl (by omega)
  have htoNat := congrArg Char.toNat hlow.1
  rw [Char.toNat_ofNat, if_pos hvalid] at htoNat
  omega

/-- What no table changes is settled. -/
theorem settled_of_uncovered {c : Char} (hcovers : ∀ r ∈ lowerRuns, r.covers c.toNat = false)
    (hexpansions : lowerExpansions.lookup c.toNat = none) : Settled c := by
  have hfind : lowerRuns.find? (·.covers c.toNat) = none := by
    rw [List.find?_eq_none]
    intro r hr
    rw [hcovers r hr]
    exact Bool.false_ne_true
  have hsigma : c ≠ 'Σ' := by
    rintro rfl
    exact absurd hfind (by decide +kernel)
  refine ⟨hsigma, ?_⟩
  by_cases hascii : c.toNat < 0x80
  · have hrun : ⟨0x41, 0x5A, 1, 32⟩ ∈ lowerRuns := List.mem_cons_self
    have hcapital : isCapital c = false := by
      by_contra hc
      rw [Bool.not_eq_false] at hc
      simp only [isCapital, Bool.and_eq_true, decide_eq_true_eq] at hc
      have hlow : 65 ≤ c.toNat := hc.1
      have hhigh : c.toNat ≤ 90 := hc.2
      have := hcovers _ hrun
      rw [CaseRun.covers_iff.2 ⟨hlow, hhigh, Nat.mod_one _⟩] at this
      cases this
    exact lowerChar_ascii hascii hcapital
  · rw [lowerChar, if_neg hascii, mapCase, hexpansions, shiftBy, hfind]

/-- The image of a covered code point is settled. -/
theorem settled_image {r : CaseRun} (hr : r ∈ lowerRuns) {n : Nat} (hn : r.covers n = true) :
    Settled (Char.ofNat (r.image n)) := by
  by_cases hvalid : (r.image n).isValidChar
  · have htoNat : (Char.ofNat (r.image n)).toNat = r.image n := by
      rw [Char.toNat_ofNat, if_pos hvalid]
    refine settled_of_uncovered ?_ ?_
    · intro r' hr'
      rw [htoNat]
      exact not_covers_image hr hr' hn
    · obtain ⟨-, hlow, hhigh⟩ := CaseRun.image_bounds (lower_liesBehind.runs r hr) hn
      have hside := List.all_eq_true.1 lowerRuns_unexpanded r hr
      simp only [Bool.or_eq_true, Nat.blt_eq] at hside
      have hne : r.image n ≠ 0x130 := by omega
      rw [htoNat, lowerExpansions, List.lookup_cons, beq_false_of_ne hne, List.lookup_nil]
  · rw [Char.ofNat, dif_neg hvalid]
    decide

theorem settled_of_mem_mapCase {c : Char} :
    ∀ x ∈ mapCase lowerRuns lowerExpansions c, Settled x := by
  have hexpanded : ∀ e ∈ lowerExpansions, ∀ n ∈ e.2, Settled (Char.ofNat n) := by decide +kernel
  intro x hx
  unfold mapCase at hx
  split at hx
  · rename_i ns hns
    obtain ⟨n, hn, rfl⟩ := List.mem_map.1 hx
    obtain ⟨before, after, heq, -⟩ := List.lookup_eq_some_iff.1 hns
    exact hexpanded (c.toNat, ns) (by simp [heq]) n hn
  · rename_i hnone
    rw [List.mem_singleton.1 hx]
    unfold shiftBy
    split
    · rename_i r hr
      have hcovers : r.covers c.toNat = true := by simpa using List.find?_some hr
      exact settled_image (List.mem_of_find?_eq_some hr) hcovers
    · rename_i hfind
      refine settled_of_uncovered (fun r hr => ?_) hnone
      simpa using List.find?_eq_none.1 hfind r hr

theorem settled_of_mem_lowerChar {c : Char} : ∀ x ∈ lowerChar c, Settled x := by
  intro x hx
  unfold lowerChar at hx
  split at hx
  · rename_i hascii
    rw [List.mem_singleton.1 hx]
    split
    · rename_i hcapital
      simp only [isCapital, Bool.and_eq_true, decide_eq_true_eq] at hcapital
      have hlow : 65 ≤ c.toNat := hcapital.1
      have hhigh : c.toNat ≤ 90 := hcapital.2
      have hvalid : (c.toNat + 32).isValidChar := .inl (by omega)
      have htoNat : (Char.ofNat (c.toNat + 32)).toNat = c.toNat + 32 := by
        rw [Char.toNat_ofNat, if_pos hvalid]
      refine settled_ascii (by omega) ?_
      by_contra h
      simp only [isCapital, Bool.not_eq_false, Bool.and_eq_true, decide_eq_true_eq] at h
      have : (Char.ofNat (c.toNat + 32)).toNat ≤ 90 := h.2
      omega
    · rename_i hcapital
      exact settled_ascii hascii (by simpa using hcapital)
  · exact settled_of_mem_mapCase x hx

/-! ## 3. Texts -/

/-- A small form is made of settled characters. -/
theorem settled_of_mem_lowerAfter {before cs : List Char} :
    ∀ x ∈ lowerAfter before cs, Settled x := by
  intro x hx
  rcases mem_lowerAfter hx with rfl | rfl | ⟨c, -, hx⟩
  · decide +kernel
  · decide +kernel
  · exact settled_of_mem_lowerChar x hx

theorem isCapital_of_mem_lower {cs : List Char} : ∀ x ∈ lower cs, isCapital x = false :=
  fun x hx => (settled_of_mem_lowerAfter x hx).isCapital

/-- Settled characters stay as they are behind any text. -/
theorem lowerAfter_eq_self {before cs : List Char} (h : ∀ c ∈ cs, Settled c) :
    lowerAfter before cs = cs := by
  induction cs generalizing before with
  | nil => rfl
  | cons c r ih =>
    obtain ⟨hc, hr⟩ := List.forall_mem_cons.1 h
    rw [lowerAfter, ih hr, lowerBetween, if_neg hc.1, hc.2, List.singleton_append]

/-- **A small form is its own small form.** -/
theorem lower_lower (cs : List Char) : lower (lower cs) = lower cs :=
  lowerAfter_eq_self settled_of_mem_lowerAfter

/-! ## 4. Pieces of a text -/

/-- No word reaches over an underscore. -/
theorem startsCased_append_underscore (cs rest : List Char) :
    startsCased (cs ++ '_' :: rest) = startsCased cs := by
  have hunderscore : isCaseIgnorable '_' = false := by decide +kernel
  unfold startsCased
  rw [List.find?_append]
  cases hf : cs.find? (!isCaseIgnorable ·) with
  | some c => rfl
  | none =>
    rw [Option.none_or, List.find?_cons_of_pos (by rw [hunderscore]; rfl)]
    decide

/-- What stands in front of an underscore does not change the text behind it. -/
theorem lowerAfter_underscore (before x cs : List Char) :
    lowerAfter (before ++ '_' :: x) cs = lowerAfter before cs := by
  induction cs generalizing before with
  | nil => rfl
  | cons c r ih =>
    have hbetween : lowerBetween (before ++ '_' :: x) c r = lowerBetween before c r := by
      rw [lowerBetween, lowerBetween, startsCased_append_underscore]
    rw [lowerAfter, lowerAfter, hbetween, ← List.cons_append, ih]

theorem lowerAfter_append_underscore (before a b : List Char) :
    lowerAfter before (a ++ '_' :: b) = lowerAfter before a ++ '_' :: lower b := by
  -- The text in front grows with each character of `a` and is forgotten at the underscore.
  induction a generalizing before with
  | nil =>
    have hunderscore : lowerBetween before '_' b = ['_'] := by
      rw [lowerBetween, if_neg (by decide), lowerChar_ascii (by decide) (by decide)]
    simp only [List.nil_append, lowerAfter, hunderscore]
    exact congrArg ('_' :: ·) (lowerAfter_underscore [] before b)
  | cons c r ih =>
    have hbetween : lowerBetween before c (r ++ '_' :: b) = lowerBetween before c r := by
      rw [lowerBetween, lowerBetween, startsCased_append_underscore]
    rw [List.cons_append, lowerAfter, lowerAfter, hbetween, ih, List.append_assoc]

/-- **The small form of two texts with an underscore between them** is made of their own. -/
theorem lower_append_underscore (a b : List Char) :
    lower (a ++ '_' :: b) = lower a ++ '_' :: lower b :=
  lowerAfter_append_underscore [] a b

end SchemaTypes.Text
