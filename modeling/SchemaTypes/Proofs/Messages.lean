/-
# Filling all holes at once

A template is filled with one value after the other, so what one value puts in is scanned again for
the holes of the later ones.  `fillAtOnce` goes through the template once instead: where a hole of
some value stands, the value is put in and never looked at again; all other characters stay.

Both give the same text if no value completes a hole that is filled later (`Steady`,
`Steady.substitute_replaceAll`).  That is so for values that have none of the characters by which
holes begin and end, and one character that is not in the hole (`Inert`, `fill_eq_fillAtOnce`).
Nothing is asked of the last value.
-/
import SchemaTypes.Proofs.Text.Completing
import SchemaTypes.Messages.Basic

namespace SchemaTypes.Messages

open Text (Completes replaceAll replaceAll_nil replaceAll_append replaceAll_cons_of_not
  replaceAll_append_of_not_completes prefix_append_cons_iff)

variable {values : List (String × String)} {v : String × String} {a b name : String}
  {cs into rest : List Char} {c : Char}

/-! ## 1. One pass -/

/-- The value whose hole begins the text. -/
def metAt (values : List (String × String)) (cs : List Char) : Option (String × String) :=
  values.find? fun v => (hole v.1).toList.isPrefixOf cs

/-- Goes through a text once and puts in the values whose holes it meets. -/
def substitute (values : List (String × String)) (cs : List Char) : List Char :=
  match cs with
  | [] => []
  | c :: r =>
    match metAt values (c :: r) with
    | some v => v.2.toList ++ substitute values (r.drop ((hole v.1).toList.length - 1))
    | none => c :: substitute values r
termination_by cs.length

/-- Puts all values into the holes of a template in one pass. -/
def fillAtOnce (template : String) (values : List (String × String)) : String :=
  String.ofList (substitute values template.toList)

@[simp] theorem substitute_nil (values : List (String × String)) : substitute values [] = [] := by
  rw [substitute]

/-! ## 2. Holes -/

theorem toList_hole (name : String) :
    (hole name).toList = '$' :: '{' :: (name.toList ++ ['}']) := by
  simp [hole]

theorem toList_hole_ne_nil (name : String) : (hole name).toList ≠ [] := by simp [toList_hole]

theorem two_le_length_hole (name : String) : 2 ≤ (hole name).toList.length := by
  simp [toList_hole]

/-- A name without the characters by which holes begin and end. -/
def Nameable (name : String) : Prop := '$' ∉ name.toList ∧ '}' ∉ name.toList

instance : DecidablePred Nameable := fun _ => inferInstanceAs (Decidable (_ ∧ _))

/-- A hole begins only at its beginning. -/
theorem Nameable.notMem_inner (h : Nameable name) : '$' ∉ '{' :: (name.toList ++ ['}']) := by
  simpa using h.1

/-- A hole that begins another one is the same. -/
theorem eq_of_hole_prefix_hole (hb : Nameable b) (h : (hole a).toList <+: (hole b).toList) :
    a = b := by
  simp only [toList_hole, List.cons_prefix_cons, true_and, List.prefix_concat_iff] at h
  rcases h with heq | hinside
  · exact String.toList_inj.1 (List.append_cancel_right heq)
  · exact absurd (hinside.subset (by simp)) hb.2

/-- At most one hole begins a text. -/
theorem eq_of_holes (ha : Nameable a) (hb : Nameable b) (hpa : (hole a).toList <+: cs)
    (hpb : (hole b).toList <+: cs) : a = b := by
  rcases List.prefix_or_prefix_of_prefix hpa hpb with h | h
  · exact eq_of_hole_prefix_hole hb h
  · exact (eq_of_hole_prefix_hole ha h).symm

theorem metAt_eq_some (h : metAt values cs = some v) :
    v ∈ values ∧ (hole v.1).toList <+: cs :=
  ⟨List.mem_of_find?_eq_some h, List.isPrefixOf_iff_prefix.1 (by simpa using List.find?_some h)⟩

theorem metAt_eq_none : metAt values cs = none ↔ ∀ v ∈ values, ¬(hole v.1).toList <+: cs := by
  simp [metAt, List.isPrefixOf_iff_prefix]

theorem metAt_cons_of_begins (h : (hole v.1).toList <+: cs) :
    metAt (v :: values) cs = some v :=
  List.find?_cons_of_pos (List.isPrefixOf_iff_prefix.2 h)

theorem metAt_cons_of_not (h : ¬(hole v.1).toList <+: cs) :
    metAt (v :: values) cs = metAt values cs :=
  List.find?_cons_of_neg (by rwa [List.isPrefixOf_iff_prefix])

/-! ## 3. Along one pass -/

/-- A value whose hole is met is put in. -/
theorem substitute_of_met (h : metAt values ((hole v.1).toList ++ rest) = some v) :
    substitute values ((hole v.1).toList ++ rest) = v.2.toList ++ substitute values rest := by
  obtain ⟨c, n, hcons⟩ := List.exists_cons_of_ne_nil (toList_hole_ne_nil v.1)
  rw [hcons, List.cons_append] at h ⊢
  rw [substitute, h]
  simp [hcons]

/-- Where no hole is met the character stays. -/
theorem substitute_of_not_met {r : List Char} (h : metAt values (c :: r) = none) :
    substitute values (c :: r) = c :: substitute values r := by
  rw [substitute, h]

/-- A text that completes no hole stays. -/
theorem substitute_append (h : ∀ v ∈ values, ¬Completes into (hole v.1).toList)
    (rest : List Char) :
    substitute values (into ++ rest) = into ++ substitute values rest := by
  have hsuffix : ∀ u w : List Char, u ++ w = into →
      substitute values (w ++ rest) = w ++ substitute values rest := by
    intro u w
    induction w generalizing u with
    | nil => exact fun _ => rfl
    | cons c w ih =>
      intro huw
      have hnone : metAt values (c :: w ++ rest) = none := metAt_eq_none.2 fun v hv =>
        Text.not_prefix_of_not_completes (two_le_length_hole v.1) (h v hv) huw
          (List.cons_ne_nil _ _) rest
      rw [List.cons_append] at hnone ⊢
      rw [substitute_of_not_met hnone, ih (u ++ [c]) (by simpa using huw), List.cons_append]
  exact hsuffix [] into rfl

/-- Without values a text stays. -/
theorem substitute_no_values (cs : List Char) : substitute [] cs = cs := by
  induction cs with
  | nil => exact substitute_nil []
  | cons c r ih => rw [substitute_of_not_met rfl, ih]

/-! ## 4. One replacement -/

/-- The value `v` can be put in first: holes of the others do not complete its own, and it completes
none of theirs. -/
def Steady (v : String × String) (values : List (String × String)) : Prop :=
  ∀ w ∈ values, ¬Completes (hole w.1).toList (hole v.1).toList ∧
    ¬Completes v.2.toList (hole w.1).toList

/-- After a replacement the same holes are met. -/
theorem Steady.metAt_replaceAll (h : Steady v values) (cs : List Char) :
    metAt values (replaceAll (hole v.1).toList v.2.toList cs) = metAt values cs := by
  refine List.find?_congr fun w hw => ?_
  obtain ⟨hhole, hvalue⟩ := h w hw
  rw [Bool.eq_iff_iff, List.isPrefixOf_iff_prefix, List.isPrefixOf_iff_prefix]
  constructor
  · exact Text.prefix_of_prefix_replaceAll (toList_hole_ne_nil v.1) (two_le_length_hole w.1) hvalue
      List.suffix_rfl
  · rintro ⟨rest, rfl⟩
    rw [replaceAll_append_of_not_completes (two_le_length_hole v.1) hhole]
    exact List.prefix_append _ _

/-- **One more value in the same pass**: to replace a hole and then go through the text is to go
through it once. -/
theorem Steady.substitute_replaceAll (h : Steady v values) (cs : List Char) :
    substitute values (replaceAll (hole v.1).toList v.2.toList cs)
      = substitute (v :: values) cs := by
  induction hn : cs.length using Nat.strong_induction_on generalizing cs with
  | _ n ih =>
    have hshorter (name : String) (rest : List Char) (hrest : (hole name).toList ++ rest = cs) :
        rest.length < n := by
      have := List.length_pos_iff.2 (toList_hole_ne_nil name)
      rw [← hn, ← hrest, List.length_append]
      omega
    by_cases hself : (hole v.1).toList <+: cs
    · -- The replaced hole begins the text.
      have hmet : metAt (v :: values) cs = some v := metAt_cons_of_begins hself
      obtain ⟨rest, hrest⟩ := hself
      rw [← hrest] at hmet ⊢
      rw [replaceAll_append (toList_hole_ne_nil v.1), substitute_append fun w hw => (h w hw).2,
        ih _ (hshorter _ _ hrest) rest rfl, substitute_of_met hmet]
    · have hsame : metAt (v :: values) cs = metAt values cs := metAt_cons_of_not hself
      have hafter := h.metAt_replaceAll cs
      cases hmet : metAt values cs with
      | some w =>
        -- A hole that is filled later begins the text.
        rw [hmet] at hsame hafter
        obtain ⟨hw, rest, hrest⟩ := metAt_eq_some hmet
        rw [← hrest] at hsame hafter ⊢
        rw [replaceAll_append_of_not_completes (two_le_length_hole v.1) (h w hw).1] at hafter ⊢
        rw [substitute_of_met hafter, ih _ (hshorter _ _ hrest) rest rfl, substitute_of_met hsame]
      | none =>
        -- No hole begins the text.
        rw [hmet] at hsame hafter
        cases cs with
        | nil => rw [replaceAll_nil, substitute_nil, substitute_nil]
        | cons c r =>
          rw [replaceAll_cons_of_not hself] at hafter ⊢
          rw [substitute_of_not_met hafter, substitute_of_not_met hsame,
            ih r.length (by rw [← hn]; exact Nat.lt_succ_self _) r rfl]

/-! ## 5. Names and values that complete no hole -/

/-- A proper end of a hole has no beginning of a hole in it. -/
theorem Nameable.dollar_notMem (h : Nameable name) {y : List Char}
    (hy : y <:+ (hole name).toList) (hne : y ≠ (hole name).toList) : '$' ∉ y := by
  rw [toList_hole] at hy hne
  rcases List.suffix_cons_iff.1 hy with heq | hinner
  · exact absurd heq hne
  · exact fun hm => h.notMem_inner (hinner.subset hm)

/-- A proper beginning of a hole has no end of a hole in it. -/
theorem Nameable.brace_notMem (h : Nameable name) {x : List Char}
    (hx : x <+: (hole name).toList) (hne : x ≠ (hole name).toList) : '}' ∉ x := by
  have hshape : (hole name).toList = ('$' :: '{' :: name.toList) ++ ['}'] := toList_hole name
  rw [hshape] at hx hne
  have hinner := (List.prefix_concat_iff.1 hx).resolve_left hne
  intro hm
  have := hinner.subset hm
  simp [h.2] at this

/-- **A hole does not complete the hole of another name.** -/
theorem not_completes_hole (ha : Nameable a) (hb : Nameable b) (hab : a ≠ b) :
    ¬Completes (hole a).toList (hole b).toList := by
  rintro ⟨x, hx, y, hy, hxne, hyne, p, q, heq⟩
  rw [List.mem_inits] at hx
  rw [List.mem_tails] at hy
  have hbegins : ¬(hole b).toList <+: (hole a).toList ++ y := fun h =>
    hab (eq_of_holes ha hb (List.prefix_append _ y) h)
  have hdollar : '$' ∈ (hole b).toList := by simp [toList_hole]
  rw [List.append_assoc, List.append_assoc, List.append_eq_append_iff] at heq
  rcases heq with ⟨r, rfl, hr⟩ | ⟨r, -, hr⟩
  · -- The hole of `b` would begin in `x`, and its rest with the hole of `a`.
    rcases List.append_eq_append_iff.1 hr with ⟨z, rfl, -⟩ | ⟨z, hz, hrest⟩
    · exact hxne (hx.eq_of_length_le (by simp only [List.length_append]; omega))
    · cases r with
      | nil => exact hbegins ⟨q, hr⟩
      | cons c r =>
        have hnot := hb.dollar_notMem (y := z) (hz ▸ List.suffix_append _ z) fun heq => by
          have hlength := congrArg List.length (heq.trans hz)
          simp only [List.length_append, List.length_cons] at hlength
          omega
        cases z with
        | nil =>
          rw [List.append_nil] at hz
          refine hxne (hx.eq_of_length_le ?_)
          rw [hz, List.length_append]
          exact Nat.le_add_left _ _
        | cons d z =>
          rw [toList_hole] at hrest
          exact hnot ((List.cons.inj hrest).1 ▸ List.mem_cons_self)
  · -- The hole of `b` would begin in the hole of `a` or behind it.
    cases r with
    | nil => exact hbegins ⟨q, hr.symm⟩
    | cons c r =>
      rw [toList_hole a] at hr
      have htail : '{' :: (a.toList ++ ['}']) ++ y = r ++ ((hole b).toList ++ q) :=
        (List.cons.inj hr).2
      have hmem : '$' ∈ '{' :: (a.toList ++ ['}']) ++ y := by
        rw [htail]
        exact List.mem_append_right _ (List.mem_append_left _ hdollar)
      rcases List.mem_append.1 hmem with hinner | hy'
      · exact ha.notMem_inner hinner
      · exact hb.dollar_notMem hy hyne hy'

/-- A value that cannot become part of the hole of a name. -/
structure Inert (value name : String) : Prop where
  begins : '$' ∉ value.toList
  ends : '}' ∉ value.toList
  foreign : ∃ c ∈ value.toList, c ∉ (hole name).toList

theorem Inert.not_completes {value : String} (h : Inert value name) (hname : Nameable name) :
    ¬Completes value.toList (hole name).toList := by
  rintro ⟨x, hx, y, hy, hxne, hyne, hin⟩
  rw [List.mem_inits] at hx
  rw [List.mem_tails] at hy
  obtain ⟨c, hc, hforeign⟩ := h.foreign
  obtain ⟨before, behind, hvalue⟩ := List.append_of_mem hc
  have hbegins := h.begins
  have hends := h.ends
  rw [hvalue] at hin hbegins hends
  rw [List.append_assoc, List.append_assoc, List.cons_append, ← List.append_assoc] at hin
  -- The hole has its end on the one side of the foreign character, or its beginning on the other.
  rcases Text.infix_append_cons hforeign hin with hleft | hright
  · have hmem : '}' ∈ x ++ before := hleft.subset (by simp [toList_hole])
    have := hname.brace_notMem hx hxne
    simp_all
  · have hmem : '$' ∈ behind ++ y := hright.subset (by simp [toList_hole])
    have := hname.dollar_notMem hy hyne
    simp_all

/-- The values that can be put in after another one as if at once. -/
def Later (v : String × String) (values : List (String × String)) : Prop :=
  ∀ w ∈ values, Nameable w.1 ∧ v.1 ≠ w.1 ∧ Inert v.2 w.1

theorem Later.steady (h : Later v values) (hv : Nameable v.1) : Steady v values := by
  intro w hw
  obtain ⟨hname, hne, hinert⟩ := h w hw
  exact ⟨not_completes_hole hname hv hne.symm, hinert.not_completes hname⟩

/-! ## 6. All replacements -/

/-- Every value can be followed by those after it. -/
def Separate : List (String × String) → Prop
  | [] => True
  | v :: values => Nameable v.1 ∧ Later v values ∧ Separate values

/-- **One variable after the other is all at once** if no value reaches into a later hole. -/
theorem fill_eq_fillAtOnce (h : Separate values) (template : String) :
    fill template values = fillAtOnce template values := by
  induction values generalizing template with
  | nil => rw [fill_nil, fillAtOnce, substitute_no_values, String.ofList_toList]
  | cons v values ih =>
    obtain ⟨hname, hlater, hrest⟩ := h
    have hstep : fill template (v :: values)
        = fill (Text.replace template (hole v.1) v.2) values := rfl
    rw [hstep, ih hrest, fillAtOnce, Text.replace, String.toList_ofList,
      (hlater.steady hname).substitute_replaceAll, fillAtOnce]

-- The hole in the label is not filled, and a hole without a value stays.
example :
    fillAtOnce "$\x7bdisplayName\x7d: $\x7bmin\x7d, $\x7bx\x7d"
        [("min", "3"), ("displayName", "$\x7bmin\x7d")]
      = "$\x7bmin\x7d: 3, $\x7bx\x7d" := by
  cbv

end SchemaTypes.Messages
