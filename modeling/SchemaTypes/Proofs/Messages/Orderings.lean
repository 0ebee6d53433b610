/-
# The order of the variables

Variables are put into a template one after the other, so the order in which they come can show in
the text (`order_shows`).  It does not if no variable disturbs another one (`Undisturbed`): its hole
and its value complete no other hole, unless what belongs into that hole is the hole itself.  Then
every order gives the text of one pass (`Undisturbed.fill_perm`).  For names without the characters
by which holes begin and end nothing less will do: a value that completes another hole can be put
between a beginning and an end of it, and there two orders differ (`undisturbed_of_any_order`).
-/
import SchemaTypes.Proofs.Messages

namespace SchemaTypes.Messages

open Text (Completes replaceAll replaceAll_append replaceAll_cons_of_not replaceAll_of_not_infix)

variable {values order : List (String × String)} {v w : String × String} {a b : String × String}

/-! ## 1. Variables that leave each other alone -/

/-- No variable completes the hole of another one, be it with its hole or with its value; a variable
that stands for its own hole does not mind values that do. -/
def Undisturbed (values : List (String × String)) : Prop :=
  ∀ a ∈ values, ∀ b ∈ values, a.1 ≠ b.1 →
    ¬Completes (hole a.1).toList (hole b.1).toList ∧
      (b.2 = hole b.1 ∨ ¬Completes a.2.toList (hole b.1).toList)

instance : DecidablePred Undisturbed := fun values => by
  unfold Undisturbed
  infer_instance

/-- Names of variables without repetition. -/
def Named (values : List (String × String)) : Prop := (values.map (·.1)).Nodup

instance : DecidablePred Named := fun values => by
  unfold Named
  infer_instance

theorem Named.eq_of_name (h : Named values) (hv : v ∈ values) (hw : w ∈ values)
    (heq : v.1 = w.1) : v = w :=
  List.inj_on_of_nodup_map h hv hw heq

/-- The variables that change something. -/
def live (values : List (String × String)) : List (String × String) :=
  values.filter fun v => v.2 ≠ hole v.1

theorem mem_live : v ∈ live values ↔ v ∈ values ∧ v.2 ≠ hole v.1 := by
  simp [live]

/-- At most one hole begins a text. -/
theorem Undisturbed.eq_of_met (h : Undisturbed values) (hnamed : Named values) (hv : v ∈ values)
    (hw : w ∈ values) {cs : List Char} (hpv : (hole v.1).toList <+: cs)
    (hpw : (hole w.1).toList <+: cs) : v = w := by
  refine hnamed.eq_of_name hv hw ?_
  by_contra hne
  obtain ⟨rest, rfl⟩ := hpv
  exact Text.not_prefix_of_not_completes (two_le_length_hole w.1) (h v hv w hw hne).1
    (List.nil_append _) (toList_hole_ne_nil v.1) rest hpw

/-! ## 2. One pass -/

/-- One pass does not depend on the order. -/
theorem Undisturbed.metAt_perm (h : Undisturbed values) (hnamed : Named values)
    (hperm : order.Perm values) (cs : List Char) : metAt order cs = metAt values cs := by
  cases hmet : metAt values cs with
  | none =>
    rw [metAt_eq_none] at hmet ⊢
    exact fun v hv => hmet v (hperm.mem_iff.1 hv)
  | some v =>
    obtain ⟨hv, hpv⟩ := metAt_eq_some hmet
    cases hother : metAt order cs with
    | none => exact absurd hpv (metAt_eq_none.1 hother v (hperm.mem_iff.2 hv))
    | some w =>
      obtain ⟨hw, hpw⟩ := metAt_eq_some hother
      rw [h.eq_of_met hnamed hv (hperm.mem_iff.1 hw) hpv hpw]

theorem substitute_congr (h : ∀ cs, metAt order cs = metAt values cs) (cs : List Char) :
    substitute order cs = substitute values cs := by
  induction hn : cs.length using Nat.strong_induction_on generalizing cs with
  | _ n ih =>
    cases cs with
    | nil => rw [substitute_nil, substitute_nil]
    | cons c r =>
      rw [List.length_cons] at hn
      rw [substitute, substitute, h]
      cases metAt values (c :: r) with
      | none => simp only [ih r.length (by omega) r rfl]
      | some v =>
        have hshorter : (r.drop ((hole v.1).toList.length - 1)).length < n := by
          rw [List.length_drop]
          omega
        simp only [ih _ hshorter (r.drop ((hole v.1).toList.length - 1)) rfl]

/-- **Variables that stand for their own holes** can be left out. -/
theorem Undisturbed.substitute_live (h : Undisturbed values) (hnamed : Named values)
    (cs : List Char) : substitute (live values) cs = substitute values cs := by
  induction hn : cs.length using Nat.strong_induction_on generalizing cs with
  | _ n ih =>
    cases hmet : metAt values cs with
    | none =>
      have hlive : metAt (live values) cs = none :=
        metAt_eq_none.2 fun v hv => metAt_eq_none.1 hmet v (mem_live.1 hv).1
      cases cs with
      | nil => rw [substitute_nil, substitute_nil]
      | cons c r =>
        rw [substitute_of_not_met hmet, substitute_of_not_met hlive,
          ih r.length (by rw [← hn]; exact Nat.lt_succ_self _) r rfl]
    | some v =>
      obtain ⟨hv, hpre⟩ := metAt_eq_some hmet
      have hpre' := hpre
      obtain ⟨rest, rfl⟩ := hpre
      have hshorter : rest.length < n := by
        have := two_le_length_hole v.1
        rw [← hn, List.length_append]
        omega
      rw [substitute_of_met hmet, ← ih _ hshorter rest rfl]
      by_cases hidle : v.2 = hole v.1
      · -- The hole stays, and no other one begins in it.
        rw [hidle]
        refine substitute_append (fun w hw => ?_) rest
        obtain ⟨hw, hwlive⟩ := mem_live.1 hw
        exact (h v hv w hw fun heq => hwlive (hnamed.eq_of_name hv hw heq ▸ hidle)).1
      · have hlive : metAt (live values) ((hole v.1).toList ++ rest) = some v := by
          cases hother : metAt (live values) ((hole v.1).toList ++ rest) with
          | none => exact absurd hpre' (metAt_eq_none.1 hother v (mem_live.2 ⟨hv, hidle⟩))
          | some w =>
            obtain ⟨hw, hpw⟩ := metAt_eq_some hother
            rw [h.eq_of_met hnamed hv (mem_live.1 hw).1 hpre' hpw]
        exact substitute_of_met hlive

/-! ## 3. One variable after the other -/

theorem Undisturbed.tail (h : Undisturbed (v :: values)) : Undisturbed values :=
  fun a ha b hb => h a (List.mem_cons_of_mem _ ha) b (List.mem_cons_of_mem _ hb)

/-- The first variable can be put in before those that change something. -/
theorem Undisturbed.steady_live (h : Undisturbed (v :: values)) (hnamed : Named (v :: values)) :
    Steady v (live values) := by
  intro w hw
  obtain ⟨hw, hlive⟩ := mem_live.1 hw
  have hne : v.1 ≠ w.1 := fun heq =>
    (List.nodup_cons.1 hnamed).1 (List.mem_map.2 ⟨w, hw, heq.symm⟩)
  have hw' : w ∈ v :: values := List.mem_cons_of_mem _ hw
  exact ⟨(h w hw' v List.mem_cons_self hne.symm).1,
    (h v List.mem_cons_self w hw' hne).2.resolve_left hlive⟩

/-- **One variable after the other is all at once** if no variable disturbs another one. -/
theorem Undisturbed.fill_eq (h : Undisturbed values) (hnamed : Named values) (template : String) :
    fill template values = fillAtOnce template values := by
  induction values generalizing template with
  | nil => rw [fill_nil, fillAtOnce, substitute_no_values, String.ofList_toList]
  | cons v values ih =>
    have hnamed' : Named values := (List.nodup_cons.1 hnamed).2
    have hstep : fill template (v :: values)
        = fill (Text.replace template (hole v.1) v.2) values := rfl
    rw [hstep, ih h.tail hnamed', fillAtOnce, fillAtOnce, Text.replace, String.toList_ofList,
      ← h.tail.substitute_live hnamed', ← h.substitute_live hnamed]
    by_cases hidle : v.2 = hole v.1
    · have hlive : live (v :: values) = live values := by simp [live, hidle]
      rw [hidle, Text.replaceAll_self (toList_hole_ne_nil v.1), hlive]
    · have hlive : live (v :: values) = v :: live values := by simp [live, hidle]
      rw [(h.steady_live hnamed).substitute_replaceAll, hlive]

theorem Undisturbed.perm (h : Undisturbed values) (hperm : order.Perm values) :
    Undisturbed order :=
  fun a ha b hb => h a (hperm.mem_iff.1 ha) b (hperm.mem_iff.1 hb)

/-- **Every order gives the text of one pass.** -/
theorem Undisturbed.fill_perm (h : Undisturbed values) (hnamed : Named values)
    (hperm : order.Perm values) (template : String) :
    fill template order = fillAtOnce template values := by
  have hnamed' : Named order := (hperm.map _).nodup_iff.2 hnamed
  rw [(h.perm hperm).fill_eq hnamed', fillAtOnce, fillAtOnce,
    substitute_congr (h.metAt_perm hnamed hperm)]

/-! ## 4. A template that tells two orders apart -/

theorem fill_append (template : String) (values order : List (String × String)) :
    fill template (values ++ order) = fill (fill template values) order :=
  List.foldl_append

/-- Variables whose holes do not occur change nothing. -/
theorem fill_of_not_infix {template : String}
    (h : ∀ v ∈ values, ¬(hole v.1).toList <:+: template.toList) :
    fill template values = template := by
  induction values with
  | nil => rfl
  | cons v values ih =>
    have hstep : fill template (v :: values)
        = fill (Text.replace template (hole v.1) v.2) values := rfl
    rw [hstep, Text.replace, replaceAll_of_not_infix (h v List.mem_cons_self), String.ofList_toList,
      ih fun w hw => h w (List.mem_cons_of_mem _ hw)]

/-- No hole has the hole of another name in it. -/
theorem hole_not_infix_hole {a b : String} (ha : Nameable a) (hb : Nameable b) (hab : a ≠ b) :
    ¬(hole a).toList <:+: (hole b).toList := by
  rintro ⟨p, q, heq⟩
  have hpos := List.length_pos_iff.2 (toList_hole_ne_nil a)
  have hlength := congrArg List.length heq
  simp only [List.length_append] at hlength
  refine not_completes_hole ha hb hab (.intro (x := p) (y := q) ?_ ?_ ?_ ?_ ⟨[], [], by simp [heq]⟩)
  · exact ⟨(hole a).toList ++ q, by rw [← List.append_assoc, heq]⟩
  · exact ⟨p ++ (hole a).toList, heq⟩
  · rintro rfl
    omega
  · rintro rfl
    omega

/-- A hole is replaced between texts in which it does not occur. -/
theorem replaceAll_hole_between {a : String} (ha : Nameable a) (into : List Char)
    {x y : List Char} (hx : ¬(hole a).toList <:+: x) (hy : ¬(hole a).toList <:+: y) :
    replaceAll (hole a).toList into (x ++ (hole a).toList ++ y) = x ++ into ++ y := by
  induction x with
  | nil =>
    rw [List.nil_append, List.nil_append, replaceAll_append (toList_hole_ne_nil a),
      replaceAll_of_not_infix hy]
  | cons c x ih =>
    have hnot : ¬(hole a).toList <+: c :: (x ++ (hole a).toList ++ y) := by
      intro hpre
      rw [toList_hole, List.cons_prefix_cons, List.append_assoc, List.cons_append,
        Text.prefix_append_cons_iff ha.notMem_inner] at hpre
      refine hx (List.IsPrefix.isInfix ?_)
      rw [toList_hole]
      exact List.cons_prefix_cons.2 hpre
    rw [List.cons_append, List.cons_append, replaceAll_cons_of_not hnot,
      ih fun h => hx (h.trans (List.suffix_cons _ _).isInfix), List.cons_append, List.cons_append]

/-- **A value that completes another hole shows the order**, unless that hole stands for itself. -/
theorem undisturbed_of_any_order (hnamed : Named values) (hnames : ∀ v ∈ values, Nameable v.1)
    (horder : ∀ order, order.Perm values → ∀ template, fill template order = fill template values) :
    Undisturbed values := by
  intro a ha b hb hne
  have hna := hnames a ha
  have hnb := hnames b hb
  refine ⟨not_completes_hole hna hnb hne, ?_⟩
  by_contra hdisturbed
  rw [not_or, not_not] at hdisturbed
  obtain ⟨hlive, x, hx, y, hy, hxne, hyne, hoccurs⟩ := hdisturbed
  rw [List.mem_inits] at hx
  rw [List.mem_tails] at hy
  obtain ⟨others, hperm⟩ : ∃ others, (a :: b :: others).Perm values := by
    have hba : b ∈ values.erase a :=
      (List.mem_erase_of_ne fun heq => hne (congrArg Prod.fst heq.symm)).2 hb
    exact ⟨(values.erase a).erase b,
      (((List.perm_cons_erase ha).trans ((List.perm_cons_erase hba).cons a))).symm⟩
  have hothers : ∀ c ∈ others, c ∈ values ∧ a.1 ≠ c.1 ∧ b.1 ≠ c.1 := by
    intro c hc
    have hnodup := (hperm.map Prod.fst).nodup_iff.2 hnamed
    simp only [List.map_cons, List.nodup_cons, List.mem_cons, not_or] at hnodup
    refine ⟨hperm.mem_iff.1 (by simp [hc]), fun heq => ?_, fun heq => ?_⟩
    · exact hnodup.1.2 (List.mem_map.2 ⟨c, hc, heq.symm⟩)
    · exact hnodup.2.1 (List.mem_map.2 ⟨c, hc, heq.symm⟩)
  -- The value of `a` stands in for its hole between a beginning and an end of the hole of `b`.
  have hside {c : String} (hc : Nameable c) (hca : a.1 ≠ c)
      (hbx : ¬(hole c).toList <:+: x) (hby : ¬(hole c).toList <:+: y) :
      ¬(hole c).toList <:+: x ++ (hole a.1).toList ++ y := fun hin =>
    (Text.infix_of_not_completes (two_le_length_hole c) (not_completes_hole hna hc hca) hin).elim
      hbx hby
  have hfree {c : String} (hc : Nameable c) (hcb : c ≠ b.1) :
      ¬(hole c).toList <:+: x ∧ ¬(hole c).toList <:+: y :=
    ⟨fun h => hole_not_infix_hole hc hnb hcb (h.trans hx.isInfix),
      fun h => hole_not_infix_hole hc hnb hcb (h.trans hy.isInfix)⟩
  have hself : ¬(hole b.1).toList <:+: x ∧ ¬(hole b.1).toList <:+: y :=
    ⟨fun h => hxne (hx.eq_of_length_le h.length_le), fun h => hyne (hy.eq_of_length_le h.length_le)⟩
  let template := String.ofList (x ++ (hole a.1).toList ++ y)
  have htemplate : template.toList = x ++ (hole a.1).toList ++ y := String.toList_ofList
  have hskip : fill template others = template := fill_of_not_infix fun c hc => by
    obtain ⟨hmem, hca, hcb⟩ := hothers c hc
    rw [htemplate]
    exact hside (hnames c hmem) hca (hfree (hnames c hmem) hcb.symm).1
      (hfree (hnames c hmem) hcb.symm).2
  have hreplaced : Text.replace template (hole a.1) a.2 = String.ofList (x ++ a.2.toList ++ y) := by
    rw [Text.replace, htemplate, replaceAll_hole_between hna _ (hfree hna hne).1 (hfree hna hne).2]
  have hkept : Text.replace template (hole b.1) b.2 = template := by
    rw [Text.replace, htemplate,
      replaceAll_of_not_infix (hside hnb hne hself.1 hself.2)]
  -- `b` before `a` leaves the completed hole, `a` before `b` fills it.
  have hba : fill template (others ++ [b, a]) = String.ofList (x ++ a.2.toList ++ y) := by
    have hlast : fill template [b, a]
        = Text.replace (Text.replace template (hole b.1) b.2) (hole a.1) a.2 := rfl
    rw [fill_append, hskip, hlast, hkept, hreplaced]
  have hab : fill template (others ++ [a, b])
      = String.ofList (replaceAll (hole b.1).toList b.2.toList (x ++ a.2.toList ++ y)) := by
    have hlast : fill template [a, b]
        = Text.replace (Text.replace template (hole a.1) a.2) (hole b.1) b.2 := rfl
    rw [fill_append, hskip, hlast, hreplaced, Text.replace, String.toList_ofList]
  have hpab : (others ++ [a, b]).Perm values := List.perm_append_comm.trans hperm
  have hpba : (others ++ [b, a]).Perm values :=
    (List.Perm.append_left others (List.Perm.swap a b [])).trans hpab
  have hsame := (horder _ hpab template).trans (horder _ hpba template).symm
  rw [hab, hba, String.ofList_inj] at hsame
  exact hlive (String.toList_inj.1
    (Text.eq_of_replaceAll_eq_self (toList_hole_ne_nil b.1) hoccurs hsame))

/-! ## 5. Any order -/

/-- In every order the variables give the text of one pass: each hole is filled once, and what is
put in is not looked at again. -/
structure AnyOrder (values : List (String × String)) : Prop where
  onePass : ∀ order, order.Perm values → ∀ template,
    fill template order = fillAtOnce template values
  localized : ∀ order, order.Perm values → ∀ table rule locales fallback,
    localized table rule locales order fallback
      = Dictionary.tabulate locales fun l =>
          some (fillAtOnce (templateFor ((table.lookup rule).getD []) fallback l) values)

theorem Undisturbed.anyOrder (h : Undisturbed values) (hnamed : Named values) :
    AnyOrder values where
  onePass _ hperm := h.fill_perm hnamed hperm
  localized order hperm table rule locales fallback := by
    simp only [Messages.localized, h.fill_perm hnamed hperm]

/-- **The order of the variables** does not show if no variable disturbs another one; if it never
shows, and names have none of the characters by which holes begin and end, none does. -/
theorem fill_in_any_order (hnamed : Named values) :
    (Undisturbed values → AnyOrder values) ∧
      ((∀ v ∈ values, Nameable v.1) →
        (∀ order, order.Perm values → ∀ template, fill template order = fill template values) →
          Undisturbed values) :=
  ⟨fun h => h.anyOrder hnamed, undisturbed_of_any_order hnamed⟩

-- A label with a hole of its own, and a bound that would begin one.
theorem fill_in_any_order_label :
    AnyOrder [("displayName", "Size (${unit})"), ("min", "$3"), ("max", "${max}")] :=
  (fill_in_any_order (by decide +kernel)).1 (by decide +kernel)

/-- **Values that are scanned again**: the first variable leaves the hole of the second one, and
only in this order it is filled. -/
theorem order_shows :
    fill "${a}" [("a", "${b}"), ("b", "x")] = "x" ∧
      fill "${a}" [("b", "x"), ("a", "${b}")] = "${b}" := by
  constructor <;> decide +kernel

end SchemaTypes.Messages
