/-
# Normal forms as parts of paths

The normal form of a relative path can stand for the path wherever it is a part of another one: the
names in front of it and behind it cancel in the same way (`Path.foldl_push_reduce`), and its names
can be read off its text again (`Pathname.ofText_normalise`).  A plain name in front of a relative
path always leads elsewhere (`Path.reduce_cons_ne`): it stays, or it has cancelled a double dot.
-/
import SchemaTypes.Proofs.Text.Path

namespace SchemaTypes

namespace Path

/-! ## 1. Names of normal forms -/

/-- One name more adds that name if it is plain, or a double dot, or nothing. -/
theorem mem_push_cases {absolute : Bool} {done : List String} {name other : String}
    (h : other ∈ push absolute done name) :
    other ∈ done ∨ (other = name ∧ IsPlain name) ∨ other = ".." := by
  by_cases hskip : name = "" ∨ name = "."
  · rw [push_skip absolute done hskip] at h
    exact .inl h
  · rw [not_or] at hskip
    by_cases hup : name = ".."
    · subst hup
      cases done with
      | nil =>
        cases absolute with
        | true => exact nomatch h
        | false => exact .inr (.inr (List.mem_singleton.1 h))
      | cons first rest =>
        by_cases hfirst : first = ".."
        · subst hfirst
          rcases List.mem_cons.1 (show other ∈ ".." :: ".." :: rest from h) with h | h
          · exact .inr (.inr h)
          · exact .inl h
        · rw [push_up absolute hfirst] at h
          exact .inl (List.mem_cons_of_mem _ h)
    · have hplain : IsPlain name := ⟨hskip.1, hskip.2, hup⟩
      rw [push_of_isPlain absolute done hplain] at h
      rcases List.mem_cons.1 h with h | h
      · exact .inr (.inl ⟨h, hplain⟩)
      · exact .inl h

/-- **The names of a normal form** are plain names of the path, and double dots. -/
theorem mem_reduce_cases {absolute : Bool} {ns : List String} {name : String}
    (h : name ∈ reduce absolute ns) : (name ∈ ns ∧ IsPlain name) ∨ name = ".." := by
  induction ns using List.reverseRecOn with
  | nil => exact nomatch h
  | append_singleton ns n ih =>
    rw [reduce_append] at h
    rcases mem_push_cases h with h | ⟨rfl, hplain⟩ | h
    · exact (ih h).imp_left fun ⟨hmem, hplain⟩ => ⟨List.mem_append_left _ hmem, hplain⟩
    · exact .inl ⟨List.mem_append_right _ List.mem_cons_self, hplain⟩
    · exact .inr h

theorem isPlain_of_mem_reduce {absolute : Bool} {ns : List String} {name : String}
    (h : name ∈ reduce absolute ns) (hup : name ≠ "..") : IsPlain name :=
  ((mem_reduce_cases h).resolve_right hup).2

/-! ## 2. Normal forms among other names -/

/-- **The normal form of a relative path leads where the path leads**, from whatever stands in
front of it. -/
theorem foldl_push_reduce (absolute : Bool) (ns done : List String) :
    (reduce false ns).reverse.foldl (push absolute) done = ns.foldl (push absolute) done := by
  induction ns using List.reverseRecOn with
  | nil => rfl
  | append_singleton ns n ih =>
    rw [reduce_append, List.foldl_append, ← ih, List.foldl_cons, List.foldl_nil, List.foldl_cons,
      List.foldl_nil]
    have hconcat (name : String) :
        (name :: reduce false ns).reverse.foldl (push absolute) done
          = push absolute ((reduce false ns).reverse.foldl (push absolute) done) name := by
      rw [List.reverse_cons, List.foldl_append]
      rfl
    by_cases hskip : n = "" ∨ n = "."
    · rw [push_skip _ _ hskip, push_skip _ _ hskip]
    · rw [not_or] at hskip
      by_cases hup : n = ".."
      · subst hup
        cases hr : reduce false ns with
        | nil => rfl
        | cons d r =>
          rw [hr] at hconcat
          by_cases hd : d = ".."
          · subst hd
            exact hconcat ".."
          · -- what the double dot cancels was pushed onto the names in front
            have hplain := isPlain_of_mem_reduce (hr ▸ List.mem_cons_self) hd
            rw [push_up _ hd, List.reverse_cons, List.foldl_append, List.foldl_cons, List.foldl_nil,
              push_of_isPlain _ _ hplain, push_up _ hd]
      · rw [push_of_isPlain false _ ⟨hskip.1, hskip.2, hup⟩, hconcat]

/-- A plain name in front of a path: it is still there, and nothing else was cancelled in front of
it, or it has cancelled a double dot. -/
inductive OneMore (name : String) : List String → List String → Prop
  | kept {done : List String} (plain : ".." ∉ done) : OneMore name (done ++ [name]) done
  | cancelled (done : List String) : OneMore name done (done ++ [".."])

theorem OneMore.push {name : String} (hname : IsPlain name) {done done' : List String}
    (h : OneMore name done done') (n : String) :
    OneMore name (push false done n) (push false done' n) := by
  by_cases hskip : n = "" ∨ n = "."
  · rw [push_skip _ _ hskip, push_skip _ _ hskip]
    exact h
  · rw [not_or] at hskip
    by_cases hup : n = ".."
    · subst hup
      cases h with
      | kept plain =>
        cases done' with
        | nil =>
          rw [List.nil_append, push_up false hname.2.2]
          exact .cancelled []
        | cons d r =>
          rw [List.mem_cons, not_or] at plain
          rw [List.cons_append, push_up false (Ne.symm plain.1), push_up false (Ne.symm plain.1)]
          exact .kept plain.2
      | cancelled =>
        cases done with
        | nil => exact .cancelled [".."]
        | cons d r =>
          by_cases hd : d = ".."
          · subst hd
            exact .cancelled (".." :: ".." :: r)
          · rw [List.cons_append, push_up false hd, push_up false hd]
            exact .cancelled r
    · have hplain : IsPlain n := ⟨hskip.1, hskip.2, hup⟩
      rw [push_of_isPlain false _ hplain, push_of_isPlain false _ hplain]
      cases h with
      | kept plain =>
        exact .kept (List.not_mem_cons_of_ne_of_not_mem (Ne.symm hup) plain)
      | cancelled => exact .cancelled (n :: done)

theorem OneMore.length_ne {name : String} {done done' : List String}
    (h : OneMore name done done') : done.length ≠ done'.length := by
  cases h <;> simp

/-- **A plain name in front of a relative path** leads elsewhere. -/
theorem reduce_cons_ne {name : String} (hname : IsPlain name) (ns : List String) :
    reduce false (name :: ns) ≠ reduce false ns := by
  have hfold : OneMore name (reduce false (name :: ns)) (reduce false ns) := by
    have hstart : OneMore name (reduce false [name]) (reduce false []) := by
      rw [reduce_of_isPlain false fun n hn => List.mem_singleton.1 hn ▸ hname]
      exact .kept List.not_mem_nil
    induction ns using List.reverseRecOn with
    | nil => exact hstart
    | append_singleton ns n ih =>
      rw [← List.cons_append, reduce_append, reduce_append]
      exact ih.push hname n
  exact fun heq => hfold.length_ne (congrArg List.length heq)

/-! ## 3. Texts of normal forms -/

/-- Names with slashes between them are read back. -/
theorem names_intercalate {ns : List String} (hne : ns ≠ []) (h : ∀ n ∈ ns, '/' ∉ n.toList) :
    names (String.intercalate "/" ns) = ns := by
  induction ns with
  | nil => exact absurd rfl hne
  | cons n rest ih =>
    have hn : names n = [n] := names_of_not_mem (h n List.mem_cons_self)
    cases rest with
    | nil => rw [String.intercalate_singleton, hn]
    | cons m rest =>
      rw [String.intercalate_cons_cons, names_slash, hn,
        ih (List.cons_ne_nil _ _) fun k hk => h k (List.mem_cons_of_mem _ hk)]
      rfl

/-- The names of the normal form of a text can stand between slashes. -/
theorem slash_not_mem_reduce {absolute : Bool} {s name : String}
    (h : name ∈ reduce absolute (names s)) : '/' ∉ name.toList := by
  rcases mem_reduce_cases h with ⟨hmem, -⟩ | rfl
  · obtain ⟨w, hw, rfl⟩ := List.mem_map.1 hmem
    rw [String.toList_ofList]
    exact Text.not_mem_of_mem_splitOn hw
  · decide

/-- The text of the normal form of a relative path. -/
theorem normalise_of_relative {s : String} (h : isAbsolute s = false) :
    normalise s = if reduce false (names s) = [] then "."
      else String.intercalate "/" (reduce false (names s)).reverse := by
  have hempty : "" ∉ (reduce false (names s)).reverse := fun hm =>
    empty_not_mem_reduce _ _ (List.mem_reverse.1 hm)
  rw [normalise, root_of_relative h, h, String.empty_append]
  by_cases hns : reduce false (names s) = []
  · rw [hns]
    rfl
  · have htext : String.intercalate "/" (reduce false (names s)).reverse ≠ "" :=
      Pathname.intercalate_ne_empty (List.reverse_ne_nil_iff.2 hns) hempty
    simp [hns, htext]

/-- The normal form of a relative path is relative. -/
theorem isAbsolute_normalise {s : String} (h : isAbsolute s = false) :
    isAbsolute (normalise s) = false := by
  rw [normalise_of_relative h]
  split
  · decide
  · rename_i hns
    obtain ⟨n, rest, hcons⟩ := List.exists_cons_of_ne_nil (List.reverse_ne_nil_iff.2 hns)
    have hmem : n ∈ reduce false (names s) :=
      List.mem_reverse.1 (hcons ▸ List.mem_cons_self)
    have hn : isAbsolute n = false := isAbsolute_of_not_mem (slash_not_mem_reduce hmem)
    have hne : n ≠ "" := fun he => empty_not_mem_reduce _ _ (he ▸ hmem)
    rw [hcons]
    cases rest with
    | nil => rwa [String.intercalate_singleton]
    | cons m rest =>
      rw [String.intercalate_cons_cons, String.append_assoc]
      exact isAbsolute_append hne hn _

end Path

namespace Pathname

/-- **The text of a normal form** has the names of the normal form. -/
theorem ofText_normalise {s : String} (h : Path.isAbsolute s = false) :
    ofText (Path.normalise s) = ⟨"", (Path.reduce false (Path.names s)).reverse⟩ := by
  have hroot := root_of_relative (Path.isAbsolute_normalise h)
  have hnames : (ofText (Path.normalise s)).names
      = (Path.reduce false (Path.names s)).reverse := by
    rw [ofText, Path.normalise_of_relative h]
    split
    · rename_i hns
      rw [hns]
      rfl
    · rename_i hns
      rw [Path.names_intercalate (List.reverse_ne_nil_iff.2 hns) fun n hn =>
        Path.slash_not_mem_reduce (List.mem_reverse.1 hn)]
      refine List.filter_eq_self.2 fun n hn => ?_
      by_cases hup : n = ".."
      · rw [hup]
        decide
      · obtain ⟨hempty, hdot, -⟩ := Path.isPlain_of_mem_reduce (List.mem_reverse.1 hn) hup
        simp [hempty, hdot]
  rw [← hnames, ← hroot]

/-- Relative paths with one normal form cancel to the same names. -/
theorem reduce_eq_of_normalise_eq {s t : String} (hs : Path.isAbsolute s = false)
    (ht : Path.isAbsolute t = false) (h : Path.normalise s = Path.normalise t) :
    Path.reduce false (ofText s).names = Path.reduce false (ofText t).names := by
  have hnames := congrArg (fun u => (ofText u).names.reverse) h
  simp only [ofText_normalise hs, ofText_normalise ht, List.reverse_reverse] at hnames
  have hskip (u : String) : Path.reduce false (ofText u).names = Path.reduce false (Path.names u) :=
    Path.foldl_push_filter false (Path.names u) []
  rw [hskip, hskip, hnames]

end Pathname

end SchemaTypes
