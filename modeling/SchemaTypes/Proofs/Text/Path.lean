/-
# The names of a joined path

A path that is joined from two parts has the names of both, one after the other, and begins like
the first (`Pathname.names_join`, `Pathname.root_join`).  Both hold as long as the second part does
not begin with a slash.  The normal form of a path is a matter of its names and of how it begins
(`Pathname.normal`), and its text is the normal form of the text (`Pathname.text_normal`).
-/
import Mathlib
import SchemaTypes.Files.Pathname

namespace SchemaTypes

/-! ## 1. Pieces -/

namespace Text

variable {sep : Char}

/-- A text without the separator is one piece. -/
theorem splitOn_of_not_mem {cs : List Char} (h : sep ∉ cs) : splitOn sep cs = [cs] := by
  induction cs with
  | nil => rfl
  | cons c r ih =>
    have hc : c ≠ sep := fun e => h (e ▸ List.mem_cons_self)
    have hr : sep ∉ r := fun m => h (List.mem_cons_of_mem _ m)
    rw [splitOn, if_neg hc, ih hr]

/-- A separator ends a piece. -/
theorem splitOn_append_sep (a b : List Char) :
    splitOn sep (a ++ sep :: b) = splitOn sep a ++ splitOn sep b := by
  induction a with
  | nil => exact if_pos rfl
  | cons c r ih =>
    rw [List.cons_append, splitOn, splitOn, ih]
    by_cases hc : c = sep
    · rw [if_pos hc, if_pos hc, List.cons_append]
    · rw [if_neg hc, if_neg hc]
      cases h : splitOn sep r with
      | nil => exact absurd h (splitOn_ne_nil sep r)
      | cons w ws => rfl

/-- What goes on without a separator adds to the last piece alone. -/
theorem exists_splitOn_append {b : List Char} (hb : sep ∉ b) (a : List Char) :
    ∃ front last, sep ∉ last ∧ splitOn sep a = front ++ [last] ∧
      splitOn sep (a ++ b) = front ++ [last ++ b] := by
  induction a with
  | nil => exact ⟨[], [], List.not_mem_nil, rfl, splitOn_of_not_mem hb⟩
  | cons c rest ih =>
    obtain ⟨front, last, hlast, hrest, happend⟩ := ih
    by_cases hc : c = sep
    · refine ⟨[] :: front, last, hlast, ?_, ?_⟩
      · rw [splitOn, if_pos hc, hrest, List.cons_append]
      · rw [List.cons_append, splitOn, if_pos hc, happend, List.cons_append]
    · rw [List.cons_append, splitOn, if_neg hc, splitOn, if_neg hc, hrest, happend]
      cases front with
      | nil =>
        exact ⟨[], c :: last, List.not_mem_cons_of_ne_of_not_mem (Ne.symm hc) hlast, rfl, rfl⟩
      | cons first front => exact ⟨(c :: first) :: front, last, hlast, rfl, rfl⟩

/-- No piece holds the separator. -/
theorem not_mem_of_mem_splitOn {cs w : List Char} (h : w ∈ splitOn sep cs) : sep ∉ w := by
  induction cs generalizing w with
  | nil =>
    rw [List.mem_singleton.1 h]
    exact List.not_mem_nil
  | cons c r ih =>
    unfold splitOn at h
    split at h
    · rcases List.mem_cons.1 h with rfl | h
      · exact List.not_mem_nil
      · exact ih h
    · rename_i hc
      split at h
      · rename_i v vs hvs
        rcases List.mem_cons.1 h with rfl | h
        · exact List.not_mem_cons_of_ne_of_not_mem (Ne.symm hc) (ih (hvs ▸ List.mem_cons_self))
        · exact ih (hvs ▸ List.mem_cons_of_mem _ h)
      · rw [List.mem_singleton.1 h]
        exact List.not_mem_cons_of_ne_of_not_mem (Ne.symm hc) List.not_mem_nil

end Text

/-! ## 2. Paths as texts -/

namespace Path

/-- A text without a slash is one name. -/
theorem names_of_not_mem {s : String} (h : '/' ∉ s.toList) : names s = [s] := by
  rw [names, Text.pieces, Text.splitOn_of_not_mem h, List.map_singleton, String.ofList_toList]

theorem names_slash (a b : String) : names (a ++ "/" ++ b) = names a ++ names b := by
  have h : (a ++ "/" ++ b).toList = a.toList ++ '/' :: b.toList := by simp
  rw [names, Text.pieces, h, Text.splitOn_append_sep, List.map_append]
  rfl

/-- The names of a text that goes on without a slash. -/
theorem exists_names_append {b : String} (hb : '/' ∉ b.toList) (a : String) :
    ∃ last : String, '/' ∉ last.toList ∧ names (a ++ b) = (names a).dropLast ++ [last ++ b] := by
  obtain ⟨front, last, hlast, hfront, happend⟩ := Text.exists_splitOn_append hb a.toList
  refine ⟨String.ofList last, by rwa [String.toList_ofList], ?_⟩
  rw [names, Text.pieces, String.toList_append, happend, names, Text.pieces, hfront,
    List.map_append, List.map_append, List.map_singleton, List.map_singleton,
    List.dropLast_concat, String.ofList_append, String.ofList_toList]

theorem dropLast_names_append {b : String} (hb : '/' ∉ b.toList) (a : String) :
    (names (a ++ b)).dropLast = (names a).dropLast := by
  obtain ⟨last, -, hnames⟩ := exists_names_append hb a
  rw [hnames, List.dropLast_concat]

/-- A path that ends with a slash. -/
theorem eq_append_slash {a : String} (h : Text.endsWith a "/" = true) :
    ∃ b : String, a = b ++ "/" := by
  obtain ⟨pre, hpre⟩ := Text.endsWith_iff.1 h
  refine ⟨String.ofList pre, String.toList_inj.1 ?_⟩
  rw [String.toList_append, String.toList_ofList, hpre]

/-- How many slashes a text begins with. -/
def slashes : List Char → Nat
  | '/' :: r => slashes r + 1
  | _ => 0

theorem slashes_eq_zero {c : Char} (h : c ≠ '/') (r : List Char) : slashes (c :: r) = 0 := by
  unfold slashes
  split
  · rename_i he
    exact absurd (List.cons.inj he).1 h
  · rfl

/-- A text begins with some slashes if it begins with at least as many. -/
theorem replicate_isPrefixOf (n : Nat) (cs : List Char) :
    (List.replicate n '/').isPrefixOf cs = decide (n ≤ slashes cs) := by
  induction n generalizing cs with
  | zero => simp
  | succ n ih =>
    cases cs with
    | nil => simp [slashes, List.replicate_succ]
    | cons c r =>
      by_cases hc : c = '/'
      · subst hc
        simp [List.replicate_succ, ih, slashes]
      · have hz := slashes_eq_zero hc r
        simp [List.replicate_succ, hz, List.isPrefixOf, Ne.symm hc]

theorem isAbsolute_eq (a : String) : isAbsolute a = decide (1 ≤ slashes a.toList) :=
  replicate_isPrefixOf 1 a.toList

theorem slashes_of_relative {a : String} (h : isAbsolute a = false) : slashes a.toList = 0 := by
  rw [isAbsolute_eq] at h
  simpa using h

/-- A path without a slash in front. -/
theorem isAbsolute_of_not_mem {s : String} (h : '/' ∉ s.toList) : isAbsolute s = false := by
  rw [isAbsolute_eq]
  cases hs : s.toList with
  | nil => rfl
  | cons c r =>
    have hc : c ≠ '/' := by
      rintro rfl
      exact h (hs ▸ List.mem_cons_self)
    rw [slashes_eq_zero hc]
    rfl

/-- The last name of a path is a relative path. -/
theorem isAbsolute_baseName (path : String) : isAbsolute (baseName path) = false := by
  refine isAbsolute_of_not_mem ?_
  rw [baseName, List.getLastD_eq_getLast?]
  cases h : (names path).getLast? with
  | none => exact List.not_mem_nil
  | some name =>
    obtain ⟨w, hw, rfl⟩ := List.mem_map.1 (List.mem_of_getLast? h)
    rw [Option.getD_some, String.toList_ofList]
    exact Text.not_mem_of_mem_splitOn hw

/-- What follows a text that is not empty does not matter. -/
theorem isAbsolute_append {a : String} (hne : a ≠ "") (h : isAbsolute a = false) (b : String) :
    isAbsolute (a ++ b) = false := by
  rw [isAbsolute_eq, String.toList_append]
  rw [isAbsolute_eq] at h
  cases ha : a.toList with
  | nil => exact absurd (String.toList_eq_nil_iff.1 ha) hne
  | cons c r =>
    have hc : c ≠ '/' := by
      rintro rfl
      rw [ha] at h
      exact nomatch h
    rw [List.cons_append, slashes_eq_zero hc]
    rfl

/-- Only the number of slashes decides what a path keeps in front. -/
theorem root_congr {a b : String} (h : slashes a.toList = slashes b.toList) : root a = root b := by
  have hstart (n : Nat) : (List.replicate n '/').isPrefixOf a.toList
      = (List.replicate n '/').isPrefixOf b.toList := by
    rw [replicate_isPrefixOf, replicate_isPrefixOf, h]
  have h₁ : Text.startsWith a "/" = Text.startsWith b "/" := hstart 1
  have h₂ : Text.startsWith a "//" = Text.startsWith b "//" := hstart 2
  have h₃ : Text.startsWith a "///" = Text.startsWith b "///" := hstart 3
  rw [root, root, isAbsolute, isAbsolute, h₁, h₂, h₃]

/-- A relative path keeps nothing in front. -/
theorem root_of_relative {s : String} (h : isAbsolute s = false) : root s = "" := by
  exact (root_congr ((slashes_of_relative h).trans (by rfl) : _ = slashes "".toList)).trans
    (by rfl)

/-- Behind a text with a character that is no slash, and behind a text of slashes in front of
another character, nothing adds to the slashes in front. -/
theorem slashes_append {a b : List Char} (h : (∃ c ∈ a, c ≠ '/') ∨ slashes b = 0) :
    slashes (a ++ b) = slashes a := by
  induction a with
  | nil =>
    rcases h with ⟨c, hc, -⟩ | h
    · exact nomatch hc
    · exact h
  | cons d r ih =>
    by_cases hd : d = '/'
    · subst hd
      have hr : (∃ c ∈ r, c ≠ '/') ∨ slashes b = 0 := by
        refine h.imp_left ?_
        rintro ⟨c, hc, hne⟩
        rcases List.mem_cons.1 hc with rfl | hc
        · exact absurd rfl hne
        · exact ⟨c, hc, hne⟩
      exact congrArg (· + 1) (ih hr)
    · rw [List.cons_append, slashes_eq_zero hd, slashes_eq_zero hd]

/-- A text without slashes behind a path changes nothing in front of it. -/
theorem isAbsolute_append_of_not_mem {b : String} (hb : '/' ∉ b.toList) (a : String) :
    isAbsolute (a ++ b) = isAbsolute a := by
  rw [isAbsolute_eq, isAbsolute_eq, String.toList_append,
    slashes_append (.inr (slashes_of_relative (isAbsolute_of_not_mem hb)))]

/-- **A joined path begins like its first part.** -/
theorem root_join (a : String) {b : String} (hb : isAbsolute b = false) :
    root (join a b) = root a := by
  have hslashes := slashes_of_relative hb
  rw [join, hb]
  simp only [Bool.false_eq_true, if_false]
  split
  · refine root_congr ?_
    rw [String.toList_append]
    exact slashes_append (.inr hslashes)
  · rename_i hends
    rw [Bool.or_eq_true, not_or] at hends
    refine root_congr ?_
    rw [String.toList_append, String.toList_append, List.append_assoc]
    refine slashes_append (.inl ?_)
    have hne : a.toList ≠ [] := fun h => hends.1 (by simpa using h)
    refine ⟨a.toList.getLast hne, List.getLast_mem hne, fun h => hends.2 ?_⟩
    refine Text.endsWith_iff.2 ⟨a.toList.dropLast, ?_⟩
    have := List.dropLast_concat_getLast hne
    rwa [h] at this

end Path

/-! ## 3. Paths as lists of names -/

namespace Pathname

theorem names_slash (a b : String) :
    (ofText (a ++ "/" ++ b)).names = (ofText a).names ++ (ofText b).names := by
  rw [ofText, ofText, ofText, Path.names_slash, List.filter_append]

/-- One name that is neither empty nor a single dot. -/
theorem names_single {s : String} (h : '/' ∉ s.toList) (hne : s ≠ "") (hdot : s ≠ ".") :
    (ofText s).names = [s] := by
  simp [ofText, Path.names_of_not_mem h, hne, hdot]

/-- **A joined path has the names of both parts.** -/
theorem names_join (a : String) {b : String} (hb : Path.isAbsolute b = false) :
    (ofText (Path.join a b)).names = (ofText a).names ++ (ofText b).names := by
  rw [Path.join, hb]
  simp only [Bool.false_eq_true, if_false]
  split
  · rename_i hends
    rcases Bool.or_eq_true_iff.1 hends with h | h
    · have ha : a = "" := by simpa using h
      subst ha
      rw [String.empty_append]
      rfl
    · obtain ⟨c, rfl⟩ := Path.eq_append_slash h
      have hc : (ofText (c ++ "/")).names = (ofText c).names := by
        have := names_slash c ""
        rw [String.append_empty] at this
        rw [this]
        exact List.append_nil _
      rw [names_slash, hc]
  · exact names_slash a b

theorem root_join (a : String) {b : String} (hb : Path.isAbsolute b = false) :
    (ofText (Path.join a b)).root = (ofText a).root := Path.root_join a hb

/-- **A joined path** begins like its first part and goes on with the names of both. -/
theorem ofText_join (a : String) {b : String} (hb : Path.isAbsolute b = false) :
    ofText (Path.join a b) = ⟨(ofText a).root, (ofText a).names ++ (ofText b).names⟩ := by
  rw [← names_join a hb, ← root_join a hb]

/-- A relative path has nothing in front. -/
theorem root_of_relative {s : String} (h : Path.isAbsolute s = false) : (ofText s).root = "" :=
  Path.root_of_relative h

theorem isAbsolute_ofText (s : String) : (ofText s).isAbsolute = Path.isAbsolute s := by
  cases h : Path.isAbsolute s with
  | false =>
    rw [isAbsolute, root_of_relative h]
    rfl
  | true =>
    show (!(Path.root s).isEmpty) = true
    unfold Path.root
    rw [h]
    split
    · rfl
    · split
      · rfl
      · rfl

/-! ## 4. Normal form -/

/-- The path in normal form: a double dot cancels the name before it. -/
def normal (p : Pathname) : Pathname := ⟨p.root, (Path.reduce p.isAbsolute p.names).reverse⟩

end Pathname

namespace Path

theorem reduce_append (absolute : Bool) (a b : List String) :
    reduce absolute (a ++ b) = b.foldl (push absolute) (reduce absolute a) :=
  List.foldl_append

theorem push_skip (absolute : Bool) (done : List String) {name : String}
    (h : name = "" ∨ name = ".") : push absolute done name = done := by
  rcases h with rfl | rfl <;> rfl

/-- A double dot removes the name before it. -/
theorem push_up (absolute : Bool) {name : String} (h : name ≠ "..") (done : List String) :
    push absolute (name :: done) ".." = done := by
  simp [push, h]

/-- Empty and single-dot names do not count. -/
theorem foldl_push_filter (absolute : Bool) (ns done : List String) :
    (ns.filter fun n => n != "" && n != ".").foldl (push absolute) done
      = ns.foldl (push absolute) done := by
  induction ns generalizing done with
  | nil => rfl
  | cons n r ih =>
    by_cases hn : n = "" ∨ n = "."
    · have hdrop : (n != "" && n != ".") = false := by
        rcases hn with rfl | rfl <;> rfl
      rw [List.filter_cons, hdrop, List.foldl_cons, push_skip absolute done hn]
      exact ih done
    · rw [not_or] at hn
      have hkeep : (n != "" && n != ".") = true := by simpa using hn
      rw [List.filter_cons, hkeep, List.foldl_cons]
      exact ih _

/-- No name of a normal form is empty. -/
theorem empty_not_mem_reduce (absolute : Bool) (ns : List String) :
    "" ∉ reduce absolute ns := by
  have hpush : ∀ done name, "" ∉ done → "" ∉ push absolute done name := by
    intro done name h
    unfold push
    split
    · exact h
    · rename_i hname
      have hname : "" ≠ name := by
        rintro rfl
        exact hname rfl
      split
      · split
        · cases absolute <;> decide
        · rename_i d r
          split
          · intro hm
            rcases List.mem_cons.1 hm with hm | hm
            · exact absurd hm (by decide)
            · exact h hm
          · exact fun hm => h (List.mem_cons_of_mem _ hm)
      · exact List.not_mem_cons_of_ne_of_not_mem hname h
  suffices ∀ ns done, "" ∉ done → "" ∉ List.foldl (push absolute) done ns from
    this ns [] List.not_mem_nil
  intro ns
  induction ns with
  | nil => exact fun _ h => h
  | cons n r ih => exact fun done h => ih _ (hpush done n h)

/-- A name that stands in a path in normal form as it is. -/
def IsPlain (name : String) : Prop := name ≠ "" ∧ name ≠ "." ∧ name ≠ ".."

theorem push_of_isPlain (absolute : Bool) (done : List String) {name : String}
    (h : IsPlain name) : push absolute done name = name :: done := by
  obtain ⟨hempty, hdot, hdots⟩ := h
  simp [push, hempty, hdot, hdots]

/-- One name more adds that name at most, and to an absolute path only if it is plain. -/
theorem mem_push {done : List String} {name other : String} (h : other ∈ push true done name) :
    other ∈ done ∨ other = name ∧ IsPlain name := by
  by_cases hname : IsPlain name
  · rw [push_of_isPlain true done hname] at h
    exact (List.mem_cons.1 h).symm.imp_right fun h => ⟨h, hname⟩
  · refine .inl ?_
    unfold push at h
    split at h
    · exact h
    · rename_i hskip
      split at h
      · split at h
        · exact nomatch h
        · split at h
          · rename_i d r hd
            obtain rfl : d = ".." := beq_iff_eq.1 hd
            exact (List.mem_cons.1 h).elim (fun h => h ▸ List.mem_cons_self) id
          · exact List.mem_cons_of_mem _ h
      · rename_i hdots
        simp only [Bool.or_eq_true, beq_iff_eq, not_or] at hskip hdots
        exact absurd ⟨hskip.1, hskip.2, hdots⟩ hname

/-- The names of an absolute path in normal form are plain names of the path. -/
theorem mem_reduce {ns : List String} {name : String} (h : name ∈ reduce true ns) :
    name ∈ ns ∧ IsPlain name := by
  have hfold : ∀ (ns done : List String), name ∈ ns.foldl (push true) done →
      name ∈ done ∨ name ∈ ns ∧ IsPlain name := by
    intro ns
    induction ns with
    | nil => exact fun _ h => .inl h
    | cons n rest ih =>
      intro done h
      rcases ih _ h with h | ⟨h, hplain⟩
      · rcases mem_push h with h | ⟨rfl, hplain⟩
        · exact .inl h
        · exact .inr ⟨List.mem_cons_self, hplain⟩
      · exact .inr ⟨List.mem_cons_of_mem _ h, hplain⟩
  exact (hfold ns [] h).resolve_left List.not_mem_nil

/-- Plain names are in normal form. -/
theorem reduce_of_isPlain (absolute : Bool) {ns : List String} (h : ∀ n ∈ ns, IsPlain n) :
    reduce absolute ns = ns.reverse := by
  have hfold : ∀ (ns done : List String), (∀ n ∈ ns, IsPlain n) →
      ns.foldl (push absolute) done = ns.reverse ++ done := by
    intro ns
    induction ns with
    | nil => exact fun _ _ => rfl
    | cons n rest ih =>
      intro done h
      rw [List.foldl_cons, push_of_isPlain absolute done (h n List.mem_cons_self),
        ih _ fun m hm => h m (List.mem_cons_of_mem _ hm), List.reverse_cons, List.append_assoc]
      rfl
  exact (hfold ns [] h).trans (List.append_nil _)

end Path

namespace Pathname

/-- **An absolute form is one**, from wherever it is seen. -/
theorem resolve_resolve (directory : List String) (p : Pathname) :
    (p.resolve directory).resolve directory = p.resolve directory := by
  have hplain : ∀ ns : List String, Path.reduce true (Path.reduce true ns).reverse
      = Path.reduce true ns := by
    intro ns
    rw [Path.reduce_of_isPlain true fun n hn => (Path.mem_reduce (List.mem_reverse.1 hn)).2,
      List.reverse_reverse]
  show (⟨"/", (Path.reduce true (Path.reduce true _).reverse).reverse⟩ : Pathname) = _
  rw [hplain]
  rfl

theorem reduce_ofText (s : String) :
    Path.reduce (ofText s).isAbsolute (ofText s).names
      = Path.reduce (Path.isAbsolute s) (Path.names s) := by
  rw [isAbsolute_ofText]
  exact Path.foldl_push_filter _ _ _

/-- Names that are not empty have a text that is not empty. -/
theorem intercalate_ne_empty {sep : String} {ns : List String} (hne : ns ≠ [])
    (h : "" ∉ ns) : String.intercalate sep ns ≠ "" := by
  cases ns with
  | nil => exact absurd rfl hne
  | cons n r =>
    have hn : n ≠ "" := fun e => h (e ▸ List.mem_cons_self)
    cases r with
    | nil =>
      rw [String.intercalate_singleton]
      exact hn
    | cons m r =>
      rw [String.intercalate_cons_cons, String.append_assoc]
      exact fun e => hn (String.append_eq_empty_iff.1 e).1

/-- **The normal form of a path is the normal form of its text.** -/
theorem text_normal (s : String) : (ofText s).normal.text = Path.normalise s := by
  have hempty : "" ∉ (Path.reduce (Path.isAbsolute s) (Path.names s)).reverse := fun h =>
    Path.empty_not_mem_reduce _ _ (List.mem_reverse.1 h)
  rw [normal, text, Path.normalise, reduce_ofText]
  generalize (Path.reduce (Path.isAbsolute s) (Path.names s)).reverse = ns at hempty ⊢
  show (if (Path.root s).isEmpty && ns.isEmpty then "."
    else Path.root s ++ String.intercalate "/" ns) = _
  by_cases hroot : Path.root s = ""
  · rw [hroot, String.empty_append]
    by_cases hns : ns = []
    · subst hns
      rfl
    · have htext : (String.intercalate "/" ns).isEmpty = false :=
        String.isEmpty_eq_false_iff.2 (intercalate_ne_empty hns hempty)
      have hnames : ns.isEmpty = false := List.isEmpty_eq_false_iff.2 hns
      rw [htext, hnames]
      exact String.empty_append
  · have hfront : (Path.root s).isEmpty = false := String.isEmpty_eq_false_iff.2 hroot
    have htext : (Path.root s ++ String.intercalate "/" ns).isEmpty = false :=
      String.isEmpty_eq_false_iff.2 fun h => hroot (String.append_eq_empty_iff.1 h).1
    rw [hfront, htext]
    rfl

end Pathname

end SchemaTypes
