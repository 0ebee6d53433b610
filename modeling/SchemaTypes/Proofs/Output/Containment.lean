/-
# Files outside the output directory

The path of a generated file is put behind the output directory, and a name of the input may hold
slashes and double dots.  A path leads below every directory exactly if it is relative and never
climbs out of the directory that it starts from (`staysInside_iff`): `Path.depth?` follows its
names and counts how deep they lead.

Where a file keeps nothing but its last name, it stays inside.  Where it keeps the path that it has
in the generated tree, the name of its entity decides (`plan_staysInside_iff`), and no check looks
at that (`model_leaves_directory`).
-/
import SchemaTypes.Check.Full
import SchemaTypes.Proofs.Output.Route

namespace SchemaTypes

/-! ## 1. How deep a path leads -/

namespace Path

/-- The depth to which names lead from a depth on, unless a double dot leads out. -/
def depth? : Nat → List String → Option Nat
  | d, [] => some d
  | d, n :: rest =>
    if n = "" ∨ n = "." then depth? d rest
    else if n = ".." then if d = 0 then none else depth? (d - 1) rest
    else depth? (d + 1) rest

theorem depth?_skip {n : String} (h : n = "" ∨ n = ".") (d : Nat) (rest : List String) :
    depth? d (n :: rest) = depth? d rest := by
  rw [depth?, if_pos h]

theorem depth?_of_isPlain {n : String} (h : IsPlain n) (d : Nat) (rest : List String) :
    depth? d (n :: rest) = depth? (d + 1) rest := by
  rw [depth?, if_neg (not_or.2 ⟨h.1, h.2.1⟩), if_neg h.2.2]

/-- A name is skipped, a double dot, or plain. -/
theorem name_cases (n : String) : (n = "" ∨ n = ".") ∨ n = ".." ∨ IsPlain n := by
  by_cases hskip : n = "" ∨ n = "."
  · exact .inl hskip
  · by_cases hup : n = ".."
    · exact .inr (.inl hup)
    · rw [not_or] at hskip
      exact .inr (.inr ⟨hskip.1, hskip.2, hup⟩)

theorem depth?_append (d : Nat) (a b : List String) :
    depth? d (a ++ b) = (depth? d a).bind fun d => depth? d b := by
  induction a generalizing d with
  | nil => rfl
  | cons n rest ih =>
    rw [List.cons_append]
    rcases name_cases n with hskip | rfl | hplain
    · rw [depth?_skip hskip, depth?_skip hskip, ih]
    · cases d with
      | zero => rfl
      | succ d => exact ih d
    · rw [depth?_of_isPlain hplain, depth?_of_isPlain hplain, ih]

/-- Plain names lead down one by one. -/
theorem depth?_plain (d : Nat) {ns : List String} (h : ∀ n ∈ ns, IsPlain n) :
    depth? d ns = some (d + ns.length) := by
  induction ns generalizing d with
  | nil => rfl
  | cons n rest ih =>
    rw [depth?_of_isPlain (h n List.mem_cons_self),
      ih (d + 1) fun m hm => h m (List.mem_cons_of_mem _ hm), List.length_cons]
    congr 1
    omega

/-- Empty and single-dot names do not count. -/
theorem depth?_filter (d : Nat) (ns : List String) :
    depth? d (ns.filter fun n => n != "" && n != ".") = depth? d ns := by
  induction ns generalizing d with
  | nil => rfl
  | cons n rest ih =>
    rcases name_cases n with hskip | hkept
    · have hdrop : (n != "" && n != ".") = false := by
        rcases hskip with rfl | rfl <;> rfl
      rw [List.filter_cons, hdrop, depth?_skip hskip]
      exact ih d
    · have hkeep : (n != "" && n != ".") = true := by
        rcases hkept with rfl | hplain
        · rfl
        · simp [hplain.1, hplain.2.1]
      rw [List.filter_cons, hkeep, if_pos rfl]
      rcases hkept with rfl | hplain
      · cases d with
        | zero => rfl
        | succ d => exact ih d
      · rw [depth?_of_isPlain hplain, depth?_of_isPlain hplain, ih]

/-- From further down it leads as far. -/
theorem depth?_succ {d k : Nat} {ns : List String} (h : depth? d ns = some k) :
    depth? (d + 1) ns = some (k + 1) := by
  induction ns generalizing d with
  | nil =>
    rw [depth?, Option.some.injEq] at h
    rw [depth?, h]
  | cons n rest ih =>
    rcases name_cases n with hskip | rfl | hplain
    · rw [depth?_skip hskip] at h ⊢
      exact ih h
    · cases d with
      | zero => exact nomatch h
      | succ d => exact ih (d := d) h
    · rw [depth?_of_isPlain hplain] at h ⊢
      exact ih h

/-- **A path that never climbs out leaves the directory below it alone**: the names that it leaves
stand on top of those of the directory, and are as many as it is deep. -/
theorem foldl_push_of_depth? {ns : List String} {k : Nat} (front base : List String)
    (hfront : ∀ n ∈ front, IsPlain n) (h : depth? front.length ns = some k) :
    ∃ front' : List String, front'.length = k ∧
      ns.foldl (push true) (front ++ base) = front' ++ base := by
  induction ns generalizing front with
  | nil => exact ⟨front, Option.some.inj h, rfl⟩
  | cons n rest ih =>
    rw [List.foldl_cons]
    rcases name_cases n with hskip | rfl | hplain
    · rw [depth?_skip hskip] at h
      rw [push_skip true _ hskip]
      exact ih front hfront h
    · cases front with
      | nil => exact nomatch h
      | cons m front =>
        rw [List.cons_append, push_up true (hfront m List.mem_cons_self).2.2]
        exact ih front (fun x hx => hfront x (List.mem_cons_of_mem _ hx)) h
    · rw [push_of_isPlain true _ hplain]
      rw [depth?_of_isPlain hplain] at h
      refine ih (n :: front) (fun x hx => ?_) h
      rcases List.mem_cons.1 hx with rfl | hx
      · exact hplain
      · exact hfront x hx

/-- **A path that climbs out loses the directory**, unless it names it itself. -/
theorem not_mem_foldl_push_of_depth? {ns : List String} {name : String} (front : List String)
    (hfront : ∀ n ∈ front, IsPlain n) (h : depth? front.length ns = none) (hname : name ∉ ns)
    (hnot : name ∉ front) : name ∉ ns.foldl (push true) (front ++ [name]) := by
  induction ns generalizing front with
  | nil => exact nomatch h
  | cons n rest ih =>
    obtain ⟨hne, hrest⟩ := not_or.1 (mt List.mem_cons.2 hname)
    rw [List.foldl_cons]
    rcases name_cases n with hskip | rfl | hplain
    · rw [depth?_skip hskip] at h
      rw [push_skip true _ hskip]
      exact ih front hfront h hrest hnot
    · cases front with
      | nil =>
        -- Here the path leaves the directory: nothing of it is left for the names that follow.
        rw [List.nil_append, push_up true hne]
        exact fun hmem => hrest (mem_reduce hmem).1
      | cons m front =>
        rw [List.cons_append, push_up true (hfront m List.mem_cons_self).2.2]
        exact ih front (fun x hx => hfront x (List.mem_cons_of_mem _ hx)) h hrest
          fun hx => hnot (List.mem_cons_of_mem _ hx)
    · rw [push_of_isPlain true _ hplain]
      rw [depth?_of_isPlain hplain] at h
      refine ih (n :: front) (fun x hx => ?_) h hrest ?_
      · rcases List.mem_cons.1 hx with rfl | hx
        · exact hplain
        · exact hfront x hx
      · exact List.not_mem_cons_of_ne_of_not_mem hne hnot

end Path

/-! ## 2. Paths that stay inside -/

namespace Pathname

/-- A path leads strictly below a directory. -/
def Below (directory p : Pathname) : Prop :=
  p.root = directory.root ∧ ∃ rest, rest ≠ [] ∧ p.names = directory.names ++ rest

end Pathname

namespace Output

open SchemaTypes.Path (IsPlain depth?)
open Pathname (Below)

/-- Where a path leads from the output directory, which is given with the current directory. -/
def placeUnder (current : List String) (out : Pathname) (path : String) : Pathname :=
  ((out.resolve current).child (.ofText path)).normal

/-- The path leads below the output directory, whatever the directory is. -/
def StaysInside (path : String) : Prop :=
  ∀ current out, Below (Pathname.resolve current out) (placeUnder current out path)

/-- Behind a directory, only the names of a relative path count. -/
theorem placeUnder_relative {path : String} (h : Path.isAbsolute path = false)
    (current : List String) (out : Pathname) :
    placeUnder current out path
      = ⟨"/", ((Path.names path).foldl (Path.push true)
          (out.resolve current).names.reverse).reverse⟩ := by
  have hchild : (out.resolve current).child (.ofText path)
      = ⟨"/", (out.resolve current).names ++ (Pathname.ofText path).names⟩ := by
    rw [Pathname.child, Pathname.isAbsolute_ofText, h]
    rfl
  have hplain : ∀ n ∈ (out.resolve current).names, IsPlain n := fun n hn =>
    (Path.mem_reduce (List.mem_reverse.1 hn)).2
  rw [placeUnder, hchild]
  show (⟨"/", (Path.reduce true _).reverse⟩ : Pathname) = _
  rw [Path.reduce_append, Path.reduce_of_isPlain true hplain]
  congr 2
  exact Path.foldl_push_filter _ _ _

/-- A directory that no name of a path names. -/
theorem exists_other_directory (ns : List String) : ∃ name, IsPlain name ∧ name ∉ ns := by
  have hinfinite : Infinite String :=
    Infinite.of_injective (fun n => String.ofList (List.replicate n 'x')) fun a b h => by
      have hlength := congrArg (fun s => s.toList.length) h
      simpa using hlength
  obtain ⟨name, hname⟩ := Infinite.exists_notMem_finset ("" :: "." :: ".." :: ns).toFinset
  simp only [List.mem_toFinset, List.mem_cons, not_or] at hname
  obtain ⟨hempty, hdot, hup, hns⟩ := hname
  exact ⟨name, ⟨hempty, hdot, hup⟩, hns⟩

/-- A directory of one name. -/
theorem resolve_singleton {name : String} (h : IsPlain name) :
    Pathname.resolve [] ⟨"/", [name]⟩ = ⟨"/", [name]⟩ := by
  show (⟨"/", (Path.reduce true [name]).reverse⟩ : Pathname) = _
  rw [Path.reduce_of_isPlain true fun n hn => List.mem_singleton.1 hn ▸ h]
  rfl

/-- An absolute path goes where it goes: not below a directory that it does not name. -/
theorem isAbsolute_of_staysInside {path : String} (h : StaysInside path) :
    Path.isAbsolute path = false := by
  obtain ⟨name, hplain, hname⟩ := exists_other_directory (Pathname.ofText path).names
  obtain ⟨-, rest, -, hnames⟩ := h [] ⟨"/", [name]⟩
  rw [resolve_singleton hplain] at hnames
  have hmem : name ∈ (placeUnder [] ⟨"/", [name]⟩ path).names := by
    rw [hnames]
    exact List.mem_append_left _ List.mem_cons_self
  by_contra habsolute
  rw [Bool.not_eq_false] at habsolute
  rw [placeUnder, Pathname.child, Pathname.isAbsolute_ofText, habsolute, if_pos rfl] at hmem
  replace hmem := List.mem_reverse.1 hmem
  rw [Pathname.isAbsolute_ofText, habsolute] at hmem
  exact hname (Path.mem_reduce hmem).1

/-- A path that climbs out of a directory loses it, and one that ends where it starts is not below
it. -/
theorem exists_depth_of_staysInside {path : String} (h : StaysInside path) :
    ∃ d, depth? 0 (Path.names path) = some (d + 1) := by
  obtain ⟨name, hplain, hname⟩ := exists_other_directory (Path.names path)
  obtain ⟨-, rest, hrest, hnames⟩ := h [] ⟨"/", [name]⟩
  have hplace := placeUnder_relative (isAbsolute_of_staysInside h) [] ⟨"/", [name]⟩
  rw [hplace, resolve_singleton hplain] at hnames
  replace hnames : (Path.names path).foldl (Path.push true) [name] = rest.reverse ++ [name] := by
    rw [← List.reverse_inj, List.reverse_append, List.reverse_reverse]
    exact hnames
  cases hdepth : depth? 0 (Path.names path) with
  | none =>
    have hlost := Path.not_mem_foldl_push_of_depth? [] (List.forall_mem_nil _) hdepth hname
      List.not_mem_nil
    rw [List.nil_append, hnames] at hlost
    exact absurd (List.mem_append_right _ List.mem_cons_self) hlost
  | some k =>
    obtain ⟨front, rfl, hfold⟩ := Path.foldl_push_of_depth? [] [name] (List.forall_mem_nil _) hdepth
    rw [List.nil_append, hnames] at hfold
    have hlength := congrArg List.length (List.append_cancel_right hfold)
    rw [List.length_reverse] at hlength
    have hpos := List.length_pos_of_ne_nil hrest
    exact ⟨front.length - 1, congrArg some (by omega)⟩

/-- **A path stays inside exactly if it is relative and never climbs out.** -/
theorem staysInside_iff {path : String} :
    StaysInside path ↔
      Path.isAbsolute path = false ∧ ∃ d, depth? 0 (Path.names path) = some (d + 1) := by
  constructor
  · intro h
    exact ⟨isAbsolute_of_staysInside h, exists_depth_of_staysInside h⟩
  · rintro ⟨hrelative, d, hdepth⟩ current out
    obtain ⟨front, hlength, hfold⟩ := Path.foldl_push_of_depth? []
      (out.resolve current).names.reverse (List.forall_mem_nil _) hdepth
    rw [placeUnder_relative hrelative]
    refine ⟨rfl, front.reverse, ?_, ?_⟩
    · intro hnil
      rw [List.reverse_eq_nil_iff.1 hnil] at hlength
      cases hlength
    · rw [List.nil_append] at hfold
      rw [hfold, List.reverse_append, List.reverse_reverse]

/-- A path without a slash in front and without double dots. -/
structure Inward (path : String) : Prop where
  relative : Path.isAbsolute path = false
  noUp : ".." ∉ Path.names path

namespace Inward

variable {a b : String}

/-- Its names are plain. -/
theorem isPlain (h : Inward a) : ∀ n ∈ (Pathname.ofText a).names, IsPlain n := by
  intro n hn
  obtain ⟨hmem, hkept⟩ := List.mem_filter.1 hn
  simp only [Bool.and_eq_true, bne_iff_ne, ne_eq] at hkept
  exact ⟨hkept.1, hkept.2, fun hup => h.noUp (hup ▸ hmem)⟩

theorem isAbsolute_join (h : Inward a) (hb : Path.isAbsolute b = false) :
    Path.isAbsolute (Path.join a b) = false := by
  rw [← Pathname.isAbsolute_ofText, Pathname.isAbsolute, Pathname.root_join a hb]
  show (Pathname.ofText a).isAbsolute = false
  rw [Pathname.isAbsolute_ofText]
  exact h.relative

/-- A double dot is a name of a path. -/
theorem up_mem_names_iff {path : String} :
    ".." ∈ (Pathname.ofText path).names ↔ ".." ∈ Path.names path := by
  rw [Pathname.ofText, List.mem_filter]
  exact and_iff_left rfl

theorem join (ha : Inward a) (hb : Inward b) : Inward (Path.join a b) := by
  refine ⟨ha.isAbsolute_join hb.relative, ?_⟩
  rw [← up_mem_names_iff, Pathname.names_join a hb.relative, List.mem_append, up_mem_names_iff,
    up_mem_names_iff]
  exact not_or.2 ⟨ha.noUp, hb.noUp⟩

/-- One name that is no double dot. -/
theorem single (hs : '/' ∉ a.toList) (h : a ≠ "..") : Inward a := by
  refine ⟨Path.isAbsolute_of_not_mem hs, ?_⟩
  rw [Path.names_of_not_mem hs]
  exact fun hmem => h (List.mem_singleton.1 hmem).symm

end Inward

/-- **A path behind the directory of a run** stays inside exactly if it is relative and does not
climb further than that directory is deep. -/
theorem staysInside_join {a b : String} (ha : Inward a) :
    StaysInside (Path.join a b) ↔
      Path.isAbsolute b = false ∧
        ∃ d, depth? (Pathname.ofText a).names.length (Path.names b) = some (d + 1) := by
  rw [staysInside_iff]
  cases hb : Path.isAbsolute b with
  | true =>
    have hjoin : Path.join a b = b := by rw [Path.join, hb, if_pos rfl]
    rw [hjoin, hb]
    constructor
    · rintro ⟨h, -⟩
      cases h
    · rintro ⟨h, -⟩
      cases h
  | false =>
    have hdepth : depth? 0 (Path.names (Path.join a b))
        = depth? (Pathname.ofText a).names.length (Path.names b) := by
      have hjoin := Pathname.names_join a hb
      rw [← Path.depth?_filter 0]
      change depth? 0 (Pathname.ofText (Path.join a b)).names = _
      rw [hjoin, Path.depth?_append, Path.depth?_plain 0 ha.isPlain, Nat.zero_add]
      exact Path.depth?_filter _ _
    rw [hdepth, ha.isAbsolute_join hb]

/-! ## 3. Paths of files -/

/-- The directories of a path do not climb out of the output directory from that of the models. -/
structure Keeps (config : Config) (path : String) : Prop where
  relative : Path.isAbsolute path = false
  directories : (depth? (modelRoute config).length (Path.names path).dropLast).isSome = true

variable {collection : Collection} {config : Config}

/-- The end of a path does not count. -/
theorem keeps_append_iff {b : String} (hb : '/' ∉ b.toList) (a : String) :
    Keeps config (a ++ b) ↔ Keeps config a := by
  have hnames := Path.dropLast_names_append hb a
  have habsolute := Path.isAbsolute_append_of_not_mem hb a
  constructor
  · rintro ⟨hrelative, hdirectories⟩
    exact ⟨habsolute ▸ hrelative, hnames ▸ hdirectories⟩
  · rintro ⟨hrelative, hdirectories⟩
    exact ⟨habsolute.symm ▸ hrelative, hnames.symm ▸ hdirectories⟩

/-- One name climbs nowhere. -/
theorem Keeps.single {name : String} (h : '/' ∉ name.toList) : Keeps config name := by
  refine ⟨Path.isAbsolute_of_not_mem h, ?_⟩
  rw [Path.names_of_not_mem h]
  rfl

/-- A directory more holds what was held without it. -/
theorem Keeps.directory {path : String} (h : Keeps config path) (directory : String)
    (hplain : IsPlain directory) (hs : '/' ∉ directory.toList) :
    Keeps config (directory ++ "/" ++ path) := by
  constructor
  · rw [String.append_assoc]
    exact Path.isAbsolute_append hplain.1 (Path.isAbsolute_of_not_mem hs) _
  · obtain ⟨k, hk⟩ := Option.isSome_iff_exists.1 h.directories
    have hne : Path.names path ≠ [] := by
      rw [Path.names, Text.pieces]
      exact fun hnil => Text.splitOn_ne_nil _ _ (List.map_eq_nil_iff.1 hnil)
    rw [Path.names_slash, Path.names_of_not_mem hs, List.singleton_append,
      List.dropLast_cons_of_ne_nil hne, Path.depth?_of_isPlain hplain, Path.depth?_succ hk]
    rfl

/-- **A file behind the directory of the models.** -/
theorem staysInside_models_iff (hmodels : Inward config.modelsPath) (name : String) :
    StaysInside (Path.join config.modelsPath (fileName name)) ↔ Keeps config name := by
  have hts : '/' ∉ ".ts".toList := by decide
  obtain ⟨last, -, hnames⟩ := Path.exists_names_append hts name
  have hdepth : ∀ k, depth? k (Path.names (fileName name))
      = (depth? k (Path.names name).dropLast).map (· + 1) := by
    intro k
    have hlast : ∀ d, depth? d [last ++ ".ts"] = some (d + 1) := fun d =>
      Path.depth?_of_isPlain (isPlain_fileName last) d []
    rw [fileName, hnames, Path.depth?_append, Option.map_eq_bind]
    simp only [hlast]
    rfl
  rw [staysInside_join hmodels, hdepth]
  have habsolute : Path.isAbsolute (fileName name) = Path.isAbsolute name :=
    Path.isAbsolute_append_of_not_mem hts name
  rw [habsolute]
  constructor
  · rintro ⟨hrelative, d, hd⟩
    obtain ⟨k, hk, -⟩ := Option.map_eq_some_iff.1 hd
    exact ⟨hrelative, Option.isSome_iff_exists.2 ⟨k, hk⟩⟩
  · rintro ⟨hrelative, hdirectories⟩
    obtain ⟨k, hk⟩ := Option.isSome_iff_exists.1 hdirectories
    exact ⟨hrelative, k, by rw [← modelRoute, hk]; rfl⟩

/-- **A file that keeps nothing but its last name stays inside.** -/
theorem staysInside_baseName {directory : String} (h : Inward directory) (name : String) :
    StaysInside (Path.join directory (Path.baseName (fileName name))) := by
  have hts : '/' ∉ ".ts".toList := by decide
  obtain ⟨last, hlast, hnames⟩ := Path.exists_names_append hts name
  have hbase : Path.baseName (fileName name) = fileName last := by
    rw [Path.baseName, fileName, hnames]
    simp [fileName]
  rw [hbase, staysInside_join h]
  refine ⟨Path.isAbsolute_of_not_mem (slash_not_mem_fileName hlast),
    (Pathname.ofText directory).names.length, ?_⟩
  rw [Path.names_of_not_mem (slash_not_mem_fileName hlast),
    Path.depth?_of_isPlain (isPlain_fileName last)]
  rfl

/-! ## 4. The files of a plan -/

/-- The file keeps its path in the generated tree behind the directory of the models; the other
files keep the last name of it, in a directory of their own. -/
def keepsPath (config : Config) (m : PlannedModule) : Bool :=
  match config.layout, m.category with
  | .flat, .schema => true
  | .flat, .base => true
  | .package, .schema => !(m.overwrite && sharedFiles.contains m.path)
  | _, _ => false

/-- What of the settings must not lead out of the output directory. -/
structure InwardSettings (config : Config) : Prop where
  models : Inward config.modelsPath
  package : Inward config.packageName

theorem inward_packageRoot (h : InwardSettings config) : Inward (packageRoot config) :=
  (Inward.single (by decide) (by decide)).join h.package

/-- A directory of one name in another. -/
theorem Inward.directory {a directory : String} (h : Inward a) (hs : '/' ∉ directory.toList)
    (hup : directory ≠ "..") : Inward (Path.join a directory) :=
  h.join (.single hs hup)

/-- **A planned file stays inside exactly if it does not keep its path, or its path does not climb
out of the output directory.** -/
theorem staysInside_place_iff (h : InwardSettings config) {m : PlannedModule} {name : String}
    (hpath : m.path = fileName name) :
    StaysInside (outputPath m.toFile config) ↔ (keepsPath config m = true → Keeps config name) := by
  have henum : ∀ a, Inward a → Inward (Path.join a "enum") := fun a ha =>
    ha.directory (by decide) (by decide)
  have hplugin : ∀ a, Inward a → Inward (Path.join a "plugin") := fun a ha =>
    ha.directory (by decide) (by decide)
  have hschemas : ∀ a, Inward a → Inward (Path.join a "schemas") := fun a ha =>
    ha.directory (by decide) (by decide)
  have hpackage := inward_packageRoot h
  have hmodels := h.models
  have hlast : ∀ directory, Inward directory → (StaysInside (Path.join directory
      (Path.baseName (fileName name))) ↔ (false = true → Keeps config name)) :=
    fun directory hdirectory =>
      ⟨fun _ hfalse => (nomatch hfalse), fun _ => staysInside_baseName hdirectory name⟩
  have hkept : StaysInside (Path.join config.modelsPath (fileName name)) ↔
      (true = true → Keeps config name) :=
    (staysInside_models_iff hmodels name).trans ⟨fun hkeeps _ => hkeeps, fun hkeeps => hkeeps rfl⟩
  rw [outputPath_toFile, placeOf, outputPath, keepsPath, hpath]
  dsimp only
  cases config.layout with
  | flat =>
    cases m.category with
    | schema => exact hkept
    | base => exact hkept
    | enum => exact hlast _ (henum _ hmodels)
    | pluginEnum => exact hlast _ (hplugin _ (henum _ hmodels))
  | package =>
    cases m.category with
    | schema =>
      dsimp only
      split
      · rename_i hshared
        rw [hshared]
        exact hlast _ (hschemas _ hpackage)
      · rename_i hshared
        rw [Bool.not_eq_true] at hshared
        rw [hshared]
        exact hkept
    | base => exact hlast _ (hschemas _ hpackage)
    | enum => exact hlast _ (henum _ hpackage)
    | pluginEnum => exact hlast _ (henum _ hpackage)

/-- The path of an entity's own file in the generated tree. -/
theorem basePath_eq (name : String) : "base/" ++ name ++ ".ts" = fileName ("base/" ++ name) := rfl

/-- The path of an entity's rules. -/
theorem rulesPath_eq (name : String) :
    "rules/" ++ name ++ ".rules.ts" = fileName ("rules/" ++ name ++ ".rules") := by
  refine String.toList_inj.1 ?_
  simp [fileName]

theorem keeps_base {name : String} (h : Keeps config name) : Keeps config ("base/" ++ name) :=
  h.directory "base" (by unfold IsPlain; decide) (by decide)

theorem keeps_rules {name : String} (h : Keeps config name) :
    Keeps config ("rules/" ++ name ++ ".rules") :=
  (keeps_append_iff (by decide) _).2
    (h.directory "rules" (by unfold IsPlain; decide) (by decide))

/-- Enumerations keep their last name. -/
theorem keepsPath_planEnum {room : Nat} {e : Enumeration} {m : PlannedModule}
    (h : planEnum room config e = .ok m) :
    m.path = fileName e.name ∧ keepsPath config m = false := by
  obtain ⟨source, -, rfl⟩ := planEnum_eq_ok_iff.1 h
  refine ⟨rfl, ?_⟩
  unfold keepsPath
  cases config.layout <;> cases e.plugin <;> rfl

/-- **Every planned file is named like a file**, and if the names of entities do not climb out, no
path that is kept does. -/
theorem exists_fileName_of_origin {m : PlannedModule} (h : Origin collection config m) :
    ∃ name, m.path = fileName name ∧
      ((∀ s ∈ visibleSchemas collection, Keeps config s.name) → keepsPath config m = true →
        Keeps config name) := by
  have hflat (name : String) {m : PlannedModule} (hpath : m.path = fileName name)
      (hkeeps : keepsPath config m = false) : ∃ name, m.path = fileName name ∧
        ((∀ s ∈ visibleSchemas collection, Keeps config s.name) → keepsPath config m = true →
          Keeps config name) := by
    refine ⟨name, hpath, fun _ htrue => ?_⟩
    rw [hkeeps] at htrue
    cases htrue
  have henum {room : Nat} {e : Enumeration} {m : PlannedModule}
      (heq : planEnum room config e = .ok m) :=
    hflat e.name (keepsPath_planEnum heq).1 (keepsPath_planEnum heq).2
  cases h with
  | schemaEnum _ heq => exact henum heq
  | pluginEnum _ heq => exact henum heq
  | @inline x m _ heq =>
    cases x with
    | enum _ _ e => exact henum heq
    | «alias» _ _ a =>
      obtain rfl := Except.ok.inj heq
      refine hflat a.name rfl ?_
      unfold keepsPath
      cases config.layout <;> rfl
  | base hs => exact ⟨_, basePath_eq _, fun h _ => keeps_base (h _ hs)⟩
  | model hs => exact ⟨_, rfl, fun h _ => h _ hs⟩
  | rules _ hs => exact ⟨_, rulesPath_eq _, fun h _ => keeps_rules (h _ hs)⟩
  | common =>
    have hname : "common.ts" = fileName "common" := by decide
    exact ⟨_, hname, fun _ _ => .single (by decide)⟩
  | i18n =>
    have hname : "i18n.ts" = fileName "i18n" := by decide
    exact ⟨_, hname, fun _ _ => .single (by decide)⟩
  | index =>
    have hname : "index.ts" = fileName "index" := by decide
    exact ⟨_, hname, fun _ _ => .single (by decide)⟩

/-- Which files of a plan stay inside the output directory. -/
structure Contained (collection : Collection) (config : Config) (ms : List PlannedModule) :
    Prop where
  /-- A file that keeps its path stays inside exactly if its directories do; any other does. -/
  file : ∀ m ∈ ms, StaysInside (outputPath m.toFile config) ↔
    (keepsPath config m = true → Keeps config m.path)
  /-- All of them do exactly if the names of entities do not climb out. -/
  plan : (∀ m ∈ ms, StaysInside (outputPath m.toFile config)) ↔
    ∀ s ∈ visibleSchemas collection, Keeps config s.name

/-- **The files of a plan stay inside the output directory exactly if no visible entity has a name
that leads out of it**, in both layouts. -/
theorem plan_staysInside_iff {ms : List PlannedModule}
    (hms : planModules collection config = .ok ms) (hsettings : InwardSettings config) :
    Contained collection config ms := by
  constructor
  case file =>
    intro m hm
    obtain ⟨name, hname, -⟩ := exists_fileName_of_origin ((mem_planModules_iff hms m).1 hm)
    rw [staysInside_place_iff hsettings hname, hname, fileName, keeps_append_iff (by decide)]
  case plan =>
    constructor
    · intro h s hs
      have hmodel := h _ ((mem_planModules_iff hms _).2 (.model hs))
      refine (staysInside_place_iff hsettings rfl).1 hmodel ?_
      unfold keepsPath
      cases config.layout <;> rfl
    · intro h m hm
      obtain ⟨name, hname, hkeeps⟩ :=
        exists_fileName_of_origin ((mem_planModules_iff hms m).1 hm)
      exact (staysInside_place_iff hsettings hname).2 (hkeeps h)

/-- An entity whose name leads out of the output directory. -/
def climbing : Collection := ⟨[{ name := "../../../escape" }]⟩

/-- One whose name leads through a directory and back. -/
def detour : Collection := ⟨[{ name := "admin/../User" }]⟩

theorem inwardSettings_default : InwardSettings {} :=
  ⟨.single (by decide) (by decide), ⟨by decide, by decide⟩⟩

theorem detour_staysInside :
    InwardSettings {} ∧ ∃ ms, planModules detour {} = .ok ms ∧ Contained detour {} ms ∧
      ∀ m ∈ ms, StaysInside (outputPath m.toFile {}) := by
  have hplan : ∃ ms, planModules detour {} = .ok ms :=
    ⟨_, planModules_eq_ok_iff.2 ⟨by decide, _, rfl, rfl, rfl⟩⟩
  obtain ⟨ms, hms⟩ := hplan
  have hcontained := plan_staysInside_iff hms inwardSettings_default
  refine ⟨inwardSettings_default, ms, hms, hcontained, hcontained.plan.2 ?_⟩
  intro s hs
  obtain rfl := List.mem_singleton.1 hs
  exact ⟨by decide, by decide⟩

/-- No check looks at the name, and the model file of the entity stands beside the directory in
which the output directory stands. -/
theorem model_leaves_directory :
    InwardSettings {} ∧ Check.problems climbing {} = [] ∧
      ∃ ms, planModules climbing {} = .ok ms ∧ ∃ m ∈ ms,
        placeUnder [] (.ofText "/srv/project/generated") (outputPath m.toFile {})
            = .ofText "/srv/escape.ts" ∧
          ¬ StaysInside (outputPath m.toFile {}) := by
  have hplan : ∃ ms, planModules climbing {} = .ok ms :=
    ⟨_, planModules_eq_ok_iff.2 ⟨by decide, _, rfl, rfl, rfl⟩⟩
  obtain ⟨ms, hms⟩ := hplan
  have hentity : ({ name := "../../../escape" } : Schema) ∈ visibleSchemas climbing :=
    List.mem_singleton_self _
  refine ⟨inwardSettings_default, by decide, ms, hms, _,
    (mem_planModules_iff hms _).2 (.model hentity), by decide, fun hinside => ?_⟩
  have hkeeps := (staysInside_place_iff inwardSettings_default rfl).1 hinside rfl
  exact absurd hkeeps.directories (by decide)

end Output

end SchemaTypes
