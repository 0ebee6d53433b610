/-
# How stable snake forms are

A name is its own snake form exactly if it is made of settled characters and does not begin with an
underscore (`snake_eq_self_iff`): the underscore at the front is dropped whether the snake form has
put it there or the name had it before.  So a second snake form differs from the first one exactly
for names that begin with an underscore and have another one, or a capital, behind it
(`snake_snake_iff`).

Validators, labels and exclusions use a property under its snake form (`usesNames_snake`), and thus
as it was declared if that is its name.
-/
import SchemaTypes.Proofs.DisplayNames
import SchemaTypes.Proofs.FieldNames

namespace SchemaTypes

/-! ## 1. Underscores in small forms -/

namespace Text

theorem eq_of_ofNat_eq_underscore {n : Nat} (h : Char.ofNat n = '_') : n = 0x5F := by
  by_cases hvalid : n.isValidChar
  · have htoNat : (Char.ofNat n).toNat = ('_').toNat := congrArg Char.toNat h
    rwa [Char.toNat_ofNat, if_pos hvalid] at htoNat
  · rw [Char.ofNat, dif_neg hvalid] at h
    exact absurd h (by decide)

/-- No run of the table leads to the underscore. -/
theorem lowerRuns_pass_underscore :
    (lowerRuns.all fun r => Nat.blt (r.image r.last) 0x5F || Nat.blt 0x5F (r.image r.first))
      = true := by decide +kernel

theorem eq_of_shiftBy_eq_underscore {c : Char} (h : shiftBy lowerRuns c = '_') : c = '_' := by
  unfold shiftBy at h
  split at h
  · rename_i r hr
    have hmem := List.mem_of_find?_eq_some hr
    have hcovers : r.covers c.toNat = true := by simpa using List.find?_some hr
    have hside := List.all_eq_true.1 lowerRuns_pass_underscore r hmem
    simp only [Bool.or_eq_true, Nat.blt_eq] at hside
    obtain ⟨-, hlow, hhigh⟩ := CaseRun.image_bounds (lower_liesBehind.runs r hmem) hcovers
    have himage : r.image c.toNat = 0x5F := eq_of_ofNat_eq_underscore h
    omega
  · exact h

/-- Every character has a small form, and only that of the underscore has the underscore in it. -/
theorem lowerChar_underscore (c : Char) :
    lowerChar c ≠ [] ∧ ('_' ∈ lowerChar c → c = '_') := by
  have hexpansions : ∀ e ∈ lowerExpansions, e.2.map Char.ofNat ≠ [] ∧ '_' ∉ e.2.map Char.ofNat := by
    decide +kernel
  unfold lowerChar
  split
  · refine ⟨List.cons_ne_nil _ _, fun h => ?_⟩
    have heq := List.mem_singleton.1 h
    split at heq
    · rename_i hcapital
      simp only [isCapital, Bool.and_eq_true, decide_eq_true_eq] at hcapital
      have hlow : 65 ≤ c.toNat := hcapital.1
      have himage := eq_of_ofNat_eq_underscore heq.symm
      omega
    · exact heq.symm
  · unfold mapCase
    split
    · rename_i cs hcs
      obtain ⟨before, after, heq, -⟩ := List.lookup_eq_some_iff.1 hcs
      obtain ⟨hne, hnot⟩ := hexpansions (c.toNat, cs) (by simp [heq])
      exact ⟨hne, fun h => absurd h hnot⟩
    · exact ⟨List.cons_ne_nil _ _,
        fun h => eq_of_shiftBy_eq_underscore (List.mem_singleton.1 h).symm⟩

/-- The small form of a character is not empty wherever the character stands, and only that of the
underscore has the underscore in it. -/
theorem lowerBetween_underscore (before : List Char) (c : Char) (rest : List Char) :
    lowerBetween before c rest ≠ [] ∧ ('_' ∈ lowerBetween before c rest → c = '_') := by
  unfold lowerBetween
  split
  · refine ⟨List.cons_ne_nil _ _, fun h => ?_⟩
    split at h
    · exact absurd h (by decide)
    · exact absurd h (by decide)
  · exact lowerChar_underscore c

/-- A small form begins with an underscore exactly if its text does. -/
theorem head?_lower_eq_underscore {cs : List Char} :
    (lower cs).head? = some '_' ↔ cs.head? = some '_' := by
  cases cs with
  | nil => exact Iff.rfl
  | cons c r =>
    constructor
    · obtain ⟨hne, hmem⟩ := lowerBetween_underscore [] c r
      obtain ⟨d, t, hcons⟩ := List.exists_cons_of_ne_nil hne
      rw [lower, lowerAfter, hcons, List.cons_append, List.head?_cons, List.head?_cons]
      rw [hcons] at hmem
      intro h
      rw [Option.some_inj] at h ⊢
      exact hmem (h ▸ List.mem_cons_self)
    · intro h
      rw [List.head?_cons, Option.some_inj] at h
      rw [h]
      exact congrArg List.head? (lower_append_underscore [] r)

end Text

/-! ## 2. Snake forms of snake forms -/

namespace Naming

open Text (Settled isCapital lower lower_lower)

/-- A name that keeps an underscore at the front when one is dropped: behind the first underscore
stands another one, or a capital, which brings one with it. -/
def MarkedTwice (name : String) : Prop :=
  ∃ c r, name.toList = '_' :: c :: r ∧ (c = '_' ∨ isCapital c = true)

theorem head?_markCapitals_eq_underscore {c : Char} {r : List Char} :
    (markCapitals (c :: r)).head? = some '_' ↔ c = '_' ∨ isCapital c = true := by
  rw [markCapitals]
  split
  · rename_i hcapital
    simp [hcapital]
  · rename_i hcapital
    simp [hcapital]

theorem head?_snake_eq_underscore {name : String} :
    (snake name).toList.head? = some '_' ↔ MarkedTwice name := by
  rw [snake, String.toList_ofList, snakeChars, Text.head?_lower_eq_underscore]
  unfold MarkedTwice
  cases name.toList with
  | nil => simp [dropUnderscore]
  | cons c r =>
    by_cases hc : c = '_'
    · -- The underscore of the name is dropped.
      subst hc
      have hmark : markCapitals ('_' :: r) = '_' :: markCapitals r := by
        rw [markCapitals, if_neg (by decide)]
      rw [hmark, dropUnderscore]
      cases r with
      | nil => simp
      | cons d t => simp [head?_markCapitals_eq_underscore]
    · -- An underscore in front of a capital is dropped, and no other stands at the front.
      rw [markCapitals]
      split
      · simp [dropUnderscore, hc]
      · simp [dropUnderscore, hc]

theorem startsWith_underscore_eq_false {s : String} :
    Text.startsWith s "_" = false ↔ s.toList.head? ≠ some '_' := by
  have hsingle : "_" = String.singleton '_' := by decide
  rw [hsingle, ← Bool.not_eq_true, not_congr Text.startsWith_singleton]

/-- **Which names are their own snake form**: those of settled characters without an underscore at
the front. -/
theorem snake_eq_self_iff {name : String} :
    snake name = name ↔
      (∀ c ∈ name.toList, Settled c) ∧ Text.startsWith name "_" = false := by
  rw [startsWith_underscore_eq_false]
  refine ⟨fun h => ?_, fun h => snake_eq_self h.1 h.2⟩
  have hsettled : ∀ c ∈ name.toList, Settled c := h ▸ settled_of_mem_snake
  refine ⟨hsettled, fun hhead => ?_⟩
  obtain ⟨r, hr⟩ := List.head?_eq_some_iff.1 hhead
  have hlist : snakeChars name.toList = name.toList := by
    rw [← String.toList_ofList (l := snakeChars name.toList)]
    exact congrArg String.toList h
  rw [snakeChars, markCapitals_eq_self fun c hc => (hsettled c hc).isCapital, hr] at hlist
  have hrest : ∀ c ∈ r, Settled c := fun c hc => hsettled c (hr ▸ List.mem_cons_of_mem _ hc)
  have hlower : lower (dropUnderscore ('_' :: r)) = r := Text.lowerAfter_eq_self hrest
  rw [hlower] at hlist
  exact absurd (congrArg List.length hlist) (by simp)

/-- **When the snake form is stable.** -/
theorem snake_snake_iff {name : String} :
    snake (snake name) = snake name ↔ ¬ MarkedTwice name := by
  rw [snake_eq_self_iff, startsWith_underscore_eq_false, ← head?_snake_eq_underscore]
  exact and_iff_right settled_of_mem_snake

end Naming

/-! ## 3. What an entity calls its properties -/

namespace Naming

variable {config : Config} {s : Schema}

/-- The names of the validators of a property that is called `shown`. -/
def validatorNames (config : Config) (shown : String) (p : Property) : List String :=
  match Zod.compoundOf? config p with
  | some t => t.expand.map fun e => Interface.partName shown e.suffix
  | none => if Zod.isValidated config p then [shown] else []

/-- The keys of the labels of a property that is called `shown`. -/
def labelNames (config : Config) (shown : String) (p : Property) : List String :=
  match Zod.compoundOf? config p with
  | some t =>
    if t.expand.isEmpty then [shown]
    else
      (if (p.displayName.filter (!·.isEmpty)).isSome then [shown] else [])
        ++ t.expand.map fun e => Interface.partName shown e.suffix
  | none => [shown]

/-- What is left out when an entity is created with a property that is called `shown`. -/
def accessorNames (config : Config) (shown : String) (p : Property) : List String :=
  match Interface.customTypeOf? config p with
  | some t => t.accessors.map (Interface.partName shown)
  | none => []

/-- The validators, the labels and the exclusions of an entity call its properties by `shown`. -/
structure UsesNames (config : Config) (s : Schema) (shown : String → String) : Prop where
  validators : (Zod.fieldsOf config s).map (·.name)
    = s.properties.flatMap fun e => validatorNames config (shown e.1) e.2
  labels : ∀ n, n ∈ Dictionary.keys (DisplayNames.ofSchema config s).fields ↔
    ∃ e ∈ s.properties, n ∈ labelNames config (shown e.1) e.2
  excluded : Zod.computedFields config s
    = s.properties.flatMap fun e => accessorNames config (shown e.1) e.2

theorem names_fieldsOfProperty (name : String) (p : Property) :
    (Zod.fieldsOfProperty config name p).map (·.name)
      = validatorNames config (snake name) p := by
  rw [Zod.names_fieldsOfProperty]
  unfold Zod.entryNames Zod.ownName? Zod.isSingle validatorNames
  cases Zod.compoundOf? config p with
  | some t => simp [Zod.partName, Interface.partName]
  | none => cases Zod.isValidated config p <;> rfl

theorem mem_keys_addProperty {d : DisplayNames} {e : String × Property} {n : String} :
    n ∈ Dictionary.keys (DisplayNames.addProperty config d e).fields ↔
      n ∈ labelNames config (snake e.1) e.2 ∨ n ∈ Dictionary.keys d.fields := by
  unfold DisplayNames.addProperty labelNames
  cases Zod.compoundOf? config e.2 with
  | none => simpa using DisplayNames.mem_keys_addSingle
  | some t =>
    dsimp only
    split
    · simpa using DisplayNames.mem_keys_addSingle
    · have hparts : (∃ x ∈ t.expand, n = Zod.partName e.1 x.suffix) ↔
          n ∈ t.expand.map fun x => Interface.partName (snake e.1) x.suffix := by
        simp [Zod.partName, Interface.partName, eq_comm]
      unfold DisplayNames.addCompound
      rw [DisplayNames.mem_keys_foldl_addEntry, hparts, List.mem_append]
      split
      · rw [DisplayNames.mem_keys_putField, List.mem_singleton, ← or_assoc,
          or_comm (a := n = snake e.1)]
      · simp

theorem mem_keys_foldl_addProperty {ps : List (String × Property)} {n : String} :
    ∀ {d : DisplayNames},
      n ∈ Dictionary.keys (ps.foldl (DisplayNames.addProperty config) d).fields ↔
        (∃ e ∈ ps, n ∈ labelNames config (snake e.1) e.2) ∨ n ∈ Dictionary.keys d.fields := by
  induction ps with
  | nil => simp
  | cons e r ih =>
    intro d
    rw [List.foldl_cons, ih, mem_keys_addProperty, List.exists_mem_cons_iff, or_left_comm, or_assoc]

/-- **An entity calls its properties by their snake forms.** -/
theorem usesNames_snake (config : Config) (s : Schema) : UsesNames config s snake where
  validators := by
    rw [Zod.fieldsOf, List.map_flatMap]
    exact List.flatMap_congr fun e _ => names_fieldsOfProperty e.1 e.2
  labels n := by
    rw [DisplayNames.ofSchema, mem_keys_foldl_addProperty]
    exact or_iff_left List.not_mem_nil
  excluded := rfl

theorem UsesNames.congr {shown shown' : String → String} (h : UsesNames config s shown)
    (heq : ∀ e ∈ s.properties, shown e.1 = shown' e.1) : UsesNames config s shown' where
  validators := by
    rw [h.validators]
    exact List.flatMap_congr fun e he => by rw [heq e he]
  labels n := by
    rw [h.labels]
    refine exists_congr fun e => and_congr_right fun he => ?_
    rw [heq e he]
  excluded := by
    rw [h.excluded]
    exact List.flatMap_congr fun e he => by rw [heq e he]

/-- **How stable names are.**  The second snake form of a name is the first one unless the name is
marked twice at its front; the first one is the name itself exactly if nothing in it has another
small form and no underscore stands at its front; and an entity calls its properties by their snake
forms, which are their own names if these are stable. -/
theorem snake_stable (name : String) (config : Config) (s : Schema) :
    (snake (snake name) = snake name ↔ ¬ MarkedTwice name) ∧
      (snake name = name ↔
        (∀ c ∈ name.toList, Text.Settled c) ∧ Text.startsWith name "_" = false) ∧
      UsesNames config s snake ∧
      ((∀ e ∈ s.properties, snake e.1 = e.1) → UsesNames config s id) :=
  ⟨snake_snake_iff, snake_eq_self_iff, usesNames_snake config s,
    fun h => (usesNames_snake config s).congr h⟩

/-- A place with a name of one word, one of two words, and an address of a plugin. -/
def place : Schema :=
  { name := "Place"
    properties :=
      [("name", textProperty), ("opening_hours", textProperty),
       ("home_address", { tag := "Address", kind := .custom })] }

/-- An address of a street and a town, with its full text. -/
def addresses : Config :=
  { customTypes :=
      [("Address",
        { compound := true, expand := [{ suffix := "street" }, { suffix := "town" }]
          accessors := ["full_text"] })] }

theorem snake_stable_place :
    (∀ e ∈ place.properties, snake e.1 = e.1) ∧ UsesNames addresses place id := by
  have h : ∀ e ∈ place.properties, snake e.1 = e.1 := by decide
  exact ⟨h, (snake_stable place.name addresses place).2.2.2 h⟩

/-- The underscore of a name is lost, one with every snake form. -/
theorem snake_loses_underscores :
    snake "_rank" ≠ "_rank" ∧ snake (snake "__rank") ≠ snake "__rank" ∧
      (Zod.fieldsOf {} { name := "User", properties := [("_rank", textProperty)] }).map (·.name)
        = ["rank"] := by
  decide

end Naming

end SchemaTypes
