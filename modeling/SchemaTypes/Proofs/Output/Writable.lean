/-
# When there is a plan

A snapshot that has passed the check has no collisions, so only what cannot be written can keep its
files from being planned: further data of members without a form in JSON or with more lists and maps
inside each other than there is room for, and numbers of entities that are too long (`plan_isOk`).
A snapshot that can be written itself has none of these; one in YAML can have them
(`plan_isOk_iff_writable`).
-/
import SchemaTypes.Check.Full
import SchemaTypes.Proofs.Check.Names
import SchemaTypes.Proofs.Output.Plan
import SchemaTypes.Proofs.Reading.ShortNumbers

namespace SchemaTypes

/-! ## 1. Further data -/

/-- The further data of a member can be written where at most `room` collections may stand inside
each other. -/
def EnumMember.isWritable (room : Nat) (m : EnumMember) : Bool :=
  m.extra.all fun extra => (Value.ofFields extra).isWritable room

/-- The further data of all members can be written. -/
def Enumeration.isWritable (room : Nat) (e : Enumeration) : Bool :=
  e.members.all (·.isWritable room)

namespace Output

variable {collection : Collection} {config : Config} {room : Nat}

theorem isOk_extraLine (name : String) (m : EnumMember) (extra : List (String × Value)) :
    (extraLine room name m extra).isOk = (Value.ofFields extra).isWritable room := by
  rw [← Value.isOk_json (Value.ofFields extra) room .compact, extraLine]
  cases (Value.ofFields extra).json room .compact <;> rfl

theorem isOk_extraLines (name : String) (members : List EnumMember) :
    (extraLines room name members).isOk = members.all (·.isWritable room) := by
  induction members with
  | nil => rfl
  | cons m rest ih =>
    rw [extraLines, List.all_cons, EnumMember.isWritable]
    cases m.extra with
    | none => exact ih
    | some extra =>
      rw [isOk_bind_of_isOk fun _ => isOk_bind_pure _ _, isOk_extraLine, ih]
      rfl

/-- **The file of an enumeration can be written exactly if its further data can.** -/
theorem isOk_enumModule (e : Enumeration) (fallback : String) :
    (enumModule room e fallback).isOk = e.isWritable room := by
  have hextra : (extraBlocks room e).isOk = e.isWritable room := by
    unfold extraBlocks
    cases he : e.hasExtra with
    | true => exact (isOk_bind_pure _ _).trans (isOk_extraLines e.name e.members)
    | false =>
      have hnone : ∀ m ∈ e.members, m.extra = none := by
        simpa [Enumeration.hasExtra] using he
      have hall : e.isWritable room = true := by
        refine List.all_eq_true.2 fun m hm => ?_
        rw [EnumMember.isWritable, hnone m hm]
        rfl
      rw [hall]
      rfl
  rw [← hextra]
  exact isOk_bind_pure _ _

theorem isOk_planEnum (e : Enumeration) : (planEnum room config e).isOk = e.isWritable room := by
  rw [← isOk_enumModule e config.localeConfig.fallbackLocale, planEnum]
  cases enumModule room e config.localeConfig.fallbackLocale <;> rfl

theorem isOk_planEnum_all (es : List Enumeration) :
    (es.mapM (planEnum room config)).isOk = es.all (·.isWritable room) := by
  rw [isOk_mapM]
  exact congrArg es.all (funext isOk_planEnum)

/-- An alias can always be written. -/
theorem isOk_planInline (xs : List InlineEnum) :
    (xs.all fun x => (planInline room config x).isOk)
      = (xs.filterMap inlineEnumeration?).all (·.isWritable room) := by
  induction xs with
  | nil => rfl
  | cons x rest ih =>
    rw [List.all_cons, ih]
    rcases x with ⟨_, _, e⟩ | ⟨_, _, a⟩
    · exact congrArg (· && _) (isOk_planEnum e)
    · exact Bool.true_and _

/-! ## 2. Lines that fail -/

/-- The lines of further data fail with those of a member. -/
theorem exists_member_of_extraLines {name : String} {members : List EnumMember} {u : Unwritable}
    (h : extraLines room name members = .error u) :
    ∃ m ∈ members, ∃ extra, m.extra = some extra ∧
      ∃ o, (Value.ofFields extra).json room .compact = .error o ∧ u = .extra name m.name o := by
  induction members with
  | nil => exact nomatch h
  | cons m rest ih =>
    rw [extraLines] at h
    cases he : m.extra with
    | none =>
      rw [he] at h
      exact (ih h).imp fun _ hm => ⟨List.mem_cons_of_mem m hm.1, hm.2⟩
    | some extra =>
      rw [he] at h
      rcases eq_error_of_bind h with h | ⟨line, h⟩
      · unfold extraLine at h
        split at h
        · exact nomatch h
        · rename_i o ho
          exact ⟨m, List.mem_cons_self, extra, he, o, ho, (Except.error.inj h).symm⟩
      · rcases eq_error_of_bind h with h | ⟨lines, h⟩
        · exact (ih h).imp fun _ hm => ⟨List.mem_cons_of_mem m hm.1, hm.2⟩
        · exact nomatch h

/-! ## 3. Enumerations of a snapshot -/

/-- The members of values can be written if the values can. -/
theorem all_isWritable_ofValue (config : Config) (values : List EnumValue) :
    ((values.map (EnumMember.ofValue config)).all (·.isWritable room))
      = values.all (·.isWritable room) := by
  rw [List.all_map]
  rfl

/-- An enumeration of a schema has its further data from the collection. -/
theorem isWritable_of_mem_all (h : ∀ s ∈ collection.schemas, s.isWritable room = true)
    {e : Enumeration} (he : e ∈ Enumeration.all collection config) : e.isWritable room = true := by
  obtain ⟨s, hs, hof⟩ := List.mem_filterMap.1 he
  have hvalues := h s (List.mem_of_mem_filter hs)
  rw [Schema.isWritable, Bool.and_eq_true] at hvalues
  unfold Enumeration.ofSchema? at hof
  split at hof
  · cases hof
    rw [Enumeration.isWritable, all_isWritable_ofValue]
    exact hvalues.1
  · cases hof

/-- An enumeration of a plugin has them from the settings. -/
theorem isWritable_of_mem_allPlugin (h : config.pluginEnums.all (·.2.isWritable room) = true)
    {e : Enumeration} (he : e ∈ Enumeration.allPlugin config) : e.isWritable room = true := by
  obtain ⟨p, hp, rfl⟩ := List.mem_map.1 he
  rw [Enumeration.isWritable, Enumeration.ofPlugin, all_isWritable_ofValue]
  exact List.all_eq_true.1 h p hp

/-- An enumeration of a property has them from the collection. -/
theorem isWritable_of_mem_inline (h : ∀ s ∈ collection.schemas, s.isWritable room = true)
    {e : Enumeration}
    (he : e ∈ (InlineEnum.all collection config).filterMap inlineEnumeration?) :
    e.isWritable room = true := by
  obtain ⟨x, hx, hof⟩ := List.mem_filterMap.1 he
  obtain ⟨s, hs, hx⟩ := List.mem_flatMap.1 hx
  obtain ⟨entry, hentry, hx⟩ := List.mem_filterMap.1 hx
  have hvalues : (InlineEnum.valuesOf entry.2).all (·.isWritable room) = true := by
    have hschema := h s (List.mem_of_mem_filter hs)
    rw [Schema.isWritable, Bool.and_eq_true] at hschema
    have hkind := List.all_eq_true.1 hschema.2 entry hentry
    unfold InlineEnum.valuesOf
    cases hk : entry.2.kind <;> rw [hk] at hkind <;> exact hkind
  unfold InlineEnum.ofProperty? at hx
  simp only at hx
  split at hx
  · cases hx
  · split at hx
    · cases hx
      cases hof
      rw [Enumeration.isWritable, all_isWritable_ofValue]
      exact hvalues
    · cases hx
      cases hof

theorem collisions_eq_nil_of_isValid
    (h : (Check.validate collection config).isValid = true) :
    Check.collisions collection config = [] := by
  have herrors : (Check.validate collection config).errors = [] := List.isEmpty_iff.1 h
  refine List.eq_nil_iff_forall_not_mem.2 fun c hc => ?_
  have hproblem : Problem.collision c ∈ Check.problems collection config := by
    unfold Check.problems Check.nameProblems
    simp only [List.append_assoc]
    exact List.mem_append_left _ (List.mem_map.2 ⟨c, hc, rfl⟩)
  have hmem : (Problem.collision c).finding ∈ (Check.validate collection config).errors :=
    List.mem_filter.2 ⟨List.mem_map.2 ⟨_, hproblem, rfl⟩, rfl⟩
  rw [herrors] at hmem
  exact List.not_mem_nil hmem

/-! ## 4. The plan -/

section

variable [Nesting]

/-- The enumerations of a plan that have files of their own, each with the room for its further
data. -/
def plannedEnumerations (collection : Collection) (config : Config) : List (Nat × Enumeration) :=
  (Enumeration.all collection config ++ Enumeration.allPlugin config).map (Nesting.named, ·)
    ++ ((InlineEnum.all collection config).filterMap inlineEnumeration?).map (Nesting.inline, ·)

theorem isOk_planEnums :
    (planEnums collection config).isOk
      = (plannedEnumerations collection config).all fun x => x.2.isWritable x.1 := by
  unfold planEnums plannedEnumerations
  rw [isOk_bind_of_isOk fun _ => isOk_bind_of_isOk fun _ => isOk_bind_pure _ _, isOk_planEnum_all,
    isOk_planEnum_all, isOk_mapM, isOk_planInline, List.all_append, List.all_map, List.all_append,
    List.all_map, Bool.and_assoc]
  rfl

/-- **Without collisions there is a plan exactly if all further data can be written** and all
numbers are short. -/
theorem plan_isOk_iff (h : Check.collisions collection config = []) :
    (plan collection config).isOk = true ↔
      (∀ x ∈ plannedEnumerations collection config, x.2.isWritable x.1 = true) ∧
        ∀ s ∈ visibleSchemas collection, ∀ b ∈ numbersOf config s, b.IsShort := by
  rw [← List.all_eq_true (p := fun x : Nat × Enumeration => x.2.isWritable x.1), ← isOk_planEnums,
    ← checkNumbers_eq_ok_iff, plan, isOk_bind_pure, isOk_iff, isOk_iff]
  constructor
  · rintro ⟨ms, hms⟩
    obtain ⟨-, enums, henums, hnumbers, -⟩ := planModules_eq_ok_iff.1 hms
    exact ⟨⟨enums, henums⟩, hnumbers⟩
  · rintro ⟨⟨enums, henums⟩, hnumbers⟩
    exact ⟨_, planModules_eq_ok_iff.2 ⟨h, enums, henums, hnumbers, rfl⟩⟩

/-! ## 5. Plans that fail -/

/-- What keeps a snapshot from being planned: further data that cannot be written, or a number of an
entity that is too long. -/
inductive Hinders (collection : Collection) (config : Config) : Unwritable → Prop
  | extra {room : Nat} {e : Enumeration} {m : EnumMember} {extra : List (String × Value)}
      {o : Json.Obstacle} (planned : (room, e) ∈ plannedEnumerations collection config)
      (member : m ∈ e.members) (given : m.extra = some extra)
      (fails : (Value.ofFields extra).json room .compact = .error o) :
      Hinders collection config (.extra e.name m.name o)
  | number {s : Schema} {b : Bound} (visible : s ∈ visibleSchemas collection)
      (shown : b ∈ numbersOf config s) (long : ¬b.IsShort) :
      Hinders collection config (.number s.name)

theorem hinders_of_planEnum {e : Enumeration} {err : PlanError}
    (he : (room, e) ∈ plannedEnumerations collection config)
    (h : planEnum room config e = .error err) :
    ∃ u, err = .unwritable u ∧ Hinders collection config u := by
  unfold planEnum at h
  split at h
  · exact nomatch h
  · rename_i u hu
    refine ⟨u, (Except.error.inj h).symm, ?_⟩
    rcases eq_error_of_bind hu with hu | ⟨_, hu⟩
    · unfold extraBlocks at hu
      split at hu
      · exact nomatch hu
      · rcases eq_error_of_bind hu with hu | ⟨_, hu⟩
        · obtain ⟨m, hm, extra, hextra, o, ho, rfl⟩ := exists_member_of_extraLines hu
          exact .extra he hm hextra ho
        · exact nomatch hu
    · exact nomatch hu

theorem hinders_of_checkNumbers {err : PlanError}
    (h : checkNumbers collection config = .error err) :
    ∃ u, err = .unwritable u ∧ Hinders collection config u := by
  unfold checkNumbers at h
  split at h
  · next s hs =>
    have hlong := List.find?_some hs
    rw [Bool.not_eq_true', decide_eq_false_iff_not] at hlong
    push Not at hlong
    obtain ⟨b, hb, hnot⟩ := hlong
    exact ⟨_, (Except.error.inj h).symm, .number (List.mem_of_find?_eq_some hs) hb hnot⟩
  · exact nomatch h

theorem hinders_of_planEnums {err : PlanError} (h : planEnums collection config = .error err) :
    ∃ u, err = .unwritable u ∧ Hinders collection config u := by
  rcases eq_error_of_bind h with h | ⟨_, h⟩
  · obtain ⟨e, he, hplan⟩ := eq_error_of_mapM h
    exact hinders_of_planEnum
      (List.mem_append_left _ (List.mem_map_of_mem (List.mem_append_left _ he))) hplan
  · rcases eq_error_of_bind h with h | ⟨_, h⟩
    · obtain ⟨e, he, hplan⟩ := eq_error_of_mapM h
      exact hinders_of_planEnum
        (List.mem_append_left _ (List.mem_map_of_mem (List.mem_append_right _ he))) hplan
    · rcases eq_error_of_bind h with h | ⟨_, h⟩
      · obtain ⟨x, hx, hplan⟩ := eq_error_of_mapM h
        rcases x with ⟨_, _, e⟩ | ⟨_, _, a⟩
        · exact hinders_of_planEnum (List.mem_append_right _
            (List.mem_map_of_mem (List.mem_filterMap.2 ⟨_, hx, rfl⟩))) hplan
        · cases hplan
      · cases h

/-- **Without collisions a plan fails with what cannot be written.** -/
theorem hinders_of_plan (h : Check.collisions collection config = []) {err : PlanError}
    (hplan : plan collection config = .error err) :
    ∃ u, err = .unwritable u ∧ Hinders collection config u := by
  rcases eq_error_of_bind hplan with hms | ⟨_, hms⟩
  · rw [planModules, h] at hms
    rcases eq_error_of_bind hms with hms | ⟨_, hms⟩
    · exact hinders_of_planEnums hms
    · rcases eq_error_of_bind hms with hms | ⟨_, hms⟩
      · exact hinders_of_checkNumbers hms
      · cases hms
  · cases hms

/-! ## 6. Snapshots that have passed the check -/

/-- What is read from a snapshot that can be written can be written. -/
theorem isWritable_of_mem_planned {raw : Reading.Entries} {snapshot : Snapshot}
    (hread : Snapshot.ofEntries raw = .ok snapshot) (hnamed : room ≤ Nesting.named)
    (hinline : room ≤ Nesting.inline) (hraw : (Value.map raw).isWritable room = true) :
    ∀ x ∈ plannedEnumerations snapshot.collection snapshot.config, x.2.isWritable x.1 = true := by
  obtain ⟨hschemas, hplugins⟩ :=
    Snapshot.isWritable_of_ofEntries (Value.isWritable_mono hnamed hraw) hread
  obtain ⟨hproperties, -⟩ :=
    Snapshot.isWritable_of_ofEntries (Value.isWritable_mono hinline hraw) hread
  refine List.forall_mem_append.2 ⟨List.forall_mem_map.2 fun e he => ?_,
    List.forall_mem_map.2 fun e he => ?_⟩
  · rcases List.mem_append.1 he with he | he
    · exact isWritable_of_mem_all (List.all_eq_true.1 hschemas) he
    · exact isWritable_of_mem_allPlugin hplugins he
  · exact isWritable_of_mem_inline (List.all_eq_true.1 hproperties) he

/-- **Planning a checked snapshot** gives a plan exactly if all further data of its enumerations can
be written in the room for them and all numbers in the files of its entities are short, and
otherwise fails with one that hinders it.  In particular it gives a plan of every snapshot that can
be written itself in that room. -/
theorem plan_isOk_iff_writable {raw : Reading.Entries} {snapshot : Snapshot}
    (hread : Snapshot.ofEntries raw = .ok snapshot)
    (hvalid : (Check.validate snapshot.collection snapshot.config).isValid = true) :
    ((∃ files, plan snapshot.collection snapshot.config = .ok files) ↔
        (∀ x ∈ plannedEnumerations snapshot.collection snapshot.config,
          x.2.isWritable x.1 = true) ∧
          ∀ s ∈ visibleSchemas snapshot.collection, ∀ b ∈ numbersOf snapshot.config s,
            b.IsShort) ∧
      (∀ err, plan snapshot.collection snapshot.config = .error err →
        ∃ u, err = .unwritable u ∧ Hinders snapshot.collection snapshot.config u) ∧
      ∀ room, room ≤ Nesting.named → room ≤ Nesting.inline →
        (Value.map raw).isWritable room = true →
          ∃ files, plan snapshot.collection snapshot.config = .ok files := by
  have hnone := collisions_eq_nil_of_isValid hvalid
  have hiff := plan_isOk_iff hnone
  rw [isOk_iff] at hiff
  refine ⟨hiff, fun err herr => hinders_of_plan hnone herr, fun room hnamed hinline hraw => ?_⟩
  refine hiff.2 ⟨isWritable_of_mem_planned hread hnamed hinline hraw, fun s hs => ?_⟩
  exact Snapshot.isShort_of_ofEntries hraw hread s
    (List.mem_of_mem_filter (List.mem_of_mem_filter hs))

end

/-- A snapshot of one enumeration, whose only value has one further datum. -/
def oneDatum (v : Value) : Reading.Entries :=
  [(.text "schemas", .list [.map [
    (.text "name", .text "Color"), (.text "kind", .text "enum"),
    (.text "values", .list [.map [
      (.text "value", .text "red"), (.text "extra", .map [(.text "since", v)])]])]])]

/-- The collection of that snapshot. -/
def colors (v : Value) : Collection :=
  ⟨[{ name := "Color", kind := .enum, values := [⟨"red", none, some [("since", v)]⟩] }]⟩

theorem ofEntries_oneDatum (v : Value) :
    Snapshot.ofEntries (oneDatum v) = .ok ⟨colors v, {}⟩ := by cbv

theorem isValid_colors (v : Value) : (Check.validate (colors v) {}).isValid = true := by cbv

theorem plan_isOk_iff_writable_oneDatum :
    Snapshot.ofEntries (oneDatum (.int 2024)) = .ok ⟨colors (.int 2024), {}⟩ ∧
      (Check.validate (colors (.int 2024)) {}).isValid = true ∧
      (Value.map (oneDatum (.int 2024))).isWritable 6 = true ∧
      ∃ files, plan (colors (.int 2024)) {} = .ok files :=
  ⟨ofEntries_oneDatum _, isValid_colors _, by decide +kernel,
    (plan_isOk_iff_writable (ofEntries_oneDatum _) (isValid_colors _)).2.2 6 (by decide) (by decide)
      (by decide +kernel)⟩

/-- **A calendar date among the further data keeps a checked snapshot from being planned.** -/
theorem not_plan_of_stamp :
    ∃ snapshot, Snapshot.ofEntries (oneDatum (.stamp (.day 2024 1 1))) = .ok snapshot ∧
      (Check.validate snapshot.collection snapshot.config).isValid = true ∧
      ¬ ∃ files, plan snapshot.collection snapshot.config = .ok files := by
  refine ⟨_, ofEntries_oneDatum _, isValid_colors _, fun h => ?_⟩
  rw [← isOk_iff, plan_isOk_iff (collisions_eq_nil_of_isValid (isValid_colors _))] at h
  exact absurd h.1 (by decide)

end Output

end SchemaTypes
