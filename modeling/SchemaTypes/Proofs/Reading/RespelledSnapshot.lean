/-
# Respelled snapshots

A snapshot may give each field of each record under either of its spellings, at every depth.  Which
ones it uses does not matter (`ofEntries_respelled`): the same schemas and settings are read, and
where reading fails, it fails for the same causes.  Only the places of these causes name the
spellings that were found.

Names of a snapshot's own are no fields and stay as they are: the names of schemas, properties,
plugin types and entries, labels by locale, messages, further data.
-/
import SchemaTypes.Proofs.Reading.Overrides
import SchemaTypes.Proofs.Reading.Spelling

namespace SchemaTypes

open Reading

/-! ## 1. Failures without places -/

/-- The cause without the places of its issues. -/
def LoadError.unplaced : LoadError → LoadError
  | .schemaIssues xs => .schemaIssues (xs.map Issue.unplaced)
  | .configIssues xs => .configIssues (xs.map Issue.unplaced)
  | e => e

/-- The failure without the places of its issues. -/
def ReadFailure.unplaced : ReadFailure → ReadFailure
  | .load e => .load e.unplaced
  | f => f

namespace Snapshot

/-! ## 2. Schemas -/

/-- The name of a schema is found like an entry that is added unless it is there. -/
theorem entry?_withName {name : String} (k : Key) {es : Entries}
    (once : (word name).GivenOnce es) :
    Value.entry? name (withName k es) = Value.entry? name (withDefault "name" k.value es) := by
  -- Of the entries put one after the other the last one counts, and there is only one.
  have hfold : ∀ done : Entries,
      Value.entry? name (es.foldl (fun done e => putEntry e.1 e.2 done) done)
        = (Value.entry? name es).or (Value.entry? name done) := by
    induction es with
    | nil => exact fun _ => rfl
    | cons e rest ih =>
      intro done
      obtain ⟨key, v⟩ := e
      rw [List.foldl_cons, ih once.tail, entry?_putEntry, entry?_cons]
      by_cases hkey : key = .text name
      · have hnone : (word name).value? rest = none :=
          FieldName.value?_eq_none (once.not_spells (.inl hkey))
        rw [FieldName.value?_word] at hnone
        rw [hnone, if_pos hkey, if_pos hkey]
        rfl
      · rw [if_neg hkey, if_neg hkey]
  rw [withName, hfold, entry?_withDefault, entry?_cons, ite_text]
  rfl

theorem value?_withName {f : FieldName} (k : Key) {es : Entries} (once : f.GivenOnce es) :
    f.value? (withName k es) = f.value? (withDefault "name" k.value es) := by
  have hone : ∀ name, f.Spells (.text name) → (word name).GivenOnce es := by
    intro name hname
    refine le_trans (List.countP_mono_left fun e _ he => ?_) once
    simp only [decide_eq_true_eq] at he ⊢
    rcases he with he | he <;> exact he ▸ hname
  rw [FieldName.value?, entry?_withName k (hone _ (.inl rfl)),
    entry?_withName k (hone _ (.inr rfl)), FieldName.value?]

/-- What each of some records is read as, up to places. -/
def outcomes (records : List Value) : List (Outcome Schema) :=
  records.map fun v => (schema v).unplaced

theorem map_outcomes_namedSchemas {es es' : Entries}
    (h : List.Forall₂ (fun e e' => e.1 = e'.1 ∧ Respelled schemaFields e.2 e'.2) es es') :
    (namedSchemas es).map outcomes = (namedSchemas es').map outcomes := by
  have hcons : ∀ (k : Key) (es rest : Entries),
      (namedSchemas ((k, .map es) :: rest)).map outcomes
        = ((namedSchemas rest).map outcomes).map
            ((schema (.map (withName k es))).unplaced :: ·) := by
    intro k es rest
    rw [namedSchemas]
    cases namedSchemas rest <;> rfl
  induction h with
  | nil => rfl
  | @cons e e' rest rest' he _ ih =>
    obtain ⟨k, v⟩ := e
    obtain ⟨_, v'⟩ := e'
    obtain ⟨rfl, hv⟩ := he
    cases hv with
    | same =>
      cases v with
      | map es => rw [hcons, hcons, ih]
      | _ => rfl
    | @map es es' once hes =>
      have hagree := (agree_of_respelledEntries once hes).withDefault
        (Fields.takes_second (f := word "name") (by simp [schemaFields])) k.value
      have hschema : (schema (.map (withName k es))).unplaced
          = (schema (.map (withName k es'))).unplaced := by
        refine schema_overlooks _ _ (.map fun f hf => ?_)
        rw [value?_withName k (once f hf),
          value?_withName k (givenOnce_of_respelledEntries hes hf (once f hf))]
        exact hagree f hf
      rw [hcons, hcons, ih, hschema]

theorem map_outcomes_schemaRecords {v v' : Value} (h : Each (Respelled schemaFields) v v') :
    (schemaRecords v).map outcomes = (schemaRecords v').map outcomes := by
  cases h with
  | same => rfl
  | pair => rfl
  | map hes => exact map_outcomes_namedSchemas hes
  | list hitems =>
    refine congrArg Except.ok ?_
    induction hitems with
    | nil => rfl
    | @cons v v' rest rest' hv _ ih =>
      have hmap : v.isMap = v'.isMap := by cases hv <;> rfl
      rw [List.filter_cons, List.filter_cons, hmap]
      split
      · exact congrArg₂ List.cons (schema_overlooks.respelled _ _ hv) ih
      · exact ih

/-! ## 3. Settings -/

/-- The sections of settings agree. -/
theorem sectionOf_respelled {raw raw' : Entries} {names : List String}
    (h : ∀ name ∈ names,
      Option.Rel (Respelled configFields) (Value.entry? name raw) (Value.entry? name raw')) :
    Option.Rel (fun x y => Agreeing configFields (.map x.2) (.map y.2)) (sectionOf names raw)
      (sectionOf names raw') := by
  induction names with
  | nil => exact .none
  | cons name rest ih =>
    have hrest := ih fun n hn => h n (List.mem_cons_of_mem _ hn)
    have hname := h name List.mem_cons_self
    rw [sectionOf_cons, sectionOf_cons]
    generalize Value.entry? name raw = x, Value.entry? name raw' = y at hname
    cases hname with
    | none => exact hrest
    | some hv =>
      cases hv with
      | map once hes => exact .some (.map (agree_of_respelledEntries once hes))
      | same =>
        split
        · exact .some (.same _)
        · exact hrest

/-! ## 4. Snapshots -/

/-- The entries of a snapshot. -/
def snapshotFields : Fields where
  list :=
    [(word "schemas", Each (Respelled schemaFields)), (word "config", Respelled configFields),
      (word "generation_config", Respelled configFields),
      (word "options", Respelled configFields)]
  apart := by decide +kernel

theorem mapError_settle {α : Type} {cause : List Issue → LoadError}
    (h : ∀ xs, (cause xs).unplaced = cause (xs.map Issue.unplaced)) (x : Outcome α) :
    (settle cause x).mapError ReadFailure.unplaced = settle cause x.unplaced := by
  cases x with
  | rejected xs => exact congrArg (fun e => Except.error (ReadFailure.load e)) (h xs)
  | accepted a => rfl
  | broken b => rfl

/-- Up to places, schemas are read from the outcomes of each of them. -/
theorem mapError_readCollection (records : List Value) :
    (readCollection records).mapError ReadFailure.unplaced
      = settle .schemaIssues ((Outcome.all (outcomes records)).map Collection.mk) := by
  rw [readCollection, mapError_settle fun _ => rfl, Outcome.unplaced_map, Outcome.unplaced_under,
    unplaced_list_list]
  rfl

theorem mapError_readConfig (es : Entries) :
    (readConfig es).mapError ReadFailure.unplaced
      = settle .configIssues (Reading.config (.map es)).unplaced :=
  mapError_settle (fun _ => rfl) _

/-- Up to places, a snapshot is read from the outcomes of its schemas and its settings. -/
theorem mapError_ofEntries (raw : Entries) :
    (ofEntries raw).mapError ReadFailure.unplaced =
      match (Value.entry? "schemas" raw).map fun v => (schemaRecords v).map outcomes with
      | none => .error (.load .noSchemas)
      | some (.error e) => .error e.unplaced
      | some (.ok read) => do
        let collection ← settle .schemaIssues ((Outcome.all read).map Collection.mk)
        let config ← settle .configIssues (Reading.config (.map (configEntries raw))).unplaced
        return ⟨collection, config⟩ := by
  unfold ofEntries
  cases Value.entry? "schemas" raw with
  | none => rfl
  | some schemas =>
    dsimp only [Option.map_some]
    cases schemaRecords schemas with
    | error e => rfl
    | ok records =>
      simp only [Except.map, mapError_bind, mapError_readCollection, mapError_readConfig]
      rfl

theorem configEntries_respelled {raw raw' : Entries} (h : Agree snapshotFields raw raw') :
    Agreeing configFields (.map (configEntries raw)) (.map (configEntries raw')) := by
  simp only [Agree, snapshotFields, List.forall_mem_cons, FieldName.value?_word] at h
  have hsection : Option.Rel _ (sectionOf sectionNames raw) (sectionOf sectionNames raw') :=
    sectionOf_respelled (by simpa [sectionNames] using h.2)
  unfold configEntries configSection
  generalize sectionOf sectionNames raw = x, sectionOf sectionNames raw' = y at hsection
  cases hsection with
  | none => exact .same _
  | some hxy => exact hxy

/-- **The spelling of fields does not matter.** -/
theorem ofEntries_respelled {raw raw' : Entries}
    (h : Respelled snapshotFields (.map raw) (.map raw')) :
    (∀ s, ofEntries raw = .ok s ↔ ofEntries raw' = .ok s)
      ∧ (ofEntries raw).mapError ReadFailure.unplaced
        = (ofEntries raw').mapError ReadFailure.unplaced := by
  have hsame : (ofEntries raw).mapError ReadFailure.unplaced
      = (ofEntries raw').mapError ReadFailure.unplaced := by
    cases h with
    | same => rfl
    | map once h =>
      have hagree := agree_of_respelledEntries once h
      have hconfig := config_overlooks _ _ (configEntries_respelled hagree)
      have hschemas : (Value.entry? "schemas" raw).map (fun v => (schemaRecords v).map outcomes)
          = (Value.entry? "schemas" raw').map fun v => (schemaRecords v).map outcomes := by
        simp only [Agree, snapshotFields, List.forall_mem_cons, FieldName.value?_word] at hagree
        have hrel := hagree.1
        generalize Value.entry? "schemas" raw = x, Value.entry? "schemas" raw' = y at hrel
        cases hrel with
        | none => rfl
        | some hv => exact congrArg some (map_outcomes_schemaRecords hv)
      rw [mapError_ofEntries, mapError_ofEntries, hschemas, hconfig]
  refine ⟨fun s => ?_, hsame⟩
  rw [← mapError_eq_ok_iff, hsame, mapError_eq_ok_iff]

/-- A snapshot with its fields in one of their spellings, down to the rules of a property. -/
def spelledBy (spelling : FieldName → String) : Entries :=
  [(.text "schemas", .list [Value.ofFields
      [("name", .text "User"),
        ("properties", Value.ofFields [("nick", Value.ofFields
          [("type", .text "String"), (spelling ⟨"maxLength", "max_length"⟩, .int 20),
            ("rules", Value.ofFields [(spelling ⟨"alphaNum", "alpha_num"⟩, .bool true)])])]),
        ("options", Value.ofFields [(spelling ⟨"softDelete", "soft_delete"⟩, .bool true)])]]),
    (.text "config", Value.ofFields
      [(spelling ⟨"customTypes", "custom_types"⟩, Value.ofFields [("Money", Value.ofFields
        [(spelling ⟨"typeHint", "type_hint"⟩, .text "number"),
          ("typescript", Value.ofFields [("type", .text "string")])])])])]

theorem respelled_spelledBy : Respelled snapshotFields (.map (spelledBy FieldName.second))
    (.map (spelledBy FieldName.first)) := by
  have hone : ∀ {R : Rewriting} (name : String) {v v' : Value}, R v v' →
      Each R (Value.ofFields [(name, v)]) (Value.ofFields [(name, v')]) :=
    fun _ _ _ h => .map (.cons ⟨rfl, h⟩ .nil)
  have hrules : List.Forall₂ (RespelledEntry ruleSetFields) _ _ :=
    .cons (.second_first ⟨"alphaNum", "alpha_num"⟩ (by simp [ruleSetFields])
      (Eq.refl (Value.bool true))) .nil
  have hproperty : List.Forall₂ (RespelledEntry propertyFields) _ _ :=
    .cons (.word "type" (by simp [propertyFields]) (Eq.refl (Value.text "String")))
      (.cons (.second_first ⟨"maxLength", "max_length"⟩ (by simp [propertyFields])
          (Eq.refl (Value.int 20)))
        (.cons (.word "rules" (by simp [propertyFields])
          (Respelled.map (by decide +kernel) hrules)) .nil))
  have hoptions : List.Forall₂ (RespelledEntry schemaOptionsFields) _ _ :=
    .cons (.second_first ⟨"softDelete", "soft_delete"⟩ (by simp [schemaOptionsFields])
      (Eq.refl (Value.bool true))) .nil
  have hschema : List.Forall₂ (RespelledEntry schemaFields) _ _ :=
    .cons (.word "name" (by simp [schemaFields]) (Eq.refl (Value.text "User")))
      (.cons (.word "properties" (by simp [schemaFields])
          (hone "nick" (Respelled.map (by decide +kernel) hproperty)))
        (.cons (.word "options" (by simp [schemaFields])
          (Respelled.map (by decide +kernel) hoptions)) .nil))
  have htype : List.Forall₂ (RespelledEntry customTypeFields) _ _ :=
    .cons (.second_first ⟨"typeHint", "type_hint"⟩ (by simp [customTypeFields])
        (Eq.refl (Value.text "number")))
      (.cons (.word "typescript" (by simp [customTypeFields])
        (Eq.refl (Value.ofFields [("type", .text "string")]))) .nil)
  have hconfig : List.Forall₂ (RespelledEntry configFields) _ _ :=
    .cons (.second_first _ (List.mem_map_of_mem (Setting.mem_all .customTypes))
      (hone "Money" (Respelled.map (by decide +kernel) htype))) .nil
  exact Respelled.map (by decide +kernel)
    (.cons (.word "schemas" (by simp [snapshotFields])
        (Each.list (.cons (Respelled.map (by decide +kernel) hschema) .nil)))
      (.cons (.word "config" (by simp [snapshotFields])
        (Respelled.map (by decide +kernel) hconfig)) .nil))

/-- What is read from it. -/
def spelledByRead : Snapshot where
  collection.schemas :=
    [{  name := "User"
        properties := [("nick",
          { tag := "String", maxLength := some 20, rules := some { alphaNum := true },
            kind := .primitive })]
        options := { softDelete := true } }]
  config := { customTypes := [("Money", { name := some "Money", typeHint := "number" })] }

theorem ofEntries_spelledBy :
    ofEntries (spelledBy FieldName.second) = .ok spelledByRead
      ∧ ofEntries (spelledBy FieldName.first) = .ok spelledByRead :=
  have hread : ofEntries (spelledBy FieldName.second) = .ok spelledByRead := rfl
  ⟨hread, ((ofEntries_respelled respelled_spelledBy).1 _).1 hread⟩

end Snapshot

end SchemaTypes
