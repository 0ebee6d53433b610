/-
# Further data are read as they are written

The only part of a snapshot that keeps values of any shape is the further data of the values of
enumerations.  Where everything in a snapshot can be written, so can they
(`isWritable_of_ofEntries`).
-/
import SchemaTypes.Proofs.Reading.Keeping
import SchemaTypes.Reading.Snapshot

namespace SchemaTypes

/-- The further data of a value can be written where at most `room` collections may stand inside
each other. -/
def EnumValue.isWritable (room : Nat) (v : EnumValue) : Bool :=
  v.extra.all fun extra => (Value.ofFields extra).isWritable room

/-- The further data of the values that a property lists can be written. -/
def PropertyKind.isWritable (room : Nat) : PropertyKind → Bool
  | .inlineEnum values => values.all (·.isWritable room)
  | .select options => options.all (·.isWritable room)
  | _ => true

/-- The further data of the values of a schema and of its properties can be written. -/
def Schema.isWritable (room : Nat) (s : Schema) : Bool :=
  s.values.all (·.isWritable room) && s.properties.all (·.2.kind.isWritable room)

/-- The further data of the values of a plugin enumeration can be written. -/
def PluginEnum.isWritable (room : Nat) (p : PluginEnum) : Bool := p.values.all (·.isWritable room)

namespace Reading

open Outcome (Gives)
open Value (isWritable_map_iff)

variable {room : Nat}

/-! ## 1. Records with further data -/

theorem isWritable_ofFields {n : Nat} {fields : List (String × Value)}
    (h : ∀ f ∈ fields, f.2.isWritable n = true) :
    (Value.ofFields fields).isWritable (n + 1) = true := by
  refine isWritable_map_iff.2 ⟨n, rfl, List.forall_mem_map.2 fun f hf => ?_⟩
  exact ⟨rfl, h f hf⟩

/-- Further data are kept as a map of the same values. -/
theorem keeps_extra :
    Keeps room (fun extra => (Value.ofFields extra).isWritable room = true) (map anything) := by
  intro v hv
  cases v with
  | map es =>
    obtain ⟨n, rfl, -⟩ := isWritable_map_iff.1 hv
    exact fun extra hextra => isWritable_ofFields (keeps_anything.map_succ _ hv extra hextra)
  | _ => exact Outcome.gives_rejected _

theorem keeps_enumValue : Keeps room (fun v => v.isWritable room = true) enumValue := by
  have hrecord : Keeps room (fun v : EnumValue => v.isWritable room = true) (record fun es =>
      EnumValue.mk
        <$> field (word "value") rawValue es
        <*> fieldOpt (word "label") label es
        <*> fieldOpt (word "extra") (map anything) es) := by
    refine keeps_record fun es hes => ?_
    refine Gives.use (keeps_extra.fieldOpt (word "extra") hes) ?_
    refine Gives.skip (Outcome.gives_first _ fun value label extra hextra => ?_)
    cases extra with
    | none => rfl
    | some extra => exact hextra extra rfl
  intro v hv
  cases v with
  | bool b => exact Outcome.gives_accepted rfl
  | text s => exact Outcome.gives_accepted rfl
  | int i =>
    rw [enumValue]
    exact Gives.map fun s _ => rfl
  | real d => exact Outcome.gives_accepted rfl
  | halfText => exact (Outcome.gives_rejected _).under _
  | _ => exact hrecord _ hv

theorem keeps_enumValues :
    Keeps room (fun vs => vs.all (·.isWritable room) = true) (list enumValue) :=
  keeps_enumValue.list.imp fun _ => List.all_eq_true.2

theorem gives_kindData {es : Entries} (hes : (Value.map es).isWritable room = true)
    (tag : PropertyTag) : Gives (fun k => k.isWritable room = true) (kindData es tag) := by
  cases tag with
  | inlineEnum => exact Gives.map (keeps_enumValues.fieldOr rfl (word "enum") hes)
  | select => exact Gives.map (keeps_enumValues.fieldOr rfl (word "options") hes)
  | association => exact Gives.skip (Gives.skip (Outcome.gives_first _ fun _ _ _ => rfl))
  | enumRef => exact Outcome.gives_first _ fun _ => rfl
  | file => exact Outcome.gives_first _ fun _ => rfl
  | _ => exact Outcome.gives_accepted rfl

theorem keeps_property :
    Keeps room (fun p : Property => p.kind.isWritable room = true) property := by
  intro v hv
  cases v with
  | map es =>
    refine (Outcome.gives_true _).andThen fun tag _ => ?_
    refine Gives.under (Gives.use (gives_kindData hv tag) ?_) _
    iterate 11 refine Gives.skip ?_
    exact Outcome.gives_first _ fun _ _ _ _ _ _ _ _ _ _ _ _ _ hk => hk
  | _ => exact (Outcome.gives_rejected _).under _

theorem keeps_schema : Keeps room (fun s => s.isWritable room = true) schema := by
  refine keeps_record fun es hes => ?_
  iterate 2 refine Gives.skip ?_
  refine Gives.use (keeps_enumValues.fieldOr rfl _ hes) ?_
  refine Gives.use (keeps_property.map.fieldOr (fun _ h => (List.not_mem_nil h).elim) _ hes) ?_
  iterate 2 refine Gives.skip ?_
  refine Outcome.gives_first _ fun _ _ _ properties hproperties values hvalues _ _ => ?_
  rw [Schema.isWritable, hvalues, Bool.true_and]
  exact List.all_eq_true.2 hproperties

theorem keeps_pluginEnum : Keeps room (fun p => p.isWritable room = true) pluginEnum := by
  refine keeps_record fun es hes => ?_
  refine Gives.use (keeps_enumValues.fieldOr rfl _ hes) (Gives.skip ?_)
  exact Outcome.gives_first _ fun _ _ _ hvalues => hvalues

theorem keeps_config :
    Keeps room (fun c => c.pluginEnums.all (·.2.isWritable room) = true) config := by
  refine keeps_record fun es hes => ?_
  iterate 11 refine Gives.skip ?_
  refine Gives.use (keeps_pluginEnum.byName.fieldOr (fun _ h => (List.not_mem_nil h).elim) _ hes) ?_
  iterate 5 refine Gives.skip ?_
  refine Outcome.gives_first _ fun _ _ _ _ _ _ plugins hplugins => ?_
  intros
  exact List.all_eq_true.2 hplugins

end Reading

/-! ## 2. Snapshots -/

namespace Snapshot

open Reading
open Reading.Outcome (Gives)
open Value (isWritable_list_iff isWritable_map_iff isWritable_mono)

variable {room : Nat}

theorem areWritable_withName {n : Nat} {name : Key} {es : Entries} (hname : name.hasJson = true)
    (hes : AreWritable n es) : AreWritable n (withName name es) := by
  have hfold : ∀ (es done : Entries), AreWritable n es → AreWritable n done →
      AreWritable n (es.foldl (fun done e => putEntry e.1 e.2 done) done) := by
    intro es
    induction es with
    | nil => exact fun _ _ h => h
    | cons e rest ih =>
      intro done hes hdone
      obtain ⟨hfirst, hrest⟩ := List.forall_mem_cons.1 hes
      exact ih _ hrest (hdone.putEntry hfirst.1 hfirst.2)
  exact hfold es _ hes (List.forall_mem_singleton.2 ⟨rfl, isWritable_value hname n⟩)

theorem isWritable_namedSchemas {n : Nat} {es : Entries} {records : List Value}
    (hes : AreWritable n es) (h : namedSchemas es = .ok records) :
    ∀ v ∈ records, v.isWritable n = true := by
  induction es generalizing records with
  | nil =>
    cases h
    exact List.forall_mem_nil _
  | cons e rest ih =>
    obtain ⟨k, v⟩ := e
    obtain ⟨⟨hk, hv⟩, hrest⟩ := List.forall_mem_cons.1 hes
    cases v with
    | map es =>
      obtain ⟨others, hothers, hrecords⟩ := bind_eq_ok_iff.1 h
      cases hrecords
      obtain ⟨m, rfl, hinner⟩ := isWritable_map_iff.1 hv
      exact List.forall_mem_cons.2
        ⟨(areWritable_withName hk hinner).map, ih hrest hothers⟩
    | _ => exact nomatch h

/-- The schemas as a list can be written where the schemas could be. -/
theorem isWritable_schemaRecords {v : Value} {records : List Value}
    (hv : v.isWritable room = true) (h : schemaRecords v = .ok records) :
    (Value.list records).isWritable room = true := by
  cases v with
  | list items =>
    cases h
    obtain ⟨n, rfl, hitems⟩ := isWritable_list_iff.1 hv
    exact isWritable_list_iff.2 ⟨n, rfl, fun w hw => hitems w (List.mem_of_mem_filter hw)⟩
  | map es =>
    obtain ⟨n, rfl, hes⟩ := isWritable_map_iff.1 hv
    exact isWritable_list_iff.2 ⟨n, rfl, isWritable_namedSchemas hes h⟩
  | _ => exact nomatch h

theorem isWritable_configEntries {raw : Entries} (h : (Value.map raw).isWritable room = true) :
    (Value.map (configEntries raw)).isWritable room = true := by
  unfold configEntries
  cases hs : configSection raw with
  | none =>
    obtain ⟨n, rfl, -⟩ := isWritable_map_iff.1 h
    exact isWritable_map_iff.2 ⟨n, rfl, List.forall_mem_nil _⟩
  | some e =>
    obtain ⟨name, -, he⟩ := List.exists_of_findSome?_eq_some hs
    split at he
    · rename_i es hes
      cases he
      exact isWritable_of_entry h hes
    · exact nomatch he

theorem eq_accepted_of_settle {cause : List Issue → LoadError} {x : Outcome α} {a : α}
    (h : settle cause x = .ok a) : x = .accepted a := by
  cases x with
  | accepted b => exact congrArg Outcome.accepted (Except.ok.inj h)
  | rejected xs => exact nomatch h
  | broken b => exact nomatch h

/-- **What reading keeps of schemas and settings holds of what is read** from a snapshot that can be
written. -/
theorem of_ofEntries {P : Schema → Prop} {Q : Config → Prop} (hschema : Keeps room P schema)
    (hconfig : Keeps room Q Reading.config) {raw : Entries} {snapshot : Snapshot}
    (hraw : (Value.map raw).isWritable room = true) (h : ofEntries raw = .ok snapshot) :
    (∀ s ∈ snapshot.collection.schemas, P s) ∧ Q snapshot.config := by
  unfold ofEntries at h
  cases hschemas : Value.entry? "schemas" raw with
  | none => simp [hschemas] at h
  | some schemas =>
    simp only [hschemas] at h
    cases hrecords : schemaRecords schemas with
    | error e => simp [hrecords] at h
    | ok records =>
      simp only [hrecords] at h
      obtain ⟨collection, hcollection, h⟩ := bind_eq_ok_iff.1 h
      obtain ⟨config, hconfig', h⟩ := bind_eq_ok_iff.1 h
      cases h
      have hlist := isWritable_schemaRecords (isWritable_of_entry hraw hschemas) hrecords
      have hgives : Gives (fun c : Collection => ∀ s ∈ c.schemas, P s)
          (((Reading.list schema (.list records)).under (.name "schemas")).map Collection.mk) :=
        Gives.map ((hschema.list (.list records) hlist).under _)
      exact ⟨hgives collection (eq_accepted_of_settle hcollection),
        hconfig _ (isWritable_configEntries hraw) config (eq_accepted_of_settle hconfig')⟩

/-- **Further data of a snapshot that can be written can be written.** -/
theorem isWritable_of_ofEntries {raw : Entries} {snapshot : Snapshot}
    (hraw : (Value.map raw).isWritable room = true) (h : ofEntries raw = .ok snapshot) :
    (snapshot.collection.schemas.all (·.isWritable room)) = true ∧
      (snapshot.config.pluginEnums.all (·.2.isWritable room)) = true := by
  obtain ⟨hschemas, hconfig⟩ := of_ofEntries keeps_schema keeps_config hraw h
  exact ⟨List.all_eq_true.2 hschemas, hconfig⟩

end Snapshot

end SchemaTypes
