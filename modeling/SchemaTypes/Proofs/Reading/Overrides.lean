/-
# Settings put over those of a snapshot

Settings from outside are put over those of a snapshot, whichever of its sections holds them and
whichever spelling it uses.  They win and change nothing else (`overrides_win`): each setting
that is given is read from what is given, each other setting and the schemas are read as before.

What carries this is where a setting is found afterwards (`find?_foldl_overrideEntry`): under its
own name with the given value, or else where it was (`read_overridden`).  The rest is that the same
section is used before and after (`configSection_overrideConfig`).
-/
import SchemaTypes.Proofs.DisplayNames
import SchemaTypes.Proofs.Reading.Entries
import SchemaTypes.Proofs.Reading.Settings
import SchemaTypes.Reading.Snapshot

namespace SchemaTypes

open Reading (Entries Setting)

/-! ## 1. Settings from outside -/

/-- Settings from outside, each given at most once. -/
structure Overrides where
  entries : List (String × Value)
  distinct : (Dictionary.keys entries).Nodup
  known : ∀ name ∈ Dictionary.keys entries, ∃ s : Setting, name = s.key

namespace Overrides

/-- What is given for a setting. -/
def value? (o : Overrides) (s : Setting) : Option Value := o.entries.lookup s.key

/-- Two rounds of settings as one: the later round wins. -/
def merge (earlier later : Overrides) : Overrides where
  entries := Dictionary.merge earlier.entries later.entries
  distinct := Dictionary.nodup_keys_merge earlier.distinct
  known name h := (Dictionary.mem_keys_merge.1 h).elim (earlier.known name) (later.known name)

theorem value?_merge (earlier later : Overrides) (s : Setting) :
    (earlier.merge later).value? s = (later.value? s).or (earlier.value? s) :=
  Dictionary.lookup_merge later.distinct s.key

end Overrides

namespace Snapshot

open Reading (entry?_putEntry_text entry?_without)

/-! ## 2. One section -/

/-- The name of a setting in camel case is its other spelling. -/
theorem camel_key (s : Setting) : camel s.key = s.fieldName.first := by cases s <;> decide +kernel

/-- Where a setting is found after one was set. -/
theorem find?_overrideEntry (s t : Setting) (v : Value) (es : Entries) :
    t.fieldName.find? (overrideEntry es (s.key, v))
      = if t = s then some (s.key, v) else t.fieldName.find? es := by
  have hfound : ∀ name, Value.entry? name (overrideEntry es (s.key, v))
      = if name = s.fieldName.second then some v
        else if name = s.fieldName.first then none else Value.entry? name es := by
    intro name
    rw [overrideEntry, entry?_putEntry_text, entry?_without, camel_key]
    rfl
  by_cases hts : t = s
  · subst hts
    rw [if_pos rfl, Reading.FieldName.find?, hfound, hfound, if_pos rfl, if_pos rfl]
    by_cases hone : t.fieldName.first = t.fieldName.second
    · rw [if_pos hone, hone]
      rfl
    · rw [if_neg hone]
      rfl
  · have hother : ∀ name, name = t.fieldName.first ∨ name = t.fieldName.second →
        Value.entry? name (overrideEntry es (s.key, v)) = Value.entry? name es := by
      intro name hname
      rw [hfound, if_neg fun h => hts (Setting.eq_of_shared hname (.inr h)),
        if_neg fun h => hts (Setting.eq_of_shared hname (.inl h))]
    rw [if_neg hts, Reading.FieldName.find?, hother _ (.inl rfl), hother _ (.inr rfl),
      Reading.FieldName.find?]

/-- Where a setting is found after all were set: under its name if it is given, else where it
was. -/
theorem find?_foldl_overrideEntry (t : Setting) {os : List (String × Value)}
    (hdistinct : (Dictionary.keys os).Nodup)
    (hknown : ∀ name ∈ Dictionary.keys os, ∃ s : Setting, name = s.key) (es : Entries) :
    t.fieldName.find? (os.foldl overrideEntry es)
      = ((os.lookup t.key).map fun v => (t.key, v)).or (t.fieldName.find? es) := by
  induction os generalizing es with
  | nil => rfl
  | cons o rest ih =>
    obtain ⟨name, v⟩ := o
    obtain ⟨hname, hrest⟩ := List.nodup_cons.1 hdistinct
    obtain ⟨s, rfl⟩ := hknown name List.mem_cons_self
    rw [List.foldl_cons, ih hrest fun n hn => hknown n (List.mem_cons_of_mem _ hn),
      find?_overrideEntry, List.lookup_cons]
    by_cases hts : t = s
    · subst hts
      -- The key is given once, so no later entry sets it again.
      rw [Dictionary.lookup_eq_none hname, if_pos rfl, beq_self_eq_true]
      rfl
    · rw [if_neg hts, beq_false_of_ne fun h => hts (Setting.key_inj h)]

/-- **A setting after others were put over it** is read from what is given for it, or as before. -/
theorem read_overridden (o : Overrides) (s : Setting) (es : Entries) :
    s.read (o.entries.foldl overrideEntry es) =
      match o.value? s with
      | some v => (s.reader v).under (.name s.key)
      | none => s.read es := by
  rw [Setting.read, Reading.fieldOr, find?_foldl_overrideEntry s o.distinct o.known,
    ← Overrides.value?]
  cases o.value? s <;> rfl

/-! ## 3. The section of a snapshot -/

theorem sectionOf_cons (name : String) (rest : List String) (raw : Entries) :
    sectionOf (name :: rest) raw =
      match Value.entry? name raw with
      | some (.map es) => some (name, es)
      | _ => sectionOf rest raw := by
  rw [sectionOf, List.findSome?_cons]
  cases Value.entry? name raw with
  | none => rfl
  | some v => cases v <;> rfl

/-- The section that was used stays the one that is used when its settings change. -/
theorem sectionOf_putEntry {names : List String} {raw es es' : Entries} {name : String}
    (h : sectionOf names raw = some (name, es)) :
    sectionOf names (putEntry (.text name) (.map es') raw) = some (name, es') := by
  induction names with
  | nil => exact nomatch h
  | cons n rest ih =>
    rw [sectionOf_cons] at h ⊢
    rw [entry?_putEntry_text]
    by_cases hn : n = name
    · rw [if_pos hn, hn]
    · rw [if_neg hn]
      split at h
      · cases h
        exact absurd rfl hn
      · exact ih h

/-- The section after settings were put over it. -/
theorem configSection_overrideConfig (raw : Entries) (os : List (String × Value)) :
    configSection (overrideConfig raw os)
      = some (((configSection raw).map (·.1)).getD "config",
          os.foldl overrideEntry (configEntries raw)) := by
  unfold overrideConfig
  cases hs : configSection raw with
  | some e =>
    obtain ⟨name, es⟩ := e
    exact sectionOf_putEntry hs
  | none =>
    simp only [configSection, sectionOf, sectionNames, List.findSome?_cons, entry?_putEntry_text]
    rfl

theorem configEntries_overrideConfig (raw : Entries) (os : List (String × Value)) :
    configEntries (overrideConfig raw os) = os.foldl overrideEntry (configEntries raw) := by
  rw [configEntries, configSection_overrideConfig]
  rfl

/-- The section has one of its names. -/
theorem mem_sectionNames_of_configSection {raw es : Entries} {name : String}
    (h : configSection raw = some (name, es)) : name ∈ sectionNames := by
  obtain ⟨n, hn, he⟩ := List.exists_of_findSome?_eq_some h
  split at he
  · cases he
    exact hn
  · exact nomatch he

/-- The schemas are not touched. -/
theorem schemas_overrideConfig (raw : Entries) (os : List (String × Value)) :
    Value.entry? "schemas" (overrideConfig raw os) = Value.entry? "schemas" raw := by
  have hname : ((configSection raw).map (·.1)).getD "config" ∈ sectionNames := by
    cases hs : configSection raw with
    | none => exact List.mem_cons_self
    | some e => exact mem_sectionNames_of_configSection hs
  rw [overrideConfig, entry?_putEntry_text, if_neg]
  intro h
  rw [← h] at hname
  exact absurd hname (by decide)

/-! ## 4. The snapshot -/

/-- What is read depends on the schemas and on each of the settings. -/
theorem ofEntries_congr {raw raw' : Entries}
    (hschemas : Value.entry? "schemas" raw = Value.entry? "schemas" raw')
    (hsettings : ∀ s : Setting, s.read (configEntries raw) = s.read (configEntries raw')) :
    ofEntries raw = ofEntries raw' := by
  rw [ofEntries, hschemas, ofEntries, readConfig, Reading.config_congr hsettings]
  rfl

/-- No settings put over those of a snapshot: the same snapshot is read. -/
theorem ofEntries_overrideConfig_nil (raw : Entries) :
    ofEntries (overrideConfig raw []) = ofEntries raw :=
  ofEntries_congr (schemas_overrideConfig raw []) fun _ => by
    rw [configEntries_overrideConfig]
    rfl

/-- With or without settings from outside, they are put over those of the snapshot. -/
theorem ofEntriesWith_eq (raw : Entries) (overrides : List (String × Value)) :
    ofEntriesWith raw overrides = ofEntries (overrideConfig raw overrides) := by
  cases overrides with
  | nil => exact (ofEntries_overrideConfig_nil raw).symm
  | cons o rest => rfl

/-- What makes up a snapshot that was read. -/
theorem ofEntries_eq_ok {raw : Entries} {s : Snapshot} (h : ofEntries raw = .ok s) :
    ∃ schemas records, Value.entry? "schemas" raw = some schemas
      ∧ schemaRecords schemas = .ok records ∧ readCollection records = .ok s.collection
      ∧ Reading.config (.map (configEntries raw)) = .accepted s.config := by
  unfold ofEntries at h
  split at h
  · exact nomatch h
  · next schemas hschemas =>
    split at h
    · exact nomatch h
    · next records hrecords =>
      obtain ⟨collection, hcollection, h⟩ := bind_eq_ok_iff.1 h
      obtain ⟨config, hconfig, h⟩ := bind_eq_ok_iff.1 h
      cases h
      refine ⟨schemas, records, hschemas, hrecords, hcollection, ?_⟩
      unfold readConfig settle at hconfig
      split at hconfig
      · next heq => cases hconfig; exact heq
      · exact nomatch hconfig
      · exact nomatch hconfig

/-- The second snapshot is the first one with settings put over its own. -/
structure Overridden (o : Overrides) (first second : Snapshot) : Prop where
  /-- The schemas stay. -/
  collection : second.collection = first.collection
  /-- A setting that is given has the value that is read from what is given. -/
  given : ∀ (s : Setting) (v : Value), o.value? s = some v →
    s.reader v = .accepted (s.get second.config)
  /-- Any other setting stays. -/
  kept : ∀ s : Setting, o.value? s = none → s.get second.config = s.get first.config

/-- **Settings from outside win and change nothing else**, in whichever section and spelling a
snapshot has its own, and two rounds of them are one round in which the later one wins. -/
theorem overrides_win (raw : Entries) (o : Overrides) :
    (∀ first second, ofEntries raw = .ok first →
      ofEntries (overrideConfig raw o.entries) = .ok second → Overridden o first second)
    ∧ ∀ later : Overrides, ofEntries (overrideConfig (overrideConfig raw o.entries) later.entries)
        = ofEntries (overrideConfig raw (o.merge later).entries) := by
  refine ⟨fun first second hfirst hsecond => ?_, fun later => ?_⟩
  · obtain ⟨schemas, records, hschemas, hrecords, hcollection, hconfig⟩ := ofEntries_eq_ok hfirst
    obtain ⟨schemas', records', hschemas', hrecords', hcollection', hconfig'⟩ :=
      ofEntries_eq_ok hsecond
    rw [schemas_overrideConfig, hschemas] at hschemas'
    cases hschemas'
    rw [hrecords] at hrecords'
    cases hrecords'
    rw [hcollection] at hcollection'
    rw [configEntries_overrideConfig] at hconfig'
    refine ⟨(Except.ok.inj hcollection').symm, fun s v hv => ?_, fun s hs => ?_⟩
    · have hread := Reading.read_of_config_accepted hconfig' s
      rw [read_overridden, hv] at hread
      exact Reading.Outcome.under_eq_accepted.1 hread
    · have hread := Reading.read_of_config_accepted hconfig' s
      rw [read_overridden, hs] at hread
      exact Reading.Outcome.accepted.inj
        (hread.symm.trans (Reading.read_of_config_accepted hconfig s))
  · refine ofEntries_congr ?_ fun s => ?_
    · rw [schemas_overrideConfig, schemas_overrideConfig, schemas_overrideConfig]
    · rw [configEntries_overrideConfig, configEntries_overrideConfig, configEntries_overrideConfig,
        read_overridden, read_overridden, read_overridden, Overrides.value?_merge]
      cases later.value? s <;> rfl

/-- A snapshot with settings under a later name of their section, one of them in both spellings. -/
def twoSpellings : Entries :=
  [(.text "schemas", .list [Value.ofFields [("name", .text "User")]]),
    (.text "config", .null),
    (.text "generation_config", Value.ofFields
      [("useJsExtension", .bool false), ("use_js_extension", .bool false),
        ("packageName", .text "@app"), ("readonly", .bool true)])]

/-- Module names with an extension, in a package. -/
def extensionAndPackage : Overrides where
  entries := [("use_js_extension", .text "yes"), ("layout", .text "package")]
  distinct := by decide
  known := by
    intro name h
    rcases List.mem_pair.1 h with rfl | rfl
    · exact ⟨.useJsExtension, rfl⟩
    · exact ⟨.layout, rfl⟩

theorem overrides_win_twoSpellings :
    let first : Snapshot := ⟨⟨[{ name := "User" }]⟩, { isReadonly := true, packageName := "@app" }⟩
    let second : Snapshot := { first with config :=
      { first.config with useJsExtension := true, layout := .package } }
    ofEntries twoSpellings = .ok first
      ∧ ofEntries (overrideConfig twoSpellings extensionAndPackage.entries) = .ok second
      ∧ Overridden extensionAndPackage first second :=
  ⟨rfl, rfl, (overrides_win twoSpellings extensionAndPackage).1 _ _ rfl rfl⟩

end Snapshot

end SchemaTypes
