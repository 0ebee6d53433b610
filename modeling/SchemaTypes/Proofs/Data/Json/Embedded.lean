/-
# What is embedded is read back

The JSON in generated files and in the manifest of an export is read back by the reader of the
program, from the text as well as from a file that holds it (`IsReadBack`): every plain value with
short numbers for whose lists and maps there is room, in every layout; and labels, lists of locales,
tables of messages and manifests, which are such values (`embedded_read_back`).  What is beyond
these limits is not written, or not read.  How much room there is depends on the caller, so it is
left open on both sides.

A file is read through its bytes and with one spelling for line breaks, which changes nothing, since
what the printer writes has no carriage returns.
-/
import SchemaTypes.Output.Manifest
import SchemaTypes.Output.SharedModules
import SchemaTypes.Proofs.Data.Json.LineBreaks
import SchemaTypes.Proofs.Text.Utf8
import SchemaTypes.Reading.SnapshotFile

namespace SchemaTypes

open Numeral (IsShort)
open Value (HasPlainKeys HasShortNumbers IsPlain)

/-! ## 1. Files -/

theorem Text.unifyLineBreaks_of_notMem {cs : List Char} (h : '\r' ∉ cs) :
    Text.unifyLineBreaks cs = cs := by
  induction cs with
  | nil => rfl
  | cons c rest ih =>
    rw [List.mem_cons, not_or] at h
    rw [Text.unifyLineBreaks, ih h.2]
    · exact fun _ heq _ => h.1 heq.symm
    · exact fun heq => h.1 heq.symm

namespace Json

/-- The text is read as the value: by itself, in a file, and as the entries of a file in JSON. -/
structure IsReadBack [Nesting] (s : String) (v : Value) : Prop where
  text : readChars s.toList = .ok v
  file : ∀ path, SnapshotFile.textOf path s.toUTF8 >>= SnapshotFile.jsonValue path = .ok v
  entries : ∀ entries, v = .map entries → ∀ p : Pathname, SnapshotFile.formatOf? p = some .json →
    SnapshotFile.textOf p.text s.toUTF8 >>= SnapshotFile.entriesOf p = .ok entries

/-- The bytes of a text without carriage returns are read as the text. -/
theorem textOf_toUTF8 {s : String} (h : '\r' ∉ s.toList) (path : String) :
    SnapshotFile.textOf path s.toUTF8 = .ok s.toList := by
  rw [SnapshotFile.textOf, Text.Utf8.decode_toUTF8]
  exact congrArg Except.ok (Text.unifyLineBreaks_of_notMem h)

theorem isReadBack_of_readChars [Nesting] {s : String} {v : Value} (hreturn : '\r' ∉ s.toList)
    (h : readChars s.toList = .ok v) : IsReadBack s v := by
  have hvalue (path : String) : SnapshotFile.jsonValue path s.toList = .ok v := by
    rw [SnapshotFile.jsonValue, h]
  have hfile (path : String) := textOf_toUTF8 hreturn path
  refine ⟨h, fun path => ?_, fun entries hv p hp => ?_⟩
  · exact bind_eq_ok_iff.2 ⟨s.toList, hfile path, hvalue path⟩
  · have hentries : SnapshotFile.entriesOf p s.toList = .ok entries := by
      rw [SnapshotFile.entriesOf, hp]
      exact bind_eq_ok_iff.2 ⟨v, hvalue p.text, by rw [hv, SnapshotFile.topLevel]⟩
    exact bind_eq_ok_iff.2 ⟨s.toList, hfile p.text, hentries⟩

/-- **A plain value is read back** from what is written for it. -/
theorem isReadBack_json [Nesting] {v : Value} (hv : v.IsPlain) (hfits : v.fits Nesting.read = true)
    {room : Nat} {l : Layout} {s : String} (h : v.json room l = .ok s) : IsReadBack s v :=
  isReadBack_of_readChars (calm_jsonAt room l v 0 s h).1 ((readChars_json hv h).1 hfits)

/-! ## 2. Texts of the generated files -/

/-- A collection is written where there is room for it. -/
theorem ite_tooDeep_of_lt {room level : Nat} (h : level < room) (x : Except Obstacle String) :
    (if room ≤ level then .error .tooDeep else x) = x :=
  if_neg (Nat.not_le.2 h)

/-- The entries of a map with text keys, if each value is written by `f`. -/
theorem jsonEntries_ofFields {α : Type} (room : Nat) (l : Layout) (level : Nat) {f : α → String}
    {g : α → Value} (h : ∀ a, (g a).jsonAt room l level = .ok (f a)) (xs : List (String × α)) :
    Value.jsonEntries room l level (xs.map fun x => (.text x.1, g x.2))
      = .ok (xs.map fun x => text x.1 ++ l.colon ++ f x.2) := by
  induction xs with
  | nil => rfl
  | cons x rest ih =>
    rw [List.map_cons, Value.jsonEntries, h, ih]
    rfl

theorem jsonAt_ofTextMap {room level : Nat} (h : level < room) (l : Layout)
    (xs : List (String × String)) :
    (Value.ofTextMap xs).jsonAt room l level = .ok (l.enclose level "\x7b" "\x7d"
      (xs.map fun x => text x.1 ++ l.colon ++ text x.2)) := by
  rw [Value.ofTextMap, Value.ofFields, List.map_map, Value.jsonAt, ite_tooDeep_of_lt h]
  exact congrArg (Except.map _) (jsonEntries_ofFields room l (level + 1) (fun _ => rfl) xs)

/-- **Labels** are the values they look like. -/
theorem json_ofTextMap {room : Nat} (h : 0 < room) (l : Layout) (xs : List (String × String)) :
    (Value.ofTextMap xs).json room l = .ok (textMap l xs) := jsonAt_ofTextMap h l xs

/-- **Lists of locales** are the values they look like. -/
theorem json_ofTexts {room : Nat} (h : 0 < room) (xs : List String) :
    (Value.ofTexts xs).json room .compact = .ok (texts xs) := by
  have hitems : Value.jsonItems room .compact 1 (xs.map .text) = .ok (xs.map text) := by
    induction xs with
    | nil => rfl
    | cons x rest ih =>
      rw [List.map_cons, Value.jsonItems, ih]
      rfl
  rw [Value.json, Value.ofTexts, Value.jsonAt, ite_tooDeep_of_lt h, hitems]
  rfl

/-- A table of messages as a value. -/
def tableValue (table : MessageTable) : Value :=
  Value.ofFields (table.map fun e => (e.1, Value.ofTextMap e.2))

/-- **Tables of messages** are the values they look like. -/
theorem json_tableValue {room : Nat} (h : 1 < room) (table : MessageTable) :
    (tableValue table).json room (.indented 2) = .ok (Output.messageTableText table) := by
  rw [tableValue, Value.ofFields, List.map_map, Value.json, Value.jsonAt,
    ite_tooDeep_of_lt (Nat.zero_lt_of_lt h)]
  exact congrArg (Except.map _)
    (jsonEntries_ofFields room (.indented 2) 1 (jsonAt_ofTextMap h (.indented 2)) table)

/-! ## 3. Plain values in the generated files -/

theorem isPlain_ofFields {fields : List (String × Value)} (hnodup : (fields.map (·.1)).Nodup)
    (h : ∀ f ∈ fields, f.2.IsPlain) : (Value.ofFields fields).IsPlain := by
  refine Value.isPlain_map.2 ⟨⟨?_, ?_⟩, ?_⟩
  · exact List.forall_mem_map.2 fun f _ => rfl
  · rw [List.map_map]
    have hkeys := hnodup.map (f := Key.text) fun a b hab => Key.text.inj hab
    rwa [List.map_map] at hkeys
  · exact List.forall_mem_map.2 h

theorem hasShortNumbers_ofFields {fields : List (String × Value)} :
    (Value.ofFields fields).HasShortNumbers ↔ ∀ f ∈ fields, f.2.HasShortNumbers := by
  rw [Value.ofFields, Value.hasShortNumbers_map, List.forall_mem_map]

theorem fits_ofFields {depth : Nat} {fields : List (String × Value)} :
    (Value.ofFields fields).fits (depth + 1) = true ↔ ∀ f ∈ fields, f.2.fits depth = true := by
  rw [Value.ofFields, Value.fits_map, List.forall_mem_map]

theorem fits_text {depth : Nat} (s : String) : (Value.text s).fits depth = true := by
  simp [Value.fits]

theorem fits_int {depth : Nat} (i : Int) : (Value.int i).fits depth = true := by
  simp [Value.fits]

theorem isPlain_ofTextMap {xs : List (String × String)} (h : (xs.map (·.1)).Nodup) :
    (Value.ofTextMap xs).IsPlain := by
  refine isPlain_ofFields (by rwa [List.map_map]) ?_
  exact List.forall_mem_map.2 fun x _ => rfl

theorem fits_ofTextMap (depth : Nat) (xs : List (String × String)) :
    (Value.ofTextMap xs).fits (depth + 1) = true := by
  exact fits_ofFields.2 (List.forall_mem_map.2 fun x _ => fits_text x.2)

theorem isPlain_ofTexts (xs : List String) : (Value.ofTexts xs).IsPlain := by
  exact Value.isPlain_list.2 (List.forall_mem_map.2 fun x _ => rfl)

theorem hasShortNumbers_ofTexts (xs : List String) : (Value.ofTexts xs).HasShortNumbers := by
  exact Value.hasShortNumbers_list.2 (List.forall_mem_map.2 fun x _ => rfl)

theorem fits_ofTexts (depth : Nat) (xs : List String) :
    (Value.ofTexts xs).fits (depth + 1) = true := by
  exact Value.fits_list.2 (List.forall_mem_map.2 fun x _ => fits_text x)

theorem isPlain_tableValue {table : MessageTable} (h : (table.map (·.1)).Nodup)
    (hinner : ∀ e ∈ table, (e.2.map (·.1)).Nodup) : (tableValue table).IsPlain := by
  exact isPlain_ofFields (by rwa [List.map_map])
    (List.forall_mem_map.2 fun e he => isPlain_ofTextMap (hinner e he))

theorem fits_tableValue (depth : Nat) (table : MessageTable) :
    (tableValue table).fits (depth + 2) = true := by
  exact fits_ofFields.2 (List.forall_mem_map.2 fun e _ => fits_ofTextMap depth e.2)

/-- The numbers in a manifest are short. -/
def HasShortCounts (m : Output.Manifest) : Prop :=
  IsShort m.totalFiles ∧ IsShort m.totalBytes ∧ IsShort m.totalLines ∧
    ∀ r ∈ m.files, IsShort r.sizeBytes ∧ IsShort r.lineCount

theorem isPlain_recordValue (r : Output.FileRecord) : (Output.Manifest.recordValue r).IsPlain :=
  isPlain_ofFields (by simp) (by simp [IsPlain, Value.every, Value.isJsonKind])

theorem isPlain_manifest (m : Output.Manifest) : m.value.IsPlain := by
  have hfiles : (Value.list (m.files.map Output.Manifest.recordValue)).IsPlain := by
    exact Value.isPlain_list.2 (List.forall_mem_map.2 fun r _ => isPlain_recordValue r)
  have hskipped := isPlain_ofTexts m.skipped
  refine isPlain_ofFields (by simp) ?_
  simp only [List.forall_mem_cons]
  exact ⟨rfl, rfl, rfl, rfl, rfl, rfl, rfl, hfiles, hskipped, by simp⟩

theorem hasShortNumbers_int {i : Int} : (Value.int i).HasShortNumbers ↔ IsShort i := by
  simp [HasShortNumbers, Value.every, Value.isShortNumber]

theorem hasShortNumbers_manifest {m : Output.Manifest} (h : HasShortCounts m) :
    m.value.HasShortNumbers := by
  obtain ⟨hfiles, hbytes, hlines, hrecords⟩ := h
  have hlist : (Value.list (m.files.map Output.Manifest.recordValue)).HasShortNumbers := by
    refine Value.hasShortNumbers_list.2 (List.forall_mem_map.2 fun r hr => ?_)
    obtain ⟨hsize, hcount⟩ := hrecords r hr
    refine hasShortNumbers_ofFields.2 ?_
    simp only [List.forall_mem_cons]
    exact ⟨rfl, hasShortNumbers_int.2 hsize, hasShortNumbers_int.2 hcount, rfl, by simp⟩
  refine hasShortNumbers_ofFields.2 ?_
  simp only [List.forall_mem_cons]
  exact ⟨rfl, rfl, rfl, rfl, hasShortNumbers_int.2 hfiles, hasShortNumbers_int.2 hbytes,
    hasShortNumbers_int.2 hlines, hlist, hasShortNumbers_ofTexts _, by simp⟩

/-- A manifest holds a list of maps. -/
theorem fits_manifest (depth : Nat) (m : Output.Manifest) : m.value.fits (depth + 3) = true := by
  have hlist : (Value.list (m.files.map Output.Manifest.recordValue)).fits (depth + 2) = true := by
    refine Value.fits_list.2 (List.forall_mem_map.2 fun r _ => fits_ofFields.2 ?_)
    simp only [List.forall_mem_cons]
    exact ⟨fits_text _, fits_int _, fits_int _, fits_text _, by simp⟩
  refine fits_ofFields.2 ?_
  simp only [List.forall_mem_cons]
  exact ⟨fits_text _, fits_text _, fits_text _, fits_text _, fits_int _, fits_int _, fits_int _,
    hlist, fits_ofTexts _ _, by simp⟩

/-! ## 4. Everything that is embedded -/

/-- What is embedded is read back.  A plain value is written if its numbers are short and there is
room for its lists and maps, and what is written is read back if the reader has room for them too;
else it is not written, or not read. -/
structure EmbeddedReadBack [Nesting] : Prop where
  values : ∀ v : Value, v.IsPlain → ∀ room l,
    ((∃ s, v.json room l = .ok s) ↔ v.HasShortNumbers ∧ v.fits room = true) ∧
      ∀ s, v.json room l = .ok s →
        (v.fits Nesting.read = true → IsReadBack s v) ∧
          (¬v.fits Nesting.read = true → (readChars s.toList).isOk = false)
  labels : 1 ≤ Nesting.read → ∀ xs : List (String × String), (xs.map (·.1)).Nodup → ∀ l,
    IsReadBack (textMap l xs) (.ofTextMap xs)
  locales : 1 ≤ Nesting.read → ∀ xs, IsReadBack (texts xs) (.ofTexts xs)
  messages : 2 ≤ Nesting.read → ∀ table : MessageTable, (table.map (·.1)).Nodup →
    (∀ e ∈ table, (e.2.map (·.1)).Nodup) →
      IsReadBack (Output.messageTableText table) (tableValue table)
  manifests : 3 ≤ Nesting.read → ∀ m : Output.Manifest, HasShortCounts m → ∀ l,
    IsReadBack (m.json l) m.value

/-- **What is embedded is read back**, in every layout as the same value, with the items and entries
in their order. -/
theorem embedded_read_back [Nesting] : EmbeddedReadBack where
  values v hv room l :=
    ⟨exists_json_iff_of_isPlain hv room l, fun _ hs =>
      ⟨fun hfits => isReadBack_json hv hfits hs, (readChars_json hv hs).2⟩⟩
  labels hroom xs h l := by
    obtain ⟨depth, hdepth⟩ := Nat.exists_eq_add_of_le' hroom
    exact isReadBack_json (isPlain_ofTextMap h) (hdepth ▸ fits_ofTextMap depth xs)
      (json_ofTextMap Nat.one_pos l xs)
  locales hroom xs := by
    obtain ⟨depth, hdepth⟩ := Nat.exists_eq_add_of_le' hroom
    exact isReadBack_json (isPlain_ofTexts xs) (hdepth ▸ fits_ofTexts depth xs)
      (json_ofTexts Nat.one_pos xs)
  messages hroom table h hinner := by
    obtain ⟨depth, hdepth⟩ := Nat.exists_eq_add_of_le' hroom
    exact isReadBack_json (isPlain_tableValue h hinner) (hdepth ▸ fits_tableValue depth table)
      (json_tableValue Nat.one_lt_two table)
  manifests hroom m h l := by
    obtain ⟨depth, hdepth⟩ := Nat.exists_eq_add_of_le' hroom
    obtain ⟨s, hs⟩ := (exists_json_iff_of_isPlain (isPlain_manifest m) 3 l).2
      ⟨hasShortNumbers_manifest h, fits_manifest 0 m⟩
    have hjson : m.json l = s := by
      rw [Output.Manifest.json, hs]
      rfl
    rw [hjson]
    exact isReadBack_json (isPlain_manifest m) (hdepth ▸ fits_manifest depth m) hs

-- Further data of a member, with a quote, a control character and a list without items.
theorem embedded_read_back_extra : ∀ l, ∃ s,
    (Value.map [(.text "sign \"+\"", .int (-3)), (.text "\x01", .list [.null, .list []])]).json
        Nesting.commandLine.named l = .ok s ∧
      IsReadBack s
        (.map [(.text "sign \"+\"", .int (-3)), (.text "\x01", .list [.null, .list []])]) := by
  intro l
  obtain ⟨hwritten, hback⟩ := embedded_read_back.values
    (.map [(.text "sign \"+\"", .int (-3)), (.text "\x01", .list [.null, .list []])]) (by decide)
    Nesting.commandLine.named l
  obtain ⟨s, hs⟩ := hwritten.2 ⟨by decide +kernel, by decide +kernel⟩
  exact ⟨s, hs, (hback s hs).1 (by decide +kernel)⟩

theorem json_int_of_not_isShort {i : Int} (h : ¬IsShort i) (room : Nat) (l : Layout) :
    (Value.int i).json room l = .error .overlong := by
  rw [Value.json, Value.jsonAt, whole_of_not_isShort h]

theorem not_isShort_pow : ¬IsShort (10 ^ Numeral.lengthLimit) := by
  have hpow (n : Nat) : ((10 : Int) ^ n).natAbs = Nat.pow 10 n := Int.natAbs_pow 10 n
  rw [IsShort, hpow]
  exact Nat.lt_irrefl _

/-- **A number of one digit more** is plain, but it is not written, however much room there is. -/
theorem longNumber_not_written :
    (Value.int (10 ^ Numeral.lengthLimit)).IsPlain ∧
      ∀ room l, (Value.int (10 ^ Numeral.lengthLimit)).json room l = .error .overlong :=
  ⟨rfl, json_int_of_not_isShort not_isShort_pow⟩

end Json

end SchemaTypes
