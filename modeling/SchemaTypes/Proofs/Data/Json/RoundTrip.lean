/-
# Values read back

A value made of nothing but the kinds that JSON has, with texts as keys and no key twice
(`IsPlain`), is written in every layout, and reading gives the value again: the same items and
entries in the same order (`readChars_json`).  The limits of the printer and of the reader are the
only exceptions, and they are exact: no whole number with more than `Numeral.lengthLimit` digits
(`HasShortNumbers`), and no more lists and maps inside each other than there is room for on either
side.

A text is read with what follows kept general.  One lemma passes over the items of a list, one over
the entries of a map (`readItems_gives`, `readEntries_gives`), each for the values inside for which
the theorem is known already; the layout enters only as blanks that the reader skips (`Blanks`).
-/
import SchemaTypes.Proofs.Data.Json
import SchemaTypes.Proofs.Data.Json.Scalars

namespace SchemaTypes

/-! ## 1. Plain values -/

mutual

/-- A condition holds of a value and of all values in it. -/
def Value.every (p : Value → Bool) : Value → Bool
  | .list items => p (.list items) && Value.everyItem p items
  | .pair a b => p (.pair a b) && a.every p && b.every p
  | .map entries => p (.map entries) && Value.everyEntry p entries
  | v => p v

/-- A condition holds of the items of a list. -/
def Value.everyItem (p : Value → Bool) : List Value → Bool
  | [] => true
  | v :: rest => v.every p && Value.everyItem p rest

/-- A condition holds of the values of a map. -/
def Value.everyEntry (p : Value → Bool) : List (Key × Value) → Bool
  | [] => true
  | (_, v) :: rest => v.every p && Value.everyEntry p rest

end

namespace Value

/-- The keys are texts, and no key is there twice. -/
def HasPlainKeys (entries : List (Key × Value)) : Prop :=
  (∀ e ∈ entries, e.1.text?.isSome = true) ∧ (entries.map (·.1)).Nodup

instance : DecidablePred HasPlainKeys := fun _ => inferInstanceAs (Decidable (_ ∧ _))

/-- A kind of value that JSON has. -/
def isJsonKind : Value → Bool
  | .null => true
  | .bool _ => true
  | .int _ => true
  | .text _ => true
  | .list _ => true
  | .map entries => HasPlainKeys entries
  | _ => false

/-- A value without halves of pairs, stamps, bytes, pairs, sets, doubles and endless values in it,
all of whose maps have plain keys. -/
def IsPlain (v : Value) : Prop := v.every isJsonKind = true

/-- Whole numbers are short. -/
def isShortNumber : Value → Bool
  | .int i => Numeral.IsShort i
  | _ => true

/-- A value in which no whole number is too long. -/
def HasShortNumbers (v : Value) : Prop := v.every isShortNumber = true

instance : DecidablePred IsPlain := fun _ => inferInstanceAs (Decidable (_ = _))

instance : DecidablePred HasShortNumbers := fun _ => inferInstanceAs (Decidable (_ = _))

variable {items : List Value} {entries : List (Key × Value)} {depth : Nat}

theorem everyItem_iff {p : Value → Bool} :
    everyItem p items = true ↔ ∀ v ∈ items, v.every p = true := by
  induction items with
  | nil => simp [everyItem]
  | cons v rest ih => simp [everyItem, ih]

theorem everyEntry_iff {p : Value → Bool} :
    everyEntry p entries = true ↔ ∀ e ∈ entries, e.2.every p = true := by
  induction entries with
  | nil => simp [everyEntry]
  | cons e rest ih => simp [everyEntry, ih]

theorem sizeOf_item {v : Value} (h : v ∈ items) : sizeOf v < sizeOf (Value.list items) := by
  have hless := List.sizeOf_lt_of_mem h
  simp only [Value.list.sizeOf_spec]
  omega

theorem sizeOf_entry {e : Key × Value} (h : e ∈ entries) :
    sizeOf e.2 < sizeOf (Value.map entries) := by
  have hless := List.sizeOf_lt_of_mem h
  obtain ⟨k, v⟩ := e
  simp only [Value.map.sizeOf_spec, Prod.mk.sizeOf_spec] at hless ⊢
  omega

theorem isPlain_list : IsPlain (.list items) ↔ ∀ v ∈ items, v.IsPlain := by
  simp [IsPlain, every, isJsonKind, everyItem_iff]

theorem isPlain_map :
    IsPlain (.map entries) ↔ HasPlainKeys entries ∧ ∀ e ∈ entries, e.2.IsPlain := by
  simp [IsPlain, every, isJsonKind, everyEntry_iff]

theorem hasShortNumbers_list :
    HasShortNumbers (.list items) ↔ ∀ v ∈ items, v.HasShortNumbers := by
  simp [HasShortNumbers, every, isShortNumber, everyItem_iff]

theorem hasShortNumbers_map :
    HasShortNumbers (.map entries) ↔ ∀ e ∈ entries, e.2.HasShortNumbers := by
  simp [HasShortNumbers, every, isShortNumber, everyEntry_iff]

theorem fits_list :
    (Value.list items).fits (depth + 1) = true ↔ ∀ v ∈ items, v.fits depth = true := by
  rw [fits, allFit_iff]

theorem fits_map :
    (Value.map entries).fits (depth + 1) = true ↔ ∀ e ∈ entries, e.2.fits depth = true := by
  rw [fits, entriesFit_iff]

end Value

namespace Json

open SchemaTypes.Numeral (IsShort)
open SchemaTypes.Text (isDigit)
open Value (HasShortNumbers IsPlain)

/-! ## 2. Plain values that are written -/

/-- A plain value has a form that can be written if its numbers are short. -/
theorem hasJson_iff_of_isPlain (v : Value) (hv : v.IsPlain) :
    v.hasJson = true ↔ v.HasShortNumbers := by
  match v with
  | .null | .bool _ | .text _ => rfl
  | .int i => simp [Value.hasJson, HasShortNumbers, Value.every, Value.isShortNumber]
  | .list items =>
    have hitems := Value.isPlain_list.1 hv
    rw [Value.hasJson, Value.allHaveJson_iff, Value.hasShortNumbers_list]
    exact forall₂_congr fun w hw => hasJson_iff_of_isPlain w (hitems w hw)
  | .map entries =>
    obtain ⟨hkeys, hentries⟩ := Value.isPlain_map.1 hv
    rw [Value.hasJson, Value.entriesHaveJson_iff, Value.hasShortNumbers_map]
    refine forall₂_congr fun e he => ?_
    have hkey := hkeys.1 e he
    cases hk : e.1 with
    | text s =>
      refine (and_iff_right rfl).trans ?_
      exact hasJson_iff_of_isPlain e.2 (hentries e he)
    | _ => simp [hk, Key.text?] at hkey
  | .real _ | .halfText | .stamp _ | .bytes _ | .pair _ _ | .set _ | .endless =>
    simp [Value.IsPlain, Value.every, Value.isJsonKind] at hv
termination_by sizeOf v
decreasing_by
  · exact Value.sizeOf_item hw
  · exact Value.sizeOf_entry he

/-- **A plain value is written** in every layout exactly if its numbers are short and there is room
for its lists and maps. -/
theorem exists_json_iff_of_isPlain {v : Value} (hv : v.IsPlain) (room : Nat) (l : Layout) :
    (∃ s, v.json room l = .ok s) ↔ v.HasShortNumbers ∧ v.fits room = true := by
  rw [← isOk_iff, Value.isOk_json, Value.isWritable_iff, hasJson_iff_of_isPlain v hv]

/-- A key that is not there comes last. -/
theorem putEntry_of_new {key : Key} {entries : List (Key × Value)}
    (h : ∀ e ∈ entries, e.1.same key = false) (v : Value) :
    putEntry key v entries = entries ++ [(key, v)] := by
  induction entries with
  | nil => rfl
  | cons e rest ih =>
    obtain ⟨hfirst, hrest⟩ := List.forall_mem_cons.1 h
    obtain ⟨k, w⟩ := e
    rw [putEntry, if_neg (by rw [hfirst]; exact Bool.false_ne_true), ih hrest]
    rfl

/-- In plain keys the next one is new. -/
theorem HasPlainKeys.putEntry {done rest : List (Key × Value)} {name : String} {v : Value}
    (h : Value.HasPlainKeys (done ++ (.text name, v) :: rest)) (w : Value) :
    putEntry (.text name) w done = done ++ [(.text name, w)] := by
  refine putEntry_of_new (fun e he => ?_) w
  obtain ⟨htext, hnodup⟩ := h
  have hname := htext e (List.mem_append_left _ he)
  rw [List.map_append, List.nodup_append] at hnodup
  have hne := hnodup.2.2 e.1 (List.mem_map_of_mem he) (.text name) (by simp)
  cases hkey : e.1 with
  | text s =>
    rw [hkey] at hne
    simpa [Key.same, Key.scaled?] using hne
  | _ => simp [hkey, Key.text?] at hname

/-! ## 3. Layouts -/

/-- A text of blanks alone. -/
def Blanks (cs : List Char) : Prop := ∀ c ∈ cs, isSpace c = true

theorem blanks_nil : Blanks [] := fun _ h => nomatch h

theorem blanks_space : Blanks [' '] := by
  intro c hc
  rw [List.mem_singleton.1 hc]
  rfl

theorem skipSpace_append {blanks : List Char} (hblanks : Blanks blanks) {c : Char}
    (hc : isSpace c = false) (r : List Char) : skipSpace (blanks ++ c :: r) = c :: r := by
  rw [skipSpace, List.dropWhile_append_of_pos hblanks,
    List.dropWhile_cons_of_neg (by rw [hc]; exact Bool.false_ne_true)]

theorem skipSpace_cons {c : Char} (hc : isSpace c = false) (r : List Char) :
    skipSpace (c :: r) = c :: r :=
  skipSpace_append blanks_nil hc r

theorem blanks_lead (l : Layout) (level : Nat) : Blanks (l.lead level).toList := by
  intro c hc
  cases l with
  | compact => simp [Layout.lead] at hc
  | spaced => simp [Layout.lead] at hc
  | indented w =>
    rw [Layout.lead, String.toList_ofList, List.mem_cons] at hc
    rcases hc with rfl | hc
    · rfl
    · rw [List.eq_of_mem_replicate hc]
      rfl

/-- What stands between two items is a comma and blanks. -/
theorem toList_comma (l : Layout) (level : Nat) :
    ∃ blanks, Blanks blanks ∧ (l.comma level).toList = ',' :: blanks := by
  cases l with
  | spaced => exact ⟨[' '], blanks_space, by simp [Layout.comma]⟩
  | compact => exact ⟨[], blanks_nil, by simp [Layout.comma, Layout.lead]⟩
  | indented w => exact ⟨_, blanks_lead (.indented w) level, by simp [Layout.comma]⟩

/-- What stands between a key and its value is a colon and blanks. -/
theorem toList_colon (l : Layout) : ∃ blanks, Blanks blanks ∧ l.colon.toList = ':' :: blanks := by
  cases l with
  | compact => exact ⟨[], blanks_nil, by simp [Layout.colon]⟩
  | spaced => exact ⟨[' '], blanks_space, by simp [Layout.colon]⟩
  | indented w => exact ⟨[' '], blanks_space, by simp [Layout.colon]⟩

/-- Behind blanks no number goes on. -/
theorem Blanks.closed {blanks : List Char} (h : Blanks blanks) {c : Char}
    (hc : isDigit c = false ∧ c ≠ '.' ∧ c ≠ 'e' ∧ c ≠ 'E') (r : List Char) :
    Closed (blanks ++ c :: r) := by
  cases blanks with
  | nil => exact closed_cons hc
  | cons b rest =>
    have hb := h b List.mem_cons_self
    simp only [isSpace, Bool.or_eq_true, beq_iff_eq] at hb
    refine closed_cons ?_
    rcases hb with ((rfl | rfl) | rfl) | rfl <;> decide

/-- The first character of a value: no blank, no closing bracket and no byte order mark. -/
def Begins (cs : List Char) : Prop :=
  ∃ c r, cs = c :: r ∧ isSpace c = false ∧ c ≠ ']' ∧ c ≠ '\x7d' ∧ c ≠ '\uFEFF'

theorem Begins.append {cs : List Char} (h : Begins cs) (rest : List Char) :
    Begins (cs ++ rest) := by
  obtain ⟨c, r, rfl, hc⟩ := h
  exact ⟨c, r ++ rest, rfl, hc⟩

theorem Begins.skipSpace_append {cs blanks : List Char} (h : Begins cs) (hblanks : Blanks blanks) :
    skipSpace (blanks ++ cs) = cs := by
  obtain ⟨c, r, rfl, hc, -⟩ := h
  exact Json.skipSpace_append hblanks hc r

theorem Begins.ne_bracket {cs r : List Char} (h : Begins cs) : cs ≠ ']' :: r := by
  obtain ⟨c, r', rfl, -, hc, -⟩ := h
  exact fun heq => hc (List.cons.inj heq).1

theorem Begins.ne_brace {cs r : List Char} (h : Begins cs) : cs ≠ '\x7d' :: r := by
  obtain ⟨c, r', rfl, -, -, hc, -⟩ := h
  exact fun heq => hc (List.cons.inj heq).1

theorem Begins.head?_ne_mark {cs : List Char} (h : Begins cs) : cs.head? ≠ some '\uFEFF' := by
  obtain ⟨c, r, rfl, -, -, -, hc⟩ := h
  exact fun heq => hc (Option.some.inj heq)

theorem begins_of_isDigit {c : Char} (h : isDigit c = true) (r : List Char) : Begins (c :: r) := by
  have hne {d : Char} (hd : isDigit d = false) : c ≠ d := by
    rintro rfl
    rw [h] at hd
    exact nomatch hd
  refine ⟨c, r, rfl, ?_, hne rfl, hne rfl, hne rfl⟩
  simp [isSpace, hne (d := ' ') rfl, hne (d := '\t') rfl, hne (d := '\n') rfl,
    hne (d := '\r') rfl]

theorem begins_toString (i : Int) : Begins (toString i).toList := by
  obtain ⟨d, ds, hds⟩ := List.exists_cons_of_ne_nil (Nat.toDigits_ne_nil (n := i.natAbs) (b := 10))
  have hd : isDigit d = true := isDigit_of_mem_toDigits (n := i.natAbs) (hds ▸ List.mem_cons_self)
  rw [toList_toString_int, hds]
  split
  · exact ⟨'-', _, rfl, by decide⟩
  · exact begins_of_isDigit hd ds

theorem head?_toString (i : Int) :
    ∀ c ∈ (toString i).toList.head?, c ≠ '"' ∧ c ≠ '[' ∧ c ≠ '\x7b' := by
  obtain ⟨d, ds, hds⟩ := List.exists_cons_of_ne_nil (Nat.toDigits_ne_nil (n := i.natAbs) (b := 10))
  have hd : isDigit d = true := isDigit_of_mem_toDigits (n := i.natAbs) (hds ▸ List.mem_cons_self)
  rw [toList_toString_int, hds]
  split
  · rintro c ⟨⟩
    decide
  · rintro c ⟨⟩
    refine ⟨?_, ?_, ?_⟩
    all_goals
      rintro rfl
      revert hd
      decide

theorem begins_text (s : String) : Begins (text s).toList := by
  rw [text, String.toList_ofList, textChars]
  exact ⟨'"', _, rfl, by decide⟩

/-- Between brackets the texts follow each other. -/
theorem begins_enclose (l : Layout) (level : Nat) {opening closing : String}
    (h : Begins opening.toList) (items : List String) :
    Begins (l.enclose level opening closing items).toList := by
  unfold Layout.enclose
  split
  · rw [String.toList_append]
    exact h.append _
  · simp only [String.toList_append, List.append_assoc]
    exact h.append _

/-- Joined texts begin as the first one. -/
theorem begins_intercalate (sep : String) {t : String} (h : Begins t.toList) (ts : List String) :
    Begins (String.intercalate sep (t :: ts)).toList := by
  cases ts with
  | nil => rwa [String.intercalate_singleton]
  | cons u ts =>
    rw [String.intercalate_cons_cons, String.toList_append, String.toList_append, List.append_assoc]
    exact h.append _

theorem toList_enclose_cons (l : Layout) (level : Nat) (opening closing t : String)
    (ts : List String) :
    (l.enclose level opening closing (t :: ts)).toList
      = opening.toList ++ ((l.lead (level + 1)).toList
          ++ ((String.intercalate (l.comma (level + 1)) (t :: ts)).toList
            ++ ((l.lead level).toList ++ closing.toList))) := by
  simp [Layout.enclose]

theorem begins_jsonAt {room : Nat} {l : Layout} {level : Nat} {v : Value} {s : String}
    (h : v.jsonAt room l level = .ok s) (hv : v.IsPlain) : Begins s.toList := by
  cases v with
  | null =>
    obtain rfl := Except.ok.inj h
    exact ⟨'n', _, rfl, by decide⟩
  | bool b =>
    obtain rfl := Except.ok.inj h
    cases b
    · exact ⟨'f', _, rfl, by decide⟩
    · exact ⟨'t', _, rfl, by decide⟩
  | int i =>
    obtain ⟨-, rfl⟩ := eq_of_whole h
    exact begins_toString i
  | text t =>
    obtain rfl := Except.ok.inj h
    exact begins_text t
  | list items =>
    obtain ⟨-, h⟩ := ite_tooDeep_eq_ok_iff.1 h
    obtain ⟨ts, -, rfl⟩ := map_eq_ok_iff.1 h
    exact begins_enclose l level ⟨'[', [], rfl, by decide⟩ ts
  | map entries =>
    obtain ⟨-, h⟩ := ite_tooDeep_eq_ok_iff.1 h
    obtain ⟨ts, -, rfl⟩ := map_eq_ok_iff.1 h
    exact begins_enclose l level ⟨'\x7b', [], rfl, by decide⟩ ts
  | _ => simp [Value.IsPlain, Value.every, Value.isJsonKind] at hv

theorem eq_text_of_key {k : Key} {name : String} (hk : k.text?.isSome = true)
    (h : key k = .ok name) : k = .text name := by
  cases k with
  | text s => exact congrArg Key.text (Except.ok.inj h)
  | _ => exact nomatch hk

/-- The texts of the items of a list. -/
theorem forall₂_of_jsonItems {R : Value → String → Prop} {room : Nat} {l : Layout} {level : Nat}
    {items : List Value} {ts : List String} (h : Value.jsonItems room l level items = .ok ts)
    (hR : ∀ v ∈ items, ∀ s, v.jsonAt room l level = .ok s → R v s) : List.Forall₂ R items ts := by
  induction items generalizing ts with
  | nil =>
    obtain rfl := Except.ok.inj h
    exact .nil
  | cons v rest ih =>
    rw [Value.jsonItems] at h
    obtain ⟨s, hs, h⟩ := bind_eq_ok_iff.1 h
    obtain ⟨others, hothers, h⟩ := bind_eq_ok_iff.1 h
    obtain rfl := Except.ok.inj h
    exact .cons (hR v List.mem_cons_self s hs)
      (ih hothers fun w hw => hR w (List.mem_cons_of_mem _ hw))

/-- The texts of the entries of a map. -/
theorem forall₂_of_jsonEntries {R : Key × Value → String → Prop} {room : Nat} {l : Layout}
    {level : Nat} {entries : List (Key × Value)} {ts : List String}
    (h : Value.jsonEntries room l level entries = .ok ts)
    (hR : ∀ e ∈ entries, ∀ name s, key e.1 = .ok name → e.2.jsonAt room l level = .ok s →
      R e (text name ++ l.colon ++ s)) : List.Forall₂ R entries ts := by
  induction entries generalizing ts with
  | nil =>
    obtain rfl := Except.ok.inj h
    exact .nil
  | cons e rest ih =>
    obtain ⟨k, v⟩ := e
    rw [Value.jsonEntries] at h
    obtain ⟨name, hname, h⟩ := bind_eq_ok_iff.1 h
    obtain ⟨s, hs, h⟩ := bind_eq_ok_iff.1 h
    obtain ⟨others, hothers, h⟩ := bind_eq_ok_iff.1 h
    obtain rfl := Except.ok.inj h
    exact .cons (hR (k, v) List.mem_cons_self name s hname hs)
      (ih hothers fun e he => hR e (List.mem_cons_of_mem _ he))

/-! ## 4. What a reading gives -/

/-- The answer is the value with the rest of the text under the condition, and a failure else. -/
def Gives (can : Prop) (answer : Except Failure (Value × List Char)) (v : Value)
    (rest : List Char) : Prop :=
  (can → answer = .ok (v, rest)) ∧ (¬can → answer.isOk = false)

variable {can can' : Prop} {answer : Except Failure (Value × List Char)} {v w : Value}
  {rest rest' : List Char} {level : Nat}

theorem Gives.of_ok (hcan : can) (h : answer = .ok (v, rest)) : Gives can answer v rest :=
  ⟨fun _ => h, fun hnot => absurd hcan hnot⟩

theorem Gives.congr (h : Gives can answer v rest) (hcan : can' ↔ can) :
    Gives can' answer v rest := by
  rwa [propext hcan]

/-- Two steps, each with its condition. -/
theorem Gives.bind {next : Value × List Char → Except Failure (Value × List Char)}
    (h : Gives can answer v rest) (hnext : Gives can' (next (v, rest)) w rest') :
    Gives (can ∧ can') (answer >>= next) w rest' := by
  constructor
  · rintro ⟨hcan, hcan'⟩
    rw [h.1 hcan]
    exact hnext.1 hcan'
  · intro hnot
    by_cases hcan : can
    · rw [h.1 hcan]
      exact hnext.2 fun hcan' => hnot ⟨hcan, hcan'⟩
    · have hfails := h.2 hcan
      cases answer with
      | ok a => exact nomatch hfails
      | error f => rfl

/-- Two steps of which the second gives a result. -/
theorem Gives.bind_ok {next : Value × List Char → Except Failure (Value × List Char)}
    (h : Gives can answer v rest) (hnext : next (v, rest) = .ok (w, rest')) :
    Gives can (answer >>= next) w rest' :=
  (h.bind (.of_ok trivial hnext)).congr (iff_of_eq (and_true can)).symm

/-- A collection that is read under the condition that it may still be opened. -/
theorem gives_of_depth {depth : Nat} (hzero : v.fits 0 = false)
    (hsucc : ∀ n, depth = n + 1 → Gives (v.fits (n + 1) = true) answer v rest)
    (hfails : depth = 0 → answer.isOk = false) : Gives (v.fits depth = true) answer v rest := by
  cases depth with
  | zero => exact ⟨fun h => absurd (hzero.symm.trans h) Bool.false_ne_true, fun _ => hfails rfl⟩
  | succ n => exact hsucc n rfl

variable [Nesting]

/-- On a level the text is read as the value, whatever follows. -/
def ReadsBack (level : Nat) (v : Value) (s : String) : Prop :=
  ∀ fuel rest, Closed rest → 2 * (s.toList ++ rest).length < fuel →
    Gives (v.fits (Nesting.read - level) = true) (readValue fuel level (s.toList ++ rest)) v rest

/-- A value that is read in one step. -/
theorem readsBack_of_step {s : String}
    (h : ∀ fuel rest, Closed rest →
      Gives (v.fits (Nesting.read - level) = true)
        (readValue (fuel + 1) level (s.toList ++ rest)) v rest) :
    ReadsBack level v s := by
  intro fuel rest hrest hfuel
  obtain ⟨n, rfl⟩ := Nat.exists_eq_succ_of_ne_zero (Nat.ne_of_gt (Nat.zero_lt_of_lt hfuel))
  exact h n rest hrest

theorem readValue_eq_readAtom {cs : List Char} (fuel level : Nat)
    (h : ∀ c ∈ cs.head?, c ≠ '"' ∧ c ≠ '[' ∧ c ≠ '\x7b') :
    readValue (fuel + 1) level cs = readAtom cs := by
  rw [readValue]
  · rintro r rfl
    exact (h _ rfl).1 rfl
  · rintro r rfl
    exact (h _ rfl).2.1 rfl
  · rintro r rfl
    exact (h _ rfl).2.2 rfl

theorem readsBack_null : ReadsBack level .null "null" :=
  readsBack_of_step fun fuel rest _ => by
    refine .of_ok (by simp [Value.fits]) ?_
    rw [readValue_eq_readAtom fuel level (by simp)]
    rfl

theorem readsBack_bool (b : Bool) : ReadsBack level (.bool b) (if b then "true" else "false") :=
  readsBack_of_step fun fuel rest _ => by
    refine .of_ok (by simp [Value.fits]) ?_
    cases b
    · rw [readValue_eq_readAtom fuel level (by simp)]
      rfl
    · rw [readValue_eq_readAtom fuel level (by simp)]
      rfl

theorem readsBack_text (s : String) : ReadsBack level (.text s) (text s) :=
  readsBack_of_step fun fuel rest _ => by
    refine .of_ok (by simp [Value.fits]) ?_
    obtain ⟨r, hr, hread⟩ := readText_text s rest
    rw [hr, readValue, hread]
    exact congrArg (fun k : Key => Except.ok (k.value, rest)) (Spelled.key_text s)

theorem readsBack_int {i : Int} (h : IsShort i) : ReadsBack level (.int i) (toString i) :=
  readsBack_of_step fun fuel rest hrest => by
    have hne : (toString i).toList ≠ [] := by
      obtain ⟨c, r, hcons, -⟩ := begins_toString i
      rw [hcons]
      exact List.cons_ne_nil c r
    have hatom : readValue (fuel + 1) level ((toString i).toList ++ rest)
        = readAtom ((toString i).toList ++ rest) :=
      readValue_eq_readAtom fuel level (by
        rw [List.head?_append_of_ne_nil _ hne]
        exact head?_toString i)
    refine .of_ok (by simp [Value.fits]) ?_
    rw [hatom, readAtom_int i hrest, if_pos h]

/-! ## 5. Lists -/

/-- An item is read, and what stands behind it says whether the list goes on. -/
theorem readItems_item (fuel level : Nat) (done : List Value) (cs : List Char) :
    readItems (fuel + 1) level done cs
      = readValue fuel level cs >>= fun x =>
          match skipSpace x.2 with
          | ']' :: r => return (.list (x.1 :: done).reverse, r)
          | ',' :: r => readItems fuel level (x.1 :: done) (skipSpace r)
          | r => .error ⟨.expectedComma, r.length⟩ := rfl

/-- **Items are read back** one after the other, up to the closing bracket. -/
theorem readItems_gives {items : List Value} {ts : List String} {sep : String}
    {sepBlanks : List Char} (hsep : sep.toList = ',' :: sepBlanks) (hsepBlanks : Blanks sepBlanks)
    {blanks : List Char} (hblanks : Blanks blanks)
    (h : List.Forall₂ (fun v s => Begins s.toList ∧ ReadsBack level v s) items ts)
    (hne : items ≠ []) (done : List Value) (rest : List Char) (fuel : Nat)
    (hfuel : 2 * ((String.intercalate sep ts).toList ++ (blanks ++ ']' :: rest)).length + 1
      < fuel) :
    Gives (∀ v ∈ items, v.fits (Nesting.read - level) = true)
      (readItems fuel level done ((String.intercalate sep ts).toList ++ (blanks ++ ']' :: rest)))
      (.list (done.reverse ++ items)) rest := by
  induction h generalizing done fuel with
  | nil => exact absurd rfl hne
  | @cons v s items ts hv htail ih =>
    obtain ⟨fuel, rfl⟩ := Nat.exists_eq_succ_of_ne_zero (Nat.ne_of_gt (Nat.zero_lt_of_lt hfuel))
    cases htail with
    | nil =>
      rw [String.intercalate_singleton] at hfuel ⊢
      rw [readItems_item]
      refine Gives.congr ?_ List.forall_mem_singleton
      refine (hv.2 fuel _ (hblanks.closed (by decide) rest) (by omega)).bind_ok ?_
      simp only [skipSpace_append hblanks (by decide : isSpace ']' = false)]
      rw [List.reverse_cons]
      rfl
    | @cons w t items ts hw htail =>
      have hbegins :
          Begins ((String.intercalate sep (t :: ts)).toList ++ (blanks ++ ']' :: rest)) :=
        (begins_intercalate sep hw.1 ts).append _
      rw [String.intercalate_cons_cons, String.toList_append, String.toList_append, hsep,
        List.append_assoc, List.append_assoc, List.cons_append] at hfuel ⊢
      rw [readItems_item]
      have hshorter : 2 * ((String.intercalate sep (t :: ts)).toList
          ++ (blanks ++ ']' :: rest)).length + 1 < fuel := by
        simp only [List.length_append, List.length_cons] at hfuel ⊢
        omega
      refine Gives.congr ((hv.2 fuel _ (closed_cons (by decide)) (by omega)).bind ?_)
        List.forall_mem_cons
      simp only [skipSpace_cons (by decide : isSpace ',' = false),
        hbegins.skipSpace_append hsepBlanks]
      have hrest := ih (List.cons_ne_nil w items) (v :: done) fuel hshorter
      rwa [List.reverse_cons, List.append_assoc] at hrest

/-- **A list is read back** if its items are, one level deeper. -/
theorem readsBack_list {l : Layout} {items : List Value} {ts : List String}
    (h : List.Forall₂ (fun v s => Begins s.toList ∧ ReadsBack (level + 1) v s) items ts) :
    ReadsBack level (.list items) (l.enclose level "[" "]" ts) := by
  intro fuel rest hrest hfuel
  obtain ⟨fuel, rfl⟩ := Nat.exists_eq_succ_of_ne_zero (Nat.ne_of_gt (Nat.zero_lt_of_lt hfuel))
  cases h with
  | nil =>
    have htext : (l.enclose level "[" "]" []).toList ++ rest = '[' :: ']' :: rest := by
      simp [Layout.enclose]
    rw [htext, readValue]
    refine gives_of_depth rfl (fun n hn => ?_) fun hzero => ?_
    · rw [if_neg (by omega), skipSpace_cons (by decide)]
      exact .of_ok (Value.fits_list.2 (by simp)) rfl
    · rw [if_pos (by omega)]
      rfl
  | @cons v s items ts hv htail =>
    obtain ⟨sepBlanks, hsepBlanks, hsep⟩ := toList_comma l (level + 1)
    have hbegins := begins_intercalate (l.comma (level + 1)) hv.1 ts
    have htext : (l.enclose level "[" "]" (s :: ts)).toList ++ rest
        = '[' :: ((l.lead (level + 1)).toList
            ++ ((String.intercalate (l.comma (level + 1)) (s :: ts)).toList
              ++ ((l.lead level).toList ++ ']' :: rest))) := by
      simp [toList_enclose_cons]
    rw [htext] at hfuel ⊢
    rw [readValue, (hbegins.append _).skipSpace_append (blanks_lead l (level + 1))]
    refine gives_of_depth rfl (fun n hn => ?_) fun hzero => ?_
    · rw [if_neg (by omega)]
      split
      · next heq => exact absurd heq (hbegins.append _).ne_bracket
      · have hitems := readItems_gives hsep hsepBlanks (blanks_lead l level) (.cons hv htail)
          (List.cons_ne_nil v items) [] rest fuel (by
            simp only [List.length_cons, List.length_append] at hfuel ⊢
            omega)
        rw [show Nesting.read - (level + 1) = n by omega] at hitems
        exact hitems.congr Value.fits_list
    · rw [if_pos (by omega)]
      rfl

/-! ## 6. Maps -/

/-- What stands behind an entry says whether the map goes on. -/
def behindEntry (fuel level : Nat) (entries : List (Key × Value)) (cs : List Char) :
    Except Failure (Value × List Char) :=
  match skipSpace cs with
  | '\x7d' :: r => return (.map entries, r)
  | ',' :: r => readEntries fuel level entries (skipSpace r)
  | r => .error ⟨.expectedComma, r.length⟩

/-- The key of a new entry and the colon are read, and the value stands next. -/
theorem readEntries_entry {done : List (Key × Value)} {name : String}
    (hnew : ∀ w, putEntry (.text name) w done = done ++ [(.text name, w)]) (l : Layout)
    (fuel level : Nat) {s : String} (hbegins : Begins s.toList) (more : List Char) :
    readEntries (fuel + 1) level done ((text name ++ l.colon ++ s).toList ++ more)
      = readValue fuel level (s.toList ++ more) >>= fun x =>
          behindEntry fuel level (done ++ [(.text name, x.1)]) x.2 := by
  obtain ⟨blanks, hblanks, hcolon⟩ := toList_colon l
  obtain ⟨r, hr, hread⟩ := readText_text name (':' :: (blanks ++ (s.toList ++ more)))
  have hskip := (hbegins.append more).skipSpace_append hblanks
  rw [String.toList_append, String.toList_append, hcolon, List.append_assoc, List.append_assoc,
    List.cons_append, hr, readEntries, hread]
  simp only [bind, Except.bind, skipSpace_cons (by decide : isSpace ':' = false), hskip,
    Spelled.key_text, hnew]
  rfl

/-- An entry, written as `t`, is read back: its key, and its value on the level. -/
def EntryReadsBack (l : Layout) (level : Nat) (e : Key × Value) (t : String) : Prop :=
  ∃ name s, e.1 = .text name ∧ t = text name ++ l.colon ++ s ∧ Begins s.toList ∧
    ReadsBack level e.2 s

theorem EntryReadsBack.begins {l : Layout} {e : Key × Value} {t : String}
    (h : EntryReadsBack l level e t) : Begins t.toList := by
  obtain ⟨name, s, -, rfl, -⟩ := h
  rw [String.toList_append, String.toList_append, List.append_assoc]
  exact (begins_text name).append _

/-- **Entries are read back** one after the other, up to the closing brace. -/
theorem readEntries_gives {l : Layout} {entries : List (Key × Value)} {ts : List String}
    {sep : String} {sepBlanks : List Char} (hsep : sep.toList = ',' :: sepBlanks)
    (hsepBlanks : Blanks sepBlanks) {blanks : List Char} (hblanks : Blanks blanks)
    (h : List.Forall₂ (EntryReadsBack l level) entries ts) (hne : entries ≠ [])
    (done : List (Key × Value)) (hkeys : Value.HasPlainKeys (done ++ entries)) (rest : List Char)
    (fuel : Nat)
    (hfuel : 2 * ((String.intercalate sep ts).toList ++ (blanks ++ '\x7d' :: rest)).length + 1
      < fuel) :
    Gives (∀ e ∈ entries, e.2.fits (Nesting.read - level) = true)
      (readEntries fuel level done
        ((String.intercalate sep ts).toList ++ (blanks ++ '\x7d' :: rest)))
      (.map (done ++ entries)) rest := by
  induction h generalizing done fuel with
  | nil => exact absurd rfl hne
  | @cons e t entries ts he htail ih =>
    obtain ⟨fuel, rfl⟩ := Nat.exists_eq_succ_of_ne_zero (Nat.ne_of_gt (Nat.zero_lt_of_lt hfuel))
    obtain ⟨k, v⟩ := e
    obtain ⟨name, s, rfl, rfl, hbegins, hback⟩ := he
    have hstep := readEntries_entry (HasPlainKeys.putEntry hkeys) l fuel level hbegins
    have hshorter (more : List Char)
        (h : 2 * ((text name ++ l.colon ++ s).toList ++ more).length + 1 < fuel + 1) :
        2 * (s.toList ++ more).length < fuel := by
      simp only [String.toList_append, List.length_append] at h ⊢
      omega
    cases htail with
    | nil =>
      rw [String.intercalate_singleton] at hfuel ⊢
      rw [hstep]
      refine Gives.congr ?_ List.forall_mem_singleton
      refine (hback fuel _ (hblanks.closed (by decide) rest) (hshorter _ hfuel)).bind_ok ?_
      rw [behindEntry, skipSpace_append hblanks (by decide : isSpace '\x7d' = false)]
      rfl
    | @cons e' t' entries ts he' htail =>
      have hrest :
          Begins ((String.intercalate sep (t' :: ts)).toList ++ (blanks ++ '\x7d' :: rest)) :=
        (begins_intercalate sep he'.begins ts).append _
      have hsplit (t : String) : (t ++ sep ++ String.intercalate sep (t' :: ts)).toList
          ++ (blanks ++ '\x7d' :: rest) = t.toList ++ ',' :: (sepBlanks
            ++ ((String.intercalate sep (t' :: ts)).toList ++ (blanks ++ '\x7d' :: rest))) := by
        simp [hsep]
      rw [String.intercalate_cons_cons, hsplit] at hfuel ⊢
      rw [hstep]
      have hless : 2 * ((String.intercalate sep (t' :: ts)).toList
          ++ (blanks ++ '\x7d' :: rest)).length + 1 < fuel := by
        simp only [List.length_append, List.length_cons] at hfuel ⊢
        omega
      refine Gives.congr ((hback fuel _ (closed_cons (by decide)) (hshorter _ hfuel)).bind ?_)
        List.forall_mem_cons
      rw [behindEntry, skipSpace_cons (by decide : isSpace ',' = false)]
      simp only [hrest.skipSpace_append hsepBlanks]
      have hback' := ih (List.cons_ne_nil e' entries) (done ++ [(.text name, v)])
        (by rwa [List.append_assoc]) fuel hless
      rwa [List.append_assoc] at hback'

/-- **A map is read back** if its entries are, one level deeper. -/
theorem readsBack_map {l : Layout} {entries : List (Key × Value)} {ts : List String}
    (hkeys : Value.HasPlainKeys entries)
    (h : List.Forall₂ (EntryReadsBack l (level + 1)) entries ts) :
    ReadsBack level (.map entries) (l.enclose level "\x7b" "\x7d" ts) := by
  intro fuel rest hrest hfuel
  obtain ⟨fuel, rfl⟩ := Nat.exists_eq_succ_of_ne_zero (Nat.ne_of_gt (Nat.zero_lt_of_lt hfuel))
  cases h with
  | nil =>
    have htext : (l.enclose level "\x7b" "\x7d" []).toList ++ rest = '\x7b' :: '\x7d' :: rest := by
      simp [Layout.enclose]
    rw [htext, readValue]
    refine gives_of_depth rfl (fun n hn => ?_) fun hzero => ?_
    · rw [if_neg (by omega), skipSpace_cons (by decide)]
      exact .of_ok (Value.fits_map.2 (by simp)) rfl
    · rw [if_pos (by omega)]
      rfl
  | @cons e t entries ts he htail =>
    obtain ⟨sepBlanks, hsepBlanks, hsep⟩ := toList_comma l (level + 1)
    have hbegins := begins_intercalate (l.comma (level + 1)) he.begins ts
    have htext : (l.enclose level "\x7b" "\x7d" (t :: ts)).toList ++ rest
        = '\x7b' :: ((l.lead (level + 1)).toList
            ++ ((String.intercalate (l.comma (level + 1)) (t :: ts)).toList
              ++ ((l.lead level).toList ++ '\x7d' :: rest))) := by
      simp [toList_enclose_cons]
    rw [htext] at hfuel ⊢
    rw [readValue, (hbegins.append _).skipSpace_append (blanks_lead l (level + 1))]
    refine gives_of_depth rfl (fun n hn => ?_) fun hzero => ?_
    · rw [if_neg (by omega)]
      split
      · next heq => exact absurd heq (hbegins.append _).ne_brace
      · have hentries := readEntries_gives hsep hsepBlanks (blanks_lead l level) (.cons he htail)
          (List.cons_ne_nil e entries) [] hkeys rest fuel (by
            simp only [List.length_cons, List.length_append] at hfuel ⊢
            omega)
        rw [show Nesting.read - (level + 1) = n by omega] at hentries
        exact hentries.congr Value.fits_map
    · rw [if_pos (by omega)]
      rfl

/-! ## 7. Values -/

/-- **A plain value is read back** on every level, in every layout and whatever follows.  The
induction is on the value; its items and entries are read back already. -/
theorem readsBack_jsonAt (room : Nat) (l : Layout) (v : Value) (level : Nat) (s : String)
    (hv : v.IsPlain) : v.jsonAt room l level = .ok s → ReadsBack level v s := by
  match v with
  | .null => exact fun h => Except.ok.inj h ▸ readsBack_null
  | .bool b => exact fun h => Except.ok.inj h ▸ readsBack_bool b
  | .int i =>
    intro h
    obtain ⟨hshort, rfl⟩ := eq_of_whole h
    exact readsBack_int hshort
  | .text t => exact fun h => Except.ok.inj h ▸ readsBack_text t
  | .list items =>
    intro h
    obtain ⟨-, h⟩ := ite_tooDeep_eq_ok_iff.1 h
    obtain ⟨ts, hts, rfl⟩ := map_eq_ok_iff.1 h
    refine readsBack_list (forall₂_of_jsonItems hts fun w hw t ht => ?_)
    have hplain := Value.isPlain_list.1 hv w hw
    exact ⟨begins_jsonAt ht hplain, readsBack_jsonAt room l w (level + 1) t hplain ht⟩
  | .map entries =>
    intro h
    obtain ⟨-, h⟩ := ite_tooDeep_eq_ok_iff.1 h
    obtain ⟨ts, hts, rfl⟩ := map_eq_ok_iff.1 h
    obtain ⟨hkeys, hentries⟩ := Value.isPlain_map.1 hv
    refine readsBack_map hkeys (forall₂_of_jsonEntries hts fun e he name t hname ht => ?_)
    have hplain := hentries e he
    exact ⟨name, t, eq_text_of_key (hkeys.1 e he) hname, rfl, begins_jsonAt ht hplain,
      readsBack_jsonAt room l e.2 (level + 1) t hplain ht⟩
  | .real _ | .halfText | .stamp _ | .bytes _ | .pair _ _ | .set _ | .endless =>
    simp [Value.IsPlain, Value.every, Value.isJsonKind] at hv
termination_by sizeOf v
decreasing_by
  · exact Value.sizeOf_item hw
  · exact Value.sizeOf_entry he

/-- **What is written for a plain value is read back**, in every layout, exactly if there is room
for its lists and maps. -/
theorem readChars_json {v : Value} (hv : v.IsPlain) {room : Nat} {l : Layout} {s : String}
    (h : v.json room l = .ok s) :
    (v.fits Nesting.read = true → readChars s.toList = .ok v) ∧
      (¬v.fits Nesting.read = true → (readChars s.toList).isOk = false) := by
  have hbegins : Begins s.toList := begins_jsonAt h hv
  have hskip : skipSpace s.toList = s.toList := hbegins.skipSpace_append blanks_nil
  have hback := readsBack_jsonAt room l v 0 s hv h (2 * s.toList.length + 2) [] closed_nil (by
    rw [List.append_nil]
    omega)
  rw [List.append_nil] at hback
  rw [readChars, if_neg hbegins.head?_ne_mark, hskip]
  constructor
  · intro hcan
    rw [hback.1 hcan]
    rfl
  · intro hnot
    have hfails := hback.2 hnot
    cases hread : readValue (2 * s.toList.length + 2) 0 s.toList with
    | ok a =>
      rw [hread] at hfails
      exact nomatch hfails
    | error f => rfl

end Json

end SchemaTypes
