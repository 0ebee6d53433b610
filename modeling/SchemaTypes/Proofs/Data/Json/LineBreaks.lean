/-
# Line breaks in JSON

Texts are escaped, so a line break in what the printer writes comes from the layout: there is no
carriage return, and no line feed either if the layout is one line (`calm_jsonAt`).  Over several
lines the layout leaves none of them blank (`solid_enclose`).
-/
import SchemaTypes.Proofs.Data.Json.RoundTrip
import SchemaTypes.Proofs.Number.Literal
import SchemaTypes.Proofs.Text.Spacing

namespace SchemaTypes.Json

/-! ## 1. Calm texts -/

/-- The layout puts values on lines of their own. -/
def Layout.HasBreaks : Layout → Prop
  | .indented _ => True
  | _ => False

/-- The text has no line breaks but the line feeds of the layout. -/
def Calm (l : Layout) (s : String) : Prop :=
  '\r' ∉ s.toList ∧ ('\n' ∈ s.toList → l.HasBreaks)

variable {l : Layout} {s : String} {ts : List String}

theorem calm_append {a b : String} : Calm l (a ++ b) ↔ Calm l a ∧ Calm l b := by
  simp only [Calm, String.toList_append, List.mem_append, not_or, or_imp]
  tauto

theorem calm_of_one_line (hreturn : '\r' ∉ s.toList) (hfeed : '\n' ∉ s.toList) : Calm l s :=
  ⟨hreturn, fun h => absurd h hfeed⟩

theorem Calm.newline_notMem (h : Calm l s) (hl : ¬l.HasBreaks) : '\n' ∉ s.toList :=
  fun hm => hl (h.2 hm)

theorem calm_intercalate {sep : String} (hsep : Calm l sep) (h : ∀ t ∈ ts, Calm l t) :
    Calm l (String.intercalate sep ts) := by
  induction ts with
  | nil => exact calm_of_one_line (by simp) (by simp)
  | cons t ts ih =>
    obtain ⟨ht, hts⟩ := List.forall_mem_cons.1 h
    cases ts with
    | nil => rwa [String.intercalate_singleton]
    | cons u ts =>
      rw [String.intercalate_cons_cons]
      exact calm_append.2 ⟨calm_append.2 ⟨ht, hsep⟩, ih hts⟩

/-! ## 2. Parts of values -/

theorem calm_of_isNumeral (h : IsNumeral s) : Calm l s :=
  calm_of_one_line (fun hm => absurd (h _ hm) (by decide)) fun hm => absurd (h _ hm) (by decide)

theorem break_notMem_escapeChar (c : Char) : '\r' ∉ escapeChar c ∧ '\n' ∉ escapeChar c := by
  unfold escapeChar
  iterate 7
    split
    · decide
  split
  · next h =>
    have hall : ∀ n < 32, '\r' ∉ ['\\', 'u', '0', '0', hexDigit (n / 16), hexDigit n]
        ∧ '\n' ∉ ['\\', 'u', '0', '0', hexDigit (n / 16), hexDigit n] := by
      decide +kernel
    exact hall _ h
  · simp_all [eq_comm]

theorem calm_text (s : String) : Calm l (text s) := by
  have hchars := break_notMem_escapeChar
  refine calm_of_one_line ?_ ?_ <;> simp [text, textChars, hchars]

theorem calm_real (d : Double) : Calm l (real d) := by
  cases d with
  | notANumber => exact calm_of_one_line (by decide) (by decide)
  | infinite negative => cases negative <;> exact calm_of_one_line (by decide) (by decide)
  | finite negative m q => exact calm_of_isNumeral (Double.isNumeral_text _)

theorem calm_lead (l : Layout) (level : Nat) : Calm l (l.lead level) := by
  cases l with
  | compact => exact calm_of_one_line (by simp [Layout.lead]) (by simp [Layout.lead])
  | spaced => exact calm_of_one_line (by simp [Layout.lead]) (by simp [Layout.lead])
  | indented w => exact ⟨by simp [Layout.lead, List.mem_replicate], fun _ => trivial⟩

theorem calm_comma (l : Layout) (level : Nat) : Calm l (l.comma level) := by
  cases l with
  | spaced => exact calm_of_one_line (by simp [Layout.comma]) (by simp [Layout.comma])
  | compact =>
    exact calm_append.2 ⟨calm_of_one_line (by decide) (by decide), calm_lead .compact level⟩
  | indented w => exact calm_append.2 ⟨calm_of_one_line (by decide) (by decide), calm_lead _ level⟩

theorem calm_colon (l : Layout) : Calm l l.colon := by
  cases l <;> exact calm_of_one_line (by simp [Layout.colon]) (by simp [Layout.colon])

theorem calm_enclose {level : Nat} {opening closing : String} (hopening : Calm l opening)
    (hclosing : Calm l closing) (h : ∀ t ∈ ts, Calm l t) :
    Calm l (l.enclose level opening closing ts) := by
  unfold Layout.enclose
  split
  · exact calm_append.2 ⟨hopening, hclosing⟩
  · simp only [calm_append]
    exact ⟨⟨⟨⟨hopening, calm_lead l _⟩, calm_intercalate (calm_comma l _) h⟩, calm_lead l _⟩,
      hclosing⟩

/-- A list in brackets. -/
theorem calm_brackets {level : Nat} (h : ∀ t ∈ ts, Calm l t) :
    Calm l (l.enclose level "[" "]" ts) :=
  calm_enclose (calm_of_one_line (by decide) (by decide))
    (calm_of_one_line (by decide) (by decide)) h

/-- A map in braces. -/
theorem calm_braces {level : Nat} (h : ∀ t ∈ ts, Calm l t) :
    Calm l (l.enclose level "\x7b" "\x7d" ts) :=
  calm_enclose (calm_of_one_line (by decide) (by decide))
    (calm_of_one_line (by decide) (by decide)) h

/-! ## 3. Values -/

theorem forall_of_forall₂ {α : Type} {P : String → Prop} {items : List α}
    (h : List.Forall₂ (fun _ => P) items ts) : ∀ t ∈ ts, P t := by
  induction h with
  | nil => simp
  | cons ht _ ih => exact List.forall_mem_cons.2 ⟨ht, ih⟩

/-- **What is written is calm**, whatever value it is. -/
theorem calm_jsonAt (room : Nat) (l : Layout) (v : Value) (level : Nat) (s : String) :
    v.jsonAt room l level = .ok s → Calm l s := by
  match v with
  | .null => exact fun h => Except.ok.inj h ▸ calm_of_one_line (by decide) (by decide)
  | .bool b =>
    intro h
    obtain rfl := Except.ok.inj h
    cases b <;> exact calm_of_one_line (by decide) (by decide)
  | .int i =>
    intro h
    obtain ⟨-, rfl⟩ := eq_of_whole h
    exact calm_of_isNumeral (isNumeral_toString i)
  | .real d => exact fun h => Except.ok.inj h ▸ calm_real d
  | .text t => exact fun h => Except.ok.inj h ▸ calm_text t
  | .list items =>
    intro h
    obtain ⟨-, h⟩ := ite_tooDeep_eq_ok_iff.1 h
    obtain ⟨ts, hts, rfl⟩ := map_eq_ok_iff.1 h
    exact calm_brackets (forall_of_forall₂ (forall₂_of_jsonItems hts fun w hw t ht =>
      calm_jsonAt room l w (level + 1) t ht))
  | .pair a b =>
    intro h
    obtain ⟨-, h⟩ := ite_tooDeep_eq_ok_iff.1 h
    obtain ⟨first, hfirst, h⟩ := bind_eq_ok_iff.1 h
    obtain ⟨second, hsecond, h⟩ := bind_eq_ok_iff.1 h
    obtain rfl := Except.ok.inj h
    refine calm_brackets (List.forall_mem_cons.2 ⟨?_, List.forall_mem_singleton.2 ?_⟩)
    · exact calm_jsonAt room l a (level + 1) first hfirst
    · exact calm_jsonAt room l b (level + 1) second hsecond
  | .map entries =>
    intro h
    obtain ⟨-, h⟩ := ite_tooDeep_eq_ok_iff.1 h
    obtain ⟨ts, hts, rfl⟩ := map_eq_ok_iff.1 h
    exact calm_braces (forall_of_forall₂ (forall₂_of_jsonEntries hts fun e he name s _ hs =>
      calm_append.2 ⟨calm_append.2 ⟨calm_text name, calm_colon l⟩,
        calm_jsonAt room l e.2 (level + 1) s hs⟩))
  | .halfText | .stamp _ | .bytes _ | .set _ | .endless => exact fun h => nomatch h
termination_by sizeOf v
decreasing_by
  · exact Value.sizeOf_item hw
  · simp only [Value.pair.sizeOf_spec]
    omega
  · simp only [Value.pair.sizeOf_spec]
    omega
  · exact Value.sizeOf_entry he

/-! ## 4. One line and several -/

open Text (Unbroken Solid unbroken_append)

theorem unbroken_text (s : String) : Unbroken (text s) :=
  (calm_text (l := .compact) s).newline_notMem id

/-- A value on one line. -/
theorem unbroken_json {v : Value} {room : Nat} (h : v.json room .compact = .ok s) : Unbroken s :=
  (calm_jsonAt room .compact v 0 s h).newline_notMem id

theorem unbroken_texts (xs : List String) : Unbroken (texts xs) := by
  refine (calm_brackets (l := .compact) fun t ht => ?_).newline_notMem id
  obtain ⟨x, -, rfl⟩ := List.mem_map.1 ht
  exact calm_text x

theorem solid_texts (xs : List String) : Solid (texts xs) := by
  refine (unbroken_texts xs).solid ?_
  unfold texts Layout.enclose
  split <;> simp

theorem unbroken_textMap (xs : List (String × String)) : Unbroken (textMap .compact xs) := by
  refine (calm_braces (l := .compact) fun t ht => ?_).newline_notMem id
  obtain ⟨x, -, rfl⟩ := List.mem_map.1 ht
  exact calm_append.2 ⟨calm_append.2 ⟨calm_text x.1, calm_colon _⟩, calm_text x.2⟩

/-- The spaces in front of an item. -/
def margin (width level : Nat) : String := String.ofList (List.replicate (width * level) ' ')

theorem unbroken_margin (width level : Nat) : Unbroken (margin width level) := by
  simp [margin, Unbroken, List.mem_replicate]

theorem lead_indented (width level : Nat) :
    (Layout.indented width).lead level = "\n" ++ margin width level := by
  rw [← String.toList_inj]
  simp [Layout.lead, margin]

theorem solid_items {m : String} (hm : Unbroken m) (hne : ts ≠ []) (h : ∀ t ∈ ts, Solid t) :
    Solid (String.intercalate ("," ++ ("\n" ++ m)) ts) := by
  induction ts with
  | nil => exact absurd rfl hne
  | cons t ts ih =>
    obtain ⟨ht, hts⟩ := List.forall_mem_cons.1 h
    cases ts with
    | nil => rwa [String.intercalate_singleton]
    | cons u ts =>
      have hbelow := (ht.append_unbroken (by decide : Unbroken ",")).below
        (hm.append_solid (ih (by simp) hts))
      rw [String.intercalate_cons_cons]
      simpa only [String.append_assoc] using hbelow

/-- **Items over several lines are solid** if each of them is. -/
theorem solid_enclose {width level : Nat} {opening closing : String} (hopening : Solid opening)
    (hclosing : Solid closing) (h : ∀ t ∈ ts, Solid t) :
    Solid ((Layout.indented width).enclose level opening closing ts) := by
  unfold Layout.enclose
  split
  · exact hopening.append hclosing
  · rename_i hne
    have hitems : Solid (String.intercalate ("," ++ ("\n" ++ margin width (level + 1))) ts) :=
      solid_items (unbroken_margin _ _) (by simpa using hne) h
    have hbelow := (hopening.below ((unbroken_margin width (level + 1)).append_solid hitems)).below
      ((unbroken_margin width level).append_solid hclosing)
    simpa only [Layout.comma, lead_indented, String.append_assoc] using hbelow

/-- A map over several lines. -/
theorem solid_braces {width level : Nat} (h : ∀ t ∈ ts, Solid t) :
    Solid ((Layout.indented width).enclose level "\x7b" "\x7d" ts) :=
  solid_enclose (Unbroken.solid (by decide) (by decide)) (Unbroken.solid (by decide) (by decide)) h

theorem solid_textMap (width : Nat) (xs : List (String × String)) :
    Solid (textMap (.indented width) xs) := by
  refine solid_braces fun t ht => ?_
  obtain ⟨x, -, rfl⟩ := List.mem_map.1 ht
  exact Unbroken.solid (by simp +decide [Layout.colon, unbroken_text]) (by simp [Layout.colon])

end SchemaTypes.Json
