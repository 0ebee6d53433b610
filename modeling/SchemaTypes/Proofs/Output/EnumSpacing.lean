/-
# Spacing of enumerations

The file of an enumeration has solid parts if the enumeration is on one line (`sound_enumModule`),
also without members or labels, and its further data may be any that can be written.  It ends with
one line break whatever the enumeration is (`endsOnce_enumModule`).  The same holds of aliases.
-/
import SchemaTypes.Output.Plan
import SchemaTypes.Proofs.Data.Json.LineBreaks
import SchemaTypes.Proofs.TypeScript.Spacing
import SchemaTypes.Proofs.TypeScript.Unbroken

namespace SchemaTypes.Output

open Text TypeScript

variable {name : String}

/-! ## 1. Headers and functions -/

theorem solid_generatedHeader {subject : String} (h : Unbroken subject) :
    Solid (generatedHeader subject) := by
  refine solid_docComment (by decide) ?_ _
  exact List.forall_mem_cons.2 ⟨unbroken_chars (by decide),
    List.forall_mem_cons.2 ⟨unbroken_chars (by decide),
    List.forall_mem_cons.2 ⟨unbroken_chars (by decide), List.forall_mem_cons.2 ⟨by decide,
    List.forall_mem_cons.2 ⟨h, List.forall_mem_cons.2 ⟨unbroken_chars (by decide),
    List.forall_mem_cons.2 ⟨by decide,
    List.forall_mem_singleton.2 (unbroken_chars (by decide))⟩⟩⟩⟩⟩⟩⟩

theorem solid_defaultHeader : Solid (generatedHeader defaultSubject) :=
  solid_generatedHeader (unbroken_chars (by decide))

theorem solid_modelHeader (h : Unbroken name) (zod : Bool) : Solid (modelHeader name zod) := by
  have hparts : Unbroken (if zod then "types/schemas" else "types") := by split <;> decide
  refine solid_docComment (by decide) ?_ _
  exact List.forall_mem_cons.2 ⟨unbroken_append.2 ⟨h, by decide⟩,
    List.forall_mem_cons.2 ⟨by decide, List.forall_mem_cons.2 ⟨unbroken_chars (by decide),
    List.forall_mem_cons.2
      ⟨unbroken_between (unbroken_chars (by decide)) hparts (by decide),
    List.forall_mem_singleton.2 (unbroken_chars (by decide))⟩⟩⟩⟩

/-- A function under a comment. -/
theorem solid_function {params result doc line : String} {body : List String}
    (hname : Unbroken name) (hparams : Unbroken params) (hresult : Unbroken result)
    (hbody : ∀ l ∈ line :: body, IsLine l) (hdoc : Unbroken doc) :
    Solid (Block.described (.function name params result (line :: body)) doc).text := by
  have hbetween : Unbroken ("(" ++ params ++ ")") :=
    unbroken_between (by decide) hparams (by decide)
  exact solid_described (.function hname (hbetween.solid (by simp)) hresult
    (solidBody_of_lines (by simp) (solid_of_lines hbody))) hdoc

/-- A constant whose value is on its line. -/
theorem sound_constOnLine {value : String} {exported : Bool} (hname : Unbroken name)
    (hvalue : Unbroken value) (hne : value ≠ "") :
    (Statement.const exported name none value).Sound :=
  .const hname (by simp) (hvalue.solid hne)

/-- A table with a type, in braces. -/
theorem solid_typedTable {type : String} {lines : List String} (hname : Unbroken name)
    (htype : Unbroken type) (hlines : ∀ l ∈ lines, Solid l) (exported blockDoc : Bool) :
    Solid
      (Block.declare (.const exported name (some type) (bracedLines lines)) none blockDoc).text :=
  solid_declare (.const hname (forall_mem_some.2 htype) (solid_bracedLines hlines)) (by simp) _

/-- A file ends with one line break if its last block is a function. -/
theorem endsOnce_of_function {f : SourceFile} {front : List Block} {params result doc : String}
    {body : List String}
    (h : f.blocks = front ++ [.described (.function name params result body) doc]) :
    EndsOnce f.text :=
  SourceFile.endsOnce_text h (firm_declare (by simp) _ _)

/-! ## 2. Enumerations -/

theorem solid_plainLabelFunction (h : Unbroken name) : Solid (plainLabelFunction name).text :=
  solid_function (by simp +decide [h]) (by simp +decide [h]) (by decide) (by decide)
    (by simp +decide [h])

theorem solid_typeGuard (h : Unbroken name) : Solid (typeGuard name).text :=
  solid_function (by simp +decide [h]) (by decide) (by simp +decide [h]) (by simp +decide [h])
    (by simp +decide [h])

theorem solid_extraFunction {param doc line : String} {body : List String} (h : Unbroken name)
    (hparam : Unbroken param) (hdoc : Unbroken doc)
    (hbody : ∀ l ∈ line :: body, IsLine l) :
    Solid (extraFunction name param doc (line :: body)).text :=
  solid_function (by simp +decide [h]) (by simp +decide [h, hparam]) (by decide) hbody hdoc

theorem unbroken_memberKey (h : Unbroken name) {m : EnumMember} (hm : m.IsUnbroken) :
    Unbroken (memberKey name m) := by
  simp +decide only [memberKey, unbroken_append, h, hm.name, and_self]

theorem solid_labelLines {e : Enumeration} {line : EnumMember → Label → String}
    (h : ∀ m ∈ e.members, ∀ l ∈ m.label, IsLine (line m l)) :
    ∀ t ∈ labelLines line e, Solid t := by
  refine solid_of_lines fun t ht => ?_
  obtain ⟨m, hm, ht⟩ := List.mem_filterMap.1 ht
  obtain ⟨l, hl, rfl⟩ := Option.map_eq_some_iff.1 ht
  exact h m hm l hl

theorem isLine_localeLabelLine (h : Unbroken name) {m : EnumMember} (hm : m.IsUnbroken) {l : Label}
    (hl : l.IsUnbroken) : IsLine (localeLabelLine name m l) := by
  have hkey := unbroken_memberKey h hm
  cases l with
  | plain t =>
    have ht : Unbroken (quote t) := unbroken_quote hl
    simp +decide [localeLabelLine, hkey, ht]
  | byLocale texts =>
    have htexts : Unbroken (String.intercalate ", "
        (texts.map fun t => "'" ++ escapeString t.1 ++ "': " ++ quote t.2)) := by
      refine unbroken_intercalate (by decide) fun u hu => ?_
      obtain ⟨t, ht, rfl⟩ := List.mem_map.1 hu
      obtain ⟨hlocale, htext⟩ := hl t ht
      simp +decide [unbroken_escapeString hlocale, unbroken_quote htext]
    simp +decide [localeLabelLine, hkey, htexts]

theorem isLine_plainLabelLine (h : Unbroken name) {m : EnumMember} (hm : m.IsUnbroken) {l : Label}
    (hl : l.IsUnbroken) : IsLine (plainLabelLine name m l) := by
  have hkey := unbroken_memberKey h hm
  cases l with
  | plain t =>
    have ht : Unbroken (quote t) := unbroken_quote hl
    simp +decide [plainLabelLine, hkey, ht]
  | byLocale texts => simp +decide [plainLabelLine, hkey]

theorem unbroken_labelChain {fallback : String} (h : Unbroken fallback) :
    ∀ l ∈ labelChain fallback, Unbroken l := by
  intro l hl
  rw [labelChain, List.mem_eraseDups] at hl
  rcases List.mem_cons.1 hl with rfl | hl
  · exact h
  · rw [List.mem_singleton.1 hl]
    decide

variable {e : Enumeration} {fallback : String}

theorem solid_localeLabelBlocks (he : e.IsUnbroken) (hfallback : Unbroken fallback) :
    ∀ b ∈ localeLabelBlocks e fallback, Solid b.text := by
  have hname := he.name
  have hlower := Naming.unbroken_lowerFirst hname
  have hchain := unbroken_labelChain hfallback
  have hshown : Unbroken (String.intercalate " → " (labelChain fallback)) :=
    unbroken_intercalate (by decide) hchain
  have hlookups : Unbroken (String.intercalate " ?? "
      ((labelChain fallback).map fun l => "labels[" ++ quote l ++ "]")) := by
    refine unbroken_intercalate (by decide) fun t ht => ?_
    obtain ⟨l, hl, rfl⟩ := List.mem_map.1 ht
    exact unbroken_between (by decide) (unbroken_quote (hchain l hl)) (by decide)
  refine List.forall_mem_cons.2 ⟨?_, List.forall_mem_singleton.2 ?_⟩
  · refine solid_typedTable (by simp +decide [hlower]) (by simp +decide [hname])
      (solid_labelLines fun m hm l hl => ?_) _ _
    exact isLine_localeLabelLine hname (he.members m hm) ((he.members m hm).label l hl)
  · exact solid_function (by simp +decide [hname]) (by simp +decide [hname]) (by decide)
      (by simp +decide [hlower, hshown, hlookups]) (by simp +decide [hname])

theorem solid_plainLabelBlocks (he : e.IsUnbroken) :
    ∀ b ∈ plainLabelBlocks e, Solid b.text := by
  have hname := he.name
  have hlower := Naming.unbroken_lowerFirst hname
  refine List.forall_mem_cons.2 ⟨?_, List.forall_mem_singleton.2 ?_⟩
  · refine solid_typedTable (by simp +decide [hlower]) (by simp +decide [hname])
      (solid_labelLines fun m hm l hl => ?_) _ _
    exact isLine_plainLabelLine hname (he.members m hm) ((he.members m hm).label l hl)
  · exact solid_function (by simp +decide [hname]) (by simp +decide [hname]) (by decide)
      (by simp +decide [hlower]) (by simp +decide [hname])

theorem solid_labelBlocks (he : e.IsUnbroken) (hfallback : Unbroken fallback) :
    ∀ b ∈ labelBlocks e fallback, Solid b.text := by
  unfold labelBlocks
  split
  · exact List.forall_mem_singleton.2 (solid_plainLabelFunction he.name)
  split
  · exact solid_localeLabelBlocks he hfallback
  · exact solid_plainLabelBlocks he

theorem solid_extraLine {room : Nat} (h : Unbroken name) {m : EnumMember} (hm : m.IsUnbroken)
    {extra : List (String × Value)} {line : String}
    (hline : extraLine room name m extra = .ok line) : Solid line := by
  unfold extraLine at hline
  split at hline
  · rename_i t ht
    have htext := Json.unbroken_json ht
    obtain rfl := Except.ok.inj hline
    exact Unbroken.solid (by simp +decide [unbroken_memberKey h hm, htext]) (by simp)
  · exact nomatch hline

theorem solid_extraLines {room : Nat} (h : Unbroken name) {members : List EnumMember}
    (hmembers : ∀ m ∈ members, m.IsUnbroken) {lines : List String}
    (hlines : extraLines room name members = .ok lines) : ∀ l ∈ lines, Solid l := by
  induction members generalizing lines with
  | nil => exact Except.ok.inj hlines ▸ fun _ hl => nomatch hl
  | cons m rest ih =>
    obtain ⟨hm, hrest⟩ := List.forall_mem_cons.1 hmembers
    rw [extraLines] at hlines
    split at hlines
    · exact ih hrest hlines
    · obtain ⟨line, hline, hlines⟩ := bind_eq_ok_iff.1 hlines
      obtain ⟨others, hothers, hlines⟩ := bind_eq_ok_iff.1 hlines
      obtain rfl := Except.ok.inj hlines
      exact List.forall_mem_cons.2 ⟨solid_extraLine h hm hline, ih hrest hothers⟩

theorem solid_extraBlocks {room : Nat} (he : e.IsUnbroken) {extra : List Block}
    (h : extraBlocks room e = .ok extra) : ∀ b ∈ extra, Solid b.text := by
  have hname := he.name
  have hlower := Naming.unbroken_lowerFirst hname
  have hdoc : Unbroken
      ("Get extra metadata for " ++ e.name ++ " value (undefined if not defined)") := by
    simp +decide [hname]
  simp only [extraBlocks] at h
  split at h
  · obtain rfl := Except.ok.inj h
    exact List.forall_mem_singleton.2 (solid_extraFunction hname (by decide) hdoc (by decide))
  · obtain ⟨lines, hlines, h⟩ := bind_eq_ok_iff.1 h
    obtain rfl := Except.ok.inj h
    refine List.forall_mem_cons.2 ⟨?_, List.forall_mem_singleton.2 ?_⟩
    · exact solid_typedTable (by simp +decide [hlower]) (by simp +decide [hname])
        (solid_extraLines hname he.members hlines) _ _
    · exact solid_extraFunction hname (by decide) hdoc (by simp +decide [hlower])

/-- **The file of an enumeration has solid parts.** -/
theorem sound_enumModule {room : Nat} (he : e.IsUnbroken) (hfallback : Unbroken fallback)
    {source : SourceFile} (h : enumModule room e fallback = .ok source) : source.Sound := by
  have hname := he.name
  obtain ⟨extra, hextra, h⟩ := bind_eq_ok_iff.1 h
  obtain rfl := Except.ok.inj h
  have hmembers : ∀ t ∈ e.members.map fun m => "  " ++ m.name ++ " = " ++ quote m.value ++ ",",
      Solid t := by
    intro t ht
    obtain ⟨m, hm, rfl⟩ := List.mem_map.1 ht
    have hmember := he.members m hm
    exact Unbroken.solid (by simp +decide [hmember.name, unbroken_quote hmember.value]) (by simp)
  refine ⟨forall_mem_some.2 solid_defaultHeader, List.forall_mem_nil _, ?_⟩
  refine List.forall_mem_append.2 ⟨List.forall_mem_append.2 ⟨?_, ?_⟩, ?_⟩
  · refine List.forall_mem_cons.2 ⟨?_, List.forall_mem_cons.2 ⟨?_, List.forall_mem_singleton.2 ?_⟩⟩
    · exact solid_declare (.enum hname hmembers) (by simpa using he.comment) _
    · exact solid_described
        (sound_constOnLine (by simp +decide [hname]) (by simp +decide [hname]) (by simp))
        (by simp +decide [hname])
    · exact solid_typeGuard hname
  · exact solid_labelBlocks he hfallback
  · exact solid_extraBlocks he hextra

/-- **The file of an alias has solid parts.** -/
theorem sound_aliasModule {a : TypeAlias} (ha : a.IsUnbroken) : (aliasModule a).Sound := by
  have hname := ha.name
  have hvalues : Unbroken (Zod.literals a.values) := unbroken_quotes (by decide) ha.values
  refine ⟨forall_mem_some.2 solid_defaultHeader, List.forall_mem_nil _, ?_⟩
  refine List.forall_mem_cons.2 ⟨?_, List.forall_mem_cons.2 ⟨?_, List.forall_mem_cons.2 ⟨?_,
    List.forall_mem_cons.2 ⟨?_, List.forall_mem_singleton.2 ?_⟩⟩⟩⟩
  · exact solid_declare (.typeAlias hname (TypeExpr.unbroken_literalUnion ha.values))
      (by simpa using ha.comment) _
  · refine solid_described (.const (by simp +decide [hname]) ?_ ?_) (by simp +decide [hname])
    · exact forall_mem_some.2 (by simp +decide [hname])
    · exact Unbroken.solid (by simp +decide [hvalues]) (by simp)
  · exact solid_typeGuard hname
  · exact solid_plainLabelFunction hname
  · exact solid_extraFunction hname (by decide) (by simp +decide [hname]) (by decide)

/-! ## 3. Ends -/

/-- The last block about an enumeration is a function. -/
theorem exists_extraFunction {room : Nat} {extra : List Block}
    (h : extraBlocks room e = .ok extra) :
    ∃ front param doc body, extra = front ++ [extraFunction e.name param doc body] := by
  simp only [extraBlocks] at h
  split at h
  · exact ⟨[], _, _, _, (Except.ok.inj h).symm⟩
  · obtain ⟨lines, -, h⟩ := bind_eq_ok_iff.1 h
    exact ⟨[_], _, _, _, (Except.ok.inj h).symm⟩

/-- **The file of an enumeration ends with one line break.** -/
theorem endsOnce_enumModule {room : Nat} {source : SourceFile}
    (h : enumModule room e fallback = .ok source) : EndsOnce source.text := by
  obtain ⟨extra, hextra, h⟩ := bind_eq_ok_iff.1 h
  obtain rfl := Except.ok.inj h
  obtain ⟨front, param, doc, body, rfl⟩ := exists_extraFunction hextra
  exact endsOnce_of_function (List.append_assoc _ _ _).symm

theorem endsOnce_aliasModule (a : TypeAlias) : EndsOnce (aliasModule a).text :=
  endsOnce_of_function (show (aliasModule a).blocks = [_, _, _, _] ++ [_] from rfl)

end SchemaTypes.Output
