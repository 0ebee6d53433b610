/-
# Spacing of source files

What is printed for a declaration, an import or an export is solid if the names in it are on one
line and its lines are solid (`Statement.solid_text`, `solid_declaration`).  From solid parts a file
has no two blank lines in a row (`SourceFile.Sound.spaced_text`).  Every statement ends with a brace
or a semicolon whatever stands in it, so a file ends with one line break as soon as its last block
is one of these (`SourceFile.endsOnce_text`).
-/
import SchemaTypes.Proofs.Text.Spacing
import SchemaTypes.TypeScript.Source

namespace SchemaTypes.TypeScript

open Text

/-! ## 1. Comments -/

theorem unbroken_trimEnd {s : String} (h : Unbroken s) : Unbroken (trimEnd s) := by
  rw [Unbroken, trimEnd, String.toList_ofList, List.mem_reverse]
  exact fun hm => h (List.mem_reverse.1 ((List.dropWhile_sublist _).subset hm))

/-- A line with a character that is no blank does not become empty. -/
theorem trimEnd_ne_empty {s : String} {c : Char} (hc : c ∈ s.toList) (hb : isBlank c = false) :
    trimEnd s ≠ "" := by
  intro he
  rw [trimEnd, String.ofList_eq_empty_iff, List.reverse_eq_nil_iff, List.dropWhile_eq_nil_iff] at he
  have hblank := he c (List.mem_reverse.2 hc)
  rw [hb] at hblank
  cases hblank

/-- **A doc comment is solid** if its lines are on one line each. -/
theorem solid_docComment {lines : List String} {indent : String} (hindent : Unbroken indent)
    (h : ∀ l ∈ lines, Unbroken l) (block : Bool) : Solid (docComment lines indent block) := by
  unfold docComment
  split
  · rename_i line
    have hline : Unbroken line := h line List.mem_cons_self
    exact Unbroken.solid (by simp +decide [hindent, hline]) (by simp)
  · have hopening : Solid (indent ++ "/**") :=
      Unbroken.solid (by simp +decide [hindent]) (by simp)
    have hclosing : Solid (indent ++ " */") :=
      Unbroken.solid (by simp +decide [hindent]) (by simp)
    have hlines : ∀ t ∈ lines.map fun l => trimEnd (indent ++ " * " ++ l), Solid t := by
      intro t ht
      obtain ⟨l, hl, rfl⟩ := List.mem_map.1 ht
      refine (unbroken_trimEnd (by simp +decide [hindent, h l hl])).solid ?_
      exact trimEnd_ne_empty (c := '*') (by simp) (by decide)
    have hbetween := solid_between hopening hclosing hlines
    rw [← String.append_assoc, @String.append_assoc indent] at hbetween
    exact hbetween

/-! ## 2. Imports and exports -/

/-- The names of a list are on one line. -/
def Specifier.IsUnbroken (s : Specifier) : Prop := Unbroken s.name ∧ ∀ a ∈ s.asName, Unbroken a

theorem Specifier.IsUnbroken.text {s : Specifier} (h : s.IsUnbroken) : Unbroken s.text := by
  obtain ⟨hname, has⟩ := h
  have htype : Unbroken (if s.typeOnly then "type " else "") := by split <;> decide
  unfold Specifier.text
  cases hs : s.asName with
  | none => simp +decide [hname, htype]
  | some a => simp +decide [hname, htype, has a hs]

theorem solid_braced {names : List Specifier} (h : ∀ n ∈ names, n.IsUnbroken) (multiline : Bool) :
    Solid (braced names multiline) := by
  cases multiline with
  | false =>
    have hnames : Unbroken (String.intercalate ", " (names.map Specifier.text)) := by
      refine unbroken_intercalate (by decide) fun t ht => ?_
      obtain ⟨n, hn, rfl⟩ := List.mem_map.1 ht
      exact (h n hn).text
    exact Unbroken.solid (by simp +decide [braced, hnames]) (by simp [braced])
  | true =>
    have hlines : ∀ t ∈ names.map fun n => "  " ++ n.text ++ ",", Solid t := by
      intro t ht
      obtain ⟨n, hn, rfl⟩ := List.mem_map.1 ht
      exact Unbroken.solid (by simp +decide [(h n hn).text]) (by simp)
    have htable := solid_table (a := "\x7b") (b := "\x7d") (Unbroken.solid (by decide) (by decide))
      (Unbroken.solid (by decide) (by decide)) hlines
    have hmap : (names.map fun n => "  " ++ n.text ++ ",\n")
        = (names.map fun n => "  " ++ n.text ++ ",").map (· ++ "\n") := by
      rw [List.map_map]
      exact List.map_congr_left fun n _ => (@String.append_assoc ("  " ++ n.text) "," "\n").symm
    rw [← hmap] at htable
    exact htable

theorem ImportDecl.solid_text {d : ImportDecl} (hnames : ∀ n ∈ d.names, n.IsUnbroken)
    (hmodule : Unbroken d.module) : Solid d.text := by
  have hkeyword : Unbroken (if d.typeOnly then "import type " else "import ") := by
    split <;> decide
  have hbraced : Solid (braced d.names d.multiline) := solid_braced hnames _
  exact (((hkeyword.append_solid hbraced).append_unbroken (by decide)).append_unbroken
    hmodule).append_unbroken (by decide)

theorem ExportDecl.solid_text {d : ExportDecl} (hnames : ∀ n ∈ d.names, n.IsUnbroken)
    (hmodule : ∀ m ∈ d.module, Unbroken m) : Solid d.text := by
  have hkeyword : Unbroken (if d.typeOnly then "export type " else "export ") := by
    split <;> decide
  have hbraced : Solid (braced d.names d.multiline) := solid_braced hnames _
  unfold ExportDecl.text
  refine ((hkeyword.append_solid hbraced).append_unbroken ?_).append_unbroken (by decide)
  split
  · rename_i m hm
    simp +decide [hmodule m hm]
  · decide

/-! ## 3. Statements -/

theorem solid_bracedLines {lines : List String} (h : ∀ l ∈ lines, Solid l) :
    Solid (bracedLines lines) := by
  have hbetween := solid_between (a := "\x7b") (b := "\x7d")
    (Unbroken.solid (by decide) (by decide)) (Unbroken.solid (by decide) (by decide)) h
  rwa [String.append_assoc] at hbetween

/-- The lines of a body are a solid text with a line break behind it. -/
def SolidBody (body : List String) : Prop := ∃ t, functionBody body = t ++ "\n" ∧ Solid t

theorem functionBody_append (a b : List String) :
    functionBody (a ++ b) = functionBody a ++ functionBody b := by
  rw [functionBody, List.map_append, String.join_append]
  rfl

/-- Lines without an empty one among them. -/
theorem solidBody_of_lines {body : List String} (hne : body ≠ []) (h : ∀ l ∈ body, Solid l) :
    SolidBody body := by
  have hindented : functionBody body = String.join ((body.map ("  " ++ ·)).map (· ++ "\n")) := by
    rw [functionBody, List.map_map]
    refine congrArg String.join (List.map_congr_left fun l hl => ?_)
    rw [if_neg (by simpa using (h l hl).ne_empty)]
    rfl
  refine ⟨_, hindented.trans (join_map_break _ (by simpa using hne)), ?_⟩
  refine solid_lines (by simpa using hne) fun t ht => ?_
  obtain ⟨l, hl, rfl⟩ := List.mem_map.1 ht
  exact Unbroken.append_solid (by decide) (h l hl)

/-- An empty line stands between two parts of a body. -/
theorem SolidBody.apart {a b : List String} (ha : SolidBody a) (hb : SolidBody b) :
    SolidBody (a ++ "" :: b) := by
  obtain ⟨t, ht, hsolid⟩ := ha
  obtain ⟨u, hu, hsolid'⟩ := hb
  refine ⟨t ++ "\n\n" ++ u, ?_, hsolid.apart hsolid'⟩
  have hsplit : a ++ "" :: b = a ++ [""] ++ b := by simp
  rw [hsplit, functionBody_append, functionBody_append, ht, hu, ← String.append_assoc,
    @String.append_assoc t]
  rfl

/-- The names in a statement are on one line, and its lines are solid. -/
inductive Statement.Sound : Statement → Prop
  | interface {name : String} {heritage members : List String} (hname : Unbroken name)
      (hheritage : ∀ h ∈ heritage, Unbroken h) (hmembers : ∀ m ∈ members, Solid m) :
      Sound (.interface name heritage members)
  | enum {name : String} {members : List String} (hname : Unbroken name)
      (hmembers : ∀ m ∈ members, Solid m) : Sound (.enum name members)
  | typeAlias {name expr : String} (hname : Unbroken name) (hexpr : Unbroken expr) :
      Sound (.typeAlias name expr)
  | const {exported : Bool} {name : String} {type : Option String} {value : String}
      (hname : Unbroken name) (htype : ∀ t ∈ type, Unbroken t) (hvalue : Solid value) :
      Sound (.const exported name type value)
  | function {name params result : String} {body : List String} (hname : Unbroken name)
      (hparams : Solid ("(" ++ params ++ ")")) (hresult : Unbroken result)
      (hbody : SolidBody body) :
      Sound (.function name params result body)
  | verbatim {text : String} (htext : Solid text) : Sound (.verbatim text)

/-- **A statement is solid** if its parts are sound. -/
theorem Statement.solid_text {s : Statement} (h : s.Sound) : Solid s.text := by
  cases h with
  | @interface name heritage members hname hheritage hmembers =>
    have hextends : Unbroken
        (if heritage.isEmpty then "" else " extends " ++ String.intercalate ", " heritage) := by
      split
      · decide
      · simp +decide [unbroken_intercalate _ hheritage]
    refine Unbroken.append_solid ?_ (solid_bracedLines hmembers)
    simp +decide only [unbroken_append, hname, hextends, and_self]
  | enum hname hmembers =>
    exact Unbroken.append_solid (by simp +decide [hname]) (solid_bracedLines hmembers)
  | @typeAlias name expr hname hexpr =>
    have htext : Unbroken ("export type " ++ name ++ " = " ++ expr ++ ";") := by
      simp +decide [hname, hexpr]
    exact htext.solid (by simp)
  | @const exported name type value hname htype hvalue =>
    have hkeyword : Unbroken (if exported then "export const " else "const ") := by split <;> decide
    refine Solid.append_unbroken (Unbroken.append_solid ?_ hvalue) (by decide)
    cases type with
    | none => simp +decide [hkeyword, hname]
    | some t => simp +decide [hkeyword, hname, htype t rfl]
  | @function name params result body hname hparams hresult hbody =>
    obtain ⟨lines, hlines, hsolid⟩ := hbody
    have hkeyword : Unbroken ("export function " ++ name) := unbroken_append.2 ⟨by decide, hname⟩
    have hend : Unbroken (": " ++ result ++ " \x7b") :=
      unbroken_between (by decide) hresult (by decide)
    have hfront := (hkeyword.append_solid hparams).append_unbroken hend
    have hall := (hfront.below hsolid).below
      (Unbroken.solid (by decide : Unbroken "\x7d") (by decide))
    have hparen : "): " = ")" ++ ": " := rfl
    have hbrace : " \x7b\n" = " \x7b" ++ "\n" := rfl
    change Solid ("export function " ++ name ++ "(" ++ params ++ "): " ++ result ++ " \x7b\n"
      ++ functionBody body ++ "\x7d")
    rw [hlines, hparen, hbrace]
    simpa only [String.append_assoc] using hall
  | verbatim htext => exact htext

/-! ## 4. Blocks -/

theorem solid_declaration {d : Declaration} (hne : d.statements ≠ [])
    (hs : ∀ s ∈ d.statements, s.Sound) (hdoc : ∀ lines ∈ d.doc, ∀ l ∈ lines, Unbroken l) :
    Solid (Block.declaration d).text := by
  have hbody : Solid (String.intercalate "\n" (d.statements.map Statement.text)) := by
    refine solid_lines (by simpa using hne) fun t ht => ?_
    obtain ⟨s, hmem, rfl⟩ := List.mem_map.1 ht
    exact Statement.solid_text (hs s hmem)
  rw [Block.text, Declaration.text]
  cases hd : d.doc with
  | none => exact hbody
  | some lines => exact (solid_docComment (by decide) (hdoc lines hd) _).below hbody

theorem solid_declare {s : Statement} (hs : s.Sound) {doc : Option (List String)}
    (hdoc : ∀ lines ∈ doc, ∀ l ∈ lines, Unbroken l) (blockDoc : Bool) :
    Solid (Block.declare s doc blockDoc).text :=
  solid_declaration (by simp) (by simpa using hs) hdoc

theorem solid_described {s : Statement} (hs : s.Sound) {doc : String} (hdoc : Unbroken doc) :
    Solid (Block.described s doc).text :=
  solid_declare hs (by simpa using hdoc) _

theorem solid_banner {title : String} (h : Unbroken title) : Solid (Block.banner title).text := by
  have hrule : Solid bannerRule := Unbroken.solid (by decide +kernel) (by decide +kernel)
  have htitle : Solid ("// " ++ title) := Unbroken.solid (by simp +decide [h]) (by simp)
  have hstack := (hrule.below htitle).below hrule
  rw [← String.append_assoc, @String.append_assoc bannerRule] at hstack
  exact hstack

theorem solid_comment {text : String} (h : Unbroken text) : Solid (Block.comment text).text :=
  Unbroken.solid (by simp +decide [Block.text, h]) (by simp [Block.text])

theorem solid_group {items : List Block} (hne : items ≠ []) (h : ∀ b ∈ items, Solid b.text) :
    Solid (Block.group items).text := by
  rw [Block.text, Block.texts_eq_map]
  refine solid_lines (by simpa using hne) fun t ht => ?_
  obtain ⟨b, hb, rfl⟩ := List.mem_map.1 ht
  exact h b hb

/-! ## 5. Files -/

namespace SourceFile

/-- A text that ends with no line break loses none. -/
theorem dropLineBreaks_of_firm {s : String} (h : Firm s) : dropLineBreaks s = s := by
  obtain ⟨r, c, hc, hne⟩ := h
  have hhead : ((c == '\n') = true) = False := by simpa using hne
  rw [dropLineBreaks, hc, List.reverse_append, List.reverse_singleton, List.singleton_append,
    List.dropWhile_cons, if_neg (by rw [hhead]; exact id), List.reverse_cons, List.reverse_reverse,
    ← hc, String.ofList_toList]

/-- The parts of a file are solid. -/
structure Sound (f : SourceFile) : Prop where
  header : ∀ h ∈ f.header, Solid h
  imports : ∀ d ∈ f.imports, Solid d.text
  blocks : ∀ b ∈ f.blocks, Solid b.text

theorem Sound.sections {f : SourceFile} (h : f.Sound) : ∀ t ∈ f.sections, Solid t := by
  intro t ht
  rw [SourceFile.sections, List.append_assoc, List.mem_append, List.mem_append] at ht
  rcases ht with ht | ht | ht
  · obtain ⟨header, hheader, rfl⟩ := List.mem_map.1 ht
    have hsolid := h.header header (Option.filter_eq_some_iff.1 (Option.mem_toList.1 hheader)).1
    rwa [dropLineBreaks_of_firm hsolid.firm]
  · rw [importSection] at ht
    split at ht
    · exact absurd ht List.not_mem_nil
    · rename_i hne
      rw [List.mem_singleton.1 ht]
      refine solid_lines (by simpa using hne) fun t ht => ?_
      obtain ⟨d, hd, rfl⟩ := List.mem_map.1 ht
      exact h.imports d hd
  · obtain ⟨b, hb, rfl⟩ := List.mem_map.1 ht
    exact h.blocks b hb

/-- **A file of solid parts has no two blank lines in a row.** -/
theorem Sound.spaced_text {f : SourceFile} (h : f.Sound) : ¬twoBlankLines <:+: f.text.toList := by
  rw [SourceFile.text]
  by_cases hne : f.sections = []
  · rw [hne]
    decide
  · exact (solid_intercalate (n := 2) (by decide) rfl hne h.sections).spaced_break

/-! ## 6. Ends of files -/

/-- **A file ends with one line break** if its last block ends with something else. -/
theorem endsOnce_text {f : SourceFile} {front : List Block} {b : Block}
    (hblocks : f.blocks = front ++ [b]) (hb : Firm b.text) : EndsOnce f.text := by
  rw [text, sections, hblocks, List.map_append, ← List.append_assoc]
  exact (hb.intercalate_concat _ _).endsOnce

theorem endsOnce_of_forall {f : SourceFile} (hne : f.blocks ≠ [])
    (h : ∀ b ∈ f.blocks, Firm b.text) : EndsOnce f.text :=
  endsOnce_text (List.dropLast_append_getLast hne).symm (h _ (List.getLast_mem hne))

end SourceFile

theorem firm_brace : Firm "\x7d" := ⟨[], '\x7d', rfl, by decide⟩

theorem firm_semicolon : Firm ";" := ⟨[], ';', rfl, by decide⟩

/-- A statement ends with a brace or a semicolon, unless its text is given as a whole. -/
theorem Statement.firm_text {s : Statement} (h : ∀ t, s ≠ .verbatim t) : Firm s.text := by
  have hbraced : ∀ lines, Firm (bracedLines lines) := fun lines =>
    Firm.append_left (b := "\n\x7d") (firm_brace.append_left "\n") _
  cases s with
  | interface name heritage members => exact (hbraced members).append_left _
  | enum name members => exact (hbraced members).append_left _
  | typeAlias name expr => exact firm_semicolon.append_left _
  | const exported name type value => exact firm_semicolon.append_left _
  | function name params result body => exact firm_brace.append_left _
  | verbatim text => exact absurd rfl (h text)

theorem firm_declare {s : Statement} (h : ∀ t, s ≠ .verbatim t) (doc : Option (List String))
    (blockDoc : Bool) : Firm (Block.declare s doc blockDoc).text := by
  have hstatement := Statement.firm_text h
  rw [Block.declare, Block.text, Declaration.text]
  cases doc with
  | none => simpa using hstatement
  | some lines => simpa using hstatement.append_left _

theorem firm_exports (d : ExportDecl) : Firm (Block.exports d).text := firm_semicolon.append_left _

theorem firm_group (items : List Block) {b : Block} (hb : Firm b.text) :
    Firm (Block.group (items ++ [b])).text := by
  rw [Block.text, Block.texts_eq_map, List.map_append]
  exact hb.intercalate_concat _ _

end SchemaTypes.TypeScript
