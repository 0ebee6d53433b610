/-
# Declarations in the text of a file

A generated file is data, and the names that it declares are read off its statements
(`SourceFile.declaredNames`).  Here they are found again in its text: each of them stands behind
`export` and a keyword at the beginning of a line (`SourceFile.declares_of_mem`).

`Stands` says that a text is in another one at the beginning of a line.  It goes up from a
statement to its declaration, to the block, and to the file, because all of these are put together
with line breaks.
-/
import Mathlib
import SchemaTypes.TypeScript.Source

namespace SchemaTypes.TypeScript

/-! ## 1. Texts at the beginning of a line -/

/-- Nothing, or what ends with a line break. -/
def EndsLine (s : String) : Prop := s = "" ∨ ∃ a, s = a ++ "\n"

theorem EndsLine.append {a b : String} (ha : EndsLine a) (hb : EndsLine b) : EndsLine (a ++ b) := by
  rcases hb with rfl | ⟨c, rfl⟩
  · rw [String.append_empty]
    exact ha
  · exact .inr ⟨a ++ c, (String.append_assoc).symm⟩

/-- The text `part` is in the other one at the beginning of a line. -/
def Stands (part text : String) : Prop :=
  ∃ before after, EndsLine before ∧ text = before ++ part ++ after

namespace Stands

variable {a b c : String}

theorem append_right (a b : String) : Stands a (a ++ b) :=
  ⟨"", b, .inl rfl, by rw [String.empty_append]⟩

theorem refl (a : String) : Stands a a := ⟨"", "", .inl rfl, by simp⟩

theorem trans (hab : Stands a b) (hbc : Stands b c) : Stands a c := by
  obtain ⟨before, after, hbefore, rfl⟩ := hab
  obtain ⟨before', after', hbefore', rfl⟩ := hbc
  refine ⟨before' ++ before, after ++ after', hbefore'.append hbefore, ?_⟩
  simp only [String.append_assoc]

/-- What stands in the end of a text whose front ends a line stands in the whole. -/
theorem append_left (h : Stands a b) {front : String} (hfront : EndsLine front) :
    Stands a (front ++ b) :=
  h.trans ⟨front, "", hfront, by rw [String.append_empty]⟩

theorem of_append (h : Stands a b) (c : String) : Stands a (b ++ c) := h.trans (append_right b c)

/-- What stands in one of some texts stands in all of them with line breaks between them. -/
theorem intercalate {sep : String} (hsep : ∃ s, sep = s ++ "\n") {texts : List String}
    (hb : b ∈ texts) (h : Stands a b) : Stands a (String.intercalate sep texts) := by
  induction texts with
  | nil => exact nomatch hb
  | cons first rest ih =>
    cases rest with
    | nil =>
      rw [String.intercalate_singleton, ← List.mem_singleton.1 hb]
      exact h
    | cons second rest =>
      rw [String.intercalate_cons_cons]
      rcases List.mem_cons.1 hb with rfl | hb
      · rw [String.append_assoc]
        exact h.of_append _
      · refine (ih hb).append_left ?_
        obtain ⟨s, rfl⟩ := hsep
        exact .inr ⟨first ++ s, (String.append_assoc).symm⟩

end Stands

/-! ## 2. Declarations -/

/-- What a declaration begins with behind `export`. -/
def keywords : List String := ["interface", "enum", "type", "const", "function"]

/-- What follows the name in a declaration. -/
def nameEnds : List String := [" ", " extends ", " = ", ": ", "("]

/-- The text declares the name for others: at the beginning of a line stand `export`, a keyword and
the name. -/
def Declares (text name : String) : Prop :=
  ∃ keyword ∈ keywords, ∃ stop ∈ nameEnds,
    Stands ("export " ++ keyword ++ " " ++ name ++ stop) text

theorem Declares.mono {text text' name : String} (h : Declares text name)
    (hstands : Stands text text') : Declares text' name := by
  obtain ⟨keyword, hkeyword, stop, hstop, h⟩ := h
  exact ⟨keyword, hkeyword, stop, hstop, h.trans hstands⟩

theorem Declares.of_eq (keyword front stop rest : String) {text name : String}
    (hkeyword : keyword ∈ keywords) (hstop : stop ∈ nameEnds)
    (hfront : front = "export " ++ keyword ++ " ") (h : text = front ++ name ++ stop ++ rest) :
    Declares text name := by
  refine ⟨keyword, hkeyword, stop, hstop, ?_⟩
  rw [h, hfront]
  exact .append_right _ _

/-- **A statement declares the name that it exports.** -/
theorem Statement.declares {s : Statement} {name : String} (h : s.exportedName? = some name) :
    Declares s.text name := by
  cases s with
  | interface n heritage members =>
    obtain rfl := Option.some.inj h
    show Declares ("export interface " ++ n
      ++ (if heritage.isEmpty then "" else " extends " ++ String.intercalate ", " heritage)
      ++ " " ++ bracedLines members) n
    split
    · refine Declares.of_eq "interface" "export interface " " " (bracedLines members) (by decide)
        (by decide) (by decide) ?_
      rw [String.append_empty]
    · refine Declares.of_eq "interface" "export interface " " extends "
        (String.intercalate ", " heritage ++ " " ++ bracedLines members) (by decide) (by decide)
        (by decide) ?_
      simp only [String.append_assoc]
  | enum n members =>
    obtain rfl := Option.some.inj h
    exact Declares.of_eq "enum" "export enum " " " (bracedLines members) (by decide) (by decide)
      (by decide) rfl
  | typeAlias n expr =>
    obtain rfl := Option.some.inj h
    refine Declares.of_eq "type" "export type " " = " (expr ++ ";") (by decide) (by decide)
      (by decide) ?_
    show "export type " ++ n ++ " = " ++ expr ++ ";" = _
    simp only [String.append_assoc]
  | const exported n type value =>
    obtain ⟨rfl, rfl⟩ : exported = true ∧ n = name := by simpa [exportedName?] using h
    cases type with
    | none =>
      refine Declares.of_eq "const" "export const " " = " (value ++ ";") (by decide) (by decide)
        (by decide) ?_
      show "export const " ++ n ++ "" ++ " = " ++ value ++ ";" = _
      simp only [String.append_empty, String.append_assoc]
    | some type =>
      refine Declares.of_eq "const" "export const " ": " (type ++ " = " ++ value ++ ";") (by decide)
        (by decide) (by decide) ?_
      show "export const " ++ n ++ (": " ++ type) ++ " = " ++ value ++ ";" = _
      simp only [String.append_assoc]
  | function n params result body =>
    obtain rfl := Option.some.inj h
    refine Declares.of_eq "function" "export function " "("
      (params ++ "): " ++ result ++ " \x7b\n" ++ functionBody body ++ "\x7d") (by decide)
      (by decide) (by decide) ?_
    show "export function " ++ n ++ "(" ++ params ++ "): " ++ result ++ " \x7b\n"
      ++ functionBody body ++ "\x7d" = _
    simp only [String.append_assoc]
  | verbatim text => exact nomatch h

/-! ## 3. From statements to files -/

/-- A declaration has the text of each of its statements. -/
theorem Declaration.stands {d : Declaration} {s : Statement} (h : s ∈ d.statements) :
    Stands s.text d.text := by
  have hbody : Stands s.text (String.intercalate "\n" (d.statements.map Statement.text)) :=
    .intercalate ⟨"", rfl⟩ (List.mem_map_of_mem h) (.refl _)
  unfold Declaration.text
  split
  · exact hbody.append_left (.inr ⟨_, rfl⟩)
  · exact hbody

mutual

/-- A block has the text of each of its declarations. -/
theorem Block.stands : ∀ {b : Block} {d : Declaration}, d ∈ b.declarations → Stands d.text b.text
  | .declaration d', d, h => by
    rw [Block.declarations, List.mem_singleton] at h
    rw [h]
    exact .refl _
  | .group items, d, h => by
    obtain ⟨b, hb, hstands⟩ := Block.exists_stands h
    rw [Block.text, Block.texts_eq_map]
    exact .intercalate ⟨"", rfl⟩ (List.mem_map_of_mem hb) hstands
  | .banner _, _, h => nomatch h
  | .comment _, _, h => nomatch h
  | .exports _, _, h => nomatch h
  | .imports _, _, h => nomatch h

/-- A declaration of some blocks stands in one of them. -/
theorem Block.exists_stands : ∀ {bs : List Block} {d : Declaration},
    d ∈ Block.declarationsOf bs → ∃ b ∈ bs, Stands d.text b.text
  | [], _, h => nomatch h
  | b :: rest, d, h => by
    rcases List.mem_append.1 h with h | h
    · exact ⟨b, List.mem_cons_self, Block.stands h⟩
    · obtain ⟨b', hb', hstands⟩ := Block.exists_stands h
      exact ⟨b', List.mem_cons_of_mem _ hb', hstands⟩

end

/-- **The text of a file declares the names of the file.** -/
theorem SourceFile.declares_of_mem {f : SourceFile} {name : String} (h : name ∈ f.declaredNames) :
    Declares f.text name := by
  obtain ⟨d, hd, hname⟩ := List.mem_flatMap.1 h
  obtain ⟨s, hs, hname⟩ := List.mem_filterMap.1 hname
  obtain ⟨b, hb, hblock⟩ := Block.exists_stands hd
  have hsection : b.text ∈ f.sections :=
    List.mem_append_right _ (List.mem_map_of_mem hb)
  refine (Statement.declares hname).mono (.trans (Declaration.stands hs) (hblock.trans ?_))
  exact (Stands.intercalate ⟨"\n", rfl⟩ hsection (.refl _)).of_append _

end SchemaTypes.TypeScript
