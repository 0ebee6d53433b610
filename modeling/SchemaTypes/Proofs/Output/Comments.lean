/-
# Labels in comments

The labels of a model are shown in five kinds of comments: those of the declarations of entities,
enumerations and aliases, those of the fields of interfaces, and those of the validators of
compound types.  Nothing in a label is escaped there.  So such a comment is closed at its end
exactly if no terminator is in what it shows, that is in the label and in what is put around it
(`labelsInComments`); and as long as that is the case, two models that differ in their labels alone
have the same declarations outside of comments.
-/
import Mathlib
import SchemaTypes.Output.BaseModule
import SchemaTypes.Output.EnumModule
import SchemaTypes.Proofs.TypeScript.Comments
import SchemaTypes.Proofs.Zod.Fields

namespace SchemaTypes

/-! ## 1. Models without labels -/

/-- The property without its label. -/
def Property.withoutLabel (p : Property) : Property := { p with displayName := none }

/-- The schema without its label and those of its properties. -/
def Schema.withoutLabels (s : Schema) : Schema :=
  { s with
    displayName := none
    properties := s.properties.map fun e => (e.1, e.2.withoutLabel) }

/-- The enumeration of a plugin without its label. -/
def PluginEnum.withoutLabel (p : PluginEnum) : PluginEnum := { p with displayName := none }

/-- The field without its comment. -/
def InterfaceField.bare (f : InterfaceField) : InterfaceField := { f with comment := none }

namespace Interface

variable (collection : Collection) (config : Config)

/-- The interface without the comments of its fields. -/
def bare (i : Interface) : Interface := { i with fields := i.fields.map InterfaceField.bare }

/-- Labels stand in the comments of fields alone. -/
theorem map_bare_expand (name : String) (p : Property) :
    (expand collection config name p).map InterfaceField.bare
      = (expand collection config name p.withoutLabel).map InterfaceField.bare := by
  have hpolicy (f : InterfaceField) : (applyNullPolicy config.strictNullChecks f).bare
      = applyNullPolicy config.strictNullChecks f.bare := by
    unfold applyNullPolicy
    split <;> rfl
  have hstrict : (expandStrict collection config name p).map InterfaceField.bare
      = (expandStrict collection config name p.withoutLabel).map InterfaceField.bare := by
    have hcustom : customTypeOf? config p.withoutLabel = customTypeOf? config p := rfl
    unfold expandStrict
    rw [hcustom]
    cases customTypeOf? config p with
    | some t =>
      dsimp only
      split
      · simp only [compoundFields, List.map_append, List.map_map]
        rfl
      · rfl
    | none =>
      have hkind : p.withoutLabel.kind = p.kind := rfl
      dsimp only
      rw [hkind]
      split <;> rfl
  have hmap (q : Property) : (expand collection config name q).map InterfaceField.bare
      = ((expandStrict collection config name q).map InterfaceField.bare).map
          (applyNullPolicy config.strictNullChecks) := by
    rw [expand, List.map_map, List.map_map]
    exact List.map_congr_left fun f _ => hpolicy f
  rw [hmap, hmap, hstrict]

theorem map_bare_fieldsOf (s : Schema) :
    (fieldsOf collection config s).map InterfaceField.bare
      = (fieldsOf collection config s.withoutLabels).map InterfaceField.bare := by
  simp only [fieldsOf, List.map_append, Schema.withoutLabels, List.map_flatMap, List.flatMap_map,
    ← map_bare_expand collection config]
  rfl

end Interface

namespace Output

open TypeScript

/-! ## 2. Declarations and their comments -/

/-- The declaration of the interface of an entity. -/
def interfaceDeclaration (i : Interface) : Declaration :=
  { statements := [interfaceStatement i []], doc := some [i.comment], blockDoc := true }

/-- The declaration of an enumeration. -/
def enumDeclaration (e : Enumeration) : Declaration :=
  { statements := [enumStatement e], doc := some [e.comment], blockDoc := true }

/-- The declaration of an alias. -/
def aliasDeclaration (a : TypeAlias) : Declaration :=
  { statements := [.typeAlias a.name a.typeExpr], doc := some [a.comment], blockDoc := true }

/-- The declaration of the type of a property that lists values. -/
def inlineDeclaration : InlineEnum → Declaration
  | .enum _ _ e => enumDeclaration e
  | .alias _ _ a => aliasDeclaration a

/-- The file of an enumeration begins with it. -/
theorem head?_enumModule {room : Nat} {e : Enumeration} {fallback : String} {f : SourceFile}
    (h : enumModule room e fallback = .ok f) :
    f.blocks.head? = some (.declaration (enumDeclaration e)) := by
  cases hextra : extraBlocks room e with
  | error u => simp [enumModule, hextra, bind, Except.bind] at h
  | ok blocks =>
    simp only [enumModule, hextra, bind, Except.bind, pure, Except.pure, Except.ok.injEq] at h
    rw [← h]
    rfl

/-- The declaration without its comment. -/
def bareDeclaration (d : Declaration) : Declaration := { d with doc := none }

theorem text_bareDeclaration {d : Declaration} {s : Statement} (h : d.statements = [s]) :
    (bareDeclaration d).text = s.text := by
  simp [bareDeclaration, Declaration.text, h]

/-- The declaration stands under a comment that shows the text: the comment is closed at its end
exactly if no terminator is in the text, and then it has no code. -/
structure StandsUnder (d : Declaration) (shown : String) : Prop where
  text : d.text = docComment [shown] "" true ++ "\n" ++ (bareDeclaration d).text
  closed : ClosedAtEnd (docComment [shown] "" true) ↔ ¬Closes shown
  code : ¬Closes shown → codeLines d.text = codeLines (bareDeclaration d).text

theorem standsUnder {d : Declaration} {shown : String} (hdoc : d.doc = some [shown])
    (hblock : d.blockDoc = true) : StandsUnder d shown := by
  have htext : d.text = docComment [shown] "" true ++ "\n" ++ (bareDeclaration d).text := by
    simp only [Declaration.text, hdoc, hblock, bareDeclaration]
  refine ⟨htext, closedAtEnd_docComment_iff shown true, fun h => ?_⟩
  obtain ⟨hreturns, hnone⟩ := codeLines_docComment h true 0
  have hcomment : String.ofList (List.replicate 0 ' ') ++ docComment [shown] "" true
      = docComment [shown] "" true := by simp
  rw [hcomment] at hreturns hnone
  rw [htext, codeLines_append hreturns, hnone, List.nil_append]

/-! ## 3. Fields and their comments -/

/-- A field with a comment is the comment and the field without it. -/
theorem fieldText_eq {f : InterfaceField} {c : String} (hc : f.comment = some c) (hne : c ≠ "") :
    fieldText f = "  " ++ docComment [c] "" false ++ "\n" ++ fieldText f.bare := by
  have hfilter : f.comment.filter (!·.isEmpty) = some c := by simp [hc, Option.filter, hne]
  have hbegin : "  /** " = "  " ++ "/** " := by decide
  have hend : " */\n" = " */" ++ "\n" := by decide
  simp only [fieldText, hfilter, InterfaceField.bare, Option.filter_none, docComment, hbegin, hend,
    String.append_assoc, String.empty_append]
  rfl

/-- No terminator is in the comment of the field. -/
def Uncut (f : InterfaceField) : Prop := ∀ c ∈ f.comment, ¬Closes c

instance (f : InterfaceField) : Decidable (Uncut f) :=
  inferInstanceAs (Decidable (∀ c ∈ f.comment, ¬Closes c))

/-- **A field under its comment** has the code of the field without it. -/
theorem codeLines_fieldText {f : InterfaceField} (hreturns : Returns (fieldText f.bare))
    (h : Uncut f) :
    Returns (fieldText f) ∧ codeLines (fieldText f) = codeLines (fieldText f.bare) := by
  by_cases hshown : ∃ c, f.comment = some c ∧ c ≠ ""
  · obtain ⟨c, hc, hne⟩ := hshown
    obtain ⟨hcomment, hnone⟩ := codeLines_docComment (h c hc) false 2
    have hindent : String.ofList (List.replicate 2 ' ') = "  " := rfl
    rw [hindent] at hcomment hnone
    rw [fieldText_eq hc hne, codeLines_append hcomment, hnone]
    exact ⟨hcomment.append hreturns, rfl⟩
  · have hfilter : f.comment.filter (!·.isEmpty) = none := by
      rw [Option.filter_eq_none_iff]
      intro c hc
      have hempty : c = "" := Classical.byContradiction fun hne => hshown ⟨c, hc, hne⟩
      simp [hempty]
    have hbare : fieldText f = fieldText f.bare := by
      simp only [fieldText, hfilter]
      rfl
    rw [hbare]
    exact ⟨hreturns, rfl⟩

/-- The first line of an interface. -/
def interfaceHead (name : String) : String := "export interface " ++ name ++ " " ++ "\x7b"

theorem bracedLines_eq (lines : List String) :
    bracedLines lines = "\x7b" ++ "\n" ++ String.intercalate "\n" lines ++ "\n" ++ "\x7d" := by
  rw [← String.toList_inj]
  simp [bracedLines]

theorem text_interfaceStatement (i : Interface) :
    (interfaceStatement i []).text
      = interfaceHead i.name ++ "\n" ++ (String.intercalate "\n" (i.fields.map fieldText)
        ++ "\n" ++ "\x7d") := by
  have htext : (interfaceStatement i []).text
      = "export interface " ++ i.name ++ "" ++ " " ++ bracedLines (i.fields.map fieldText) := by
    unfold interfaceStatement Statement.text
    simp only [List.isEmpty_nil, ↓reduceIte]
  refine htext.trans ?_
  generalize i.fields.map fieldText = lines
  generalize i.name = name
  unfold interfaceHead
  rw [bracedLines_eq, String.append_empty]
  simp only [String.append_assoc]

/-- The names and types of the interface are read as code to the end of their lines. -/
structure ReadsAsCode (i : Interface) : Prop where
  head : Returns (interfaceHead i.name)
  fields : ∀ f ∈ i.fields, Returns (fieldText f.bare)

theorem returns_interfaceHead {name : String} (h : Plain name.toList) :
    Returns (interfaceHead name) := by
  have hfront : Plain "export interface".toList := by decide
  have htext : (interfaceHead name).toList
      = "export interface".toList ++ ' ' :: (name.toList ++ ' ' :: []) ++ ['\x7b'] := by
    unfold interfaceHead
    simp
  refine returns_of_plain htext ?_ (by decide)
  rw [plain_append_cons_iff (by decide) (by decide) (by decide),
    plain_append_cons_iff (by decide) (by decide) (by decide)]
  exact ⟨hfront, h, by decide⟩

theorem returns_bare {f : InterfaceField} (hname : Plain f.name.toList)
    (htype : Plain f.type.toList) : Returns (fieldText f.bare) := by
  -- In front of the name stands at most one word, behind it at most a question mark.
  obtain ⟨front, hfront, hplain⟩ : ∃ front : List Char,
      ("  " ++ if f.readonly then "readonly " else "").toList = front ++ [' '] ∧ Plain front := by
    cases f.readonly
    · exact ⟨[' '], by decide, by decide⟩
    · exact ⟨"  readonly".toList, by decide, by decide⟩
  have hmark : Plain (f.name.toList ++ (if f.optional then "?" else "").toList) := by
    cases f.optional
    · simpa using hname
    · have htext : (if true then "?" else "").toList = '?' :: [] := by decide
      rw [htext, plain_append_cons_iff (by decide) (by decide) (by decide)]
      exact ⟨hname, by decide⟩
  have htext : (fieldText f.bare).toList
      = (front ++ ' ' :: ((f.name.toList ++ (if f.optional then "?" else "").toList)
        ++ ':' :: ([] ++ ' ' :: f.type.toList))) ++ [';'] := by
    have hline : fieldText f.bare = ("  " ++ if f.readonly then "readonly " else "") ++ f.name
        ++ (if f.optional then "?" else "") ++ ": " ++ f.type ++ ";" := rfl
    rw [hline]
    simp only [String.toList_append, hfront]
    simp
  refine returns_of_plain htext ?_ (by decide)
  simp only [plain_append_cons_iff, ne_eq, Char.reduceEq, not_false_eq_true]
  exact ⟨hplain, hmark, by decide, htype⟩

/-- Names and types that begin no comment and no literal of several lines are read so. -/
theorem readsAsCode_of_plain {i : Interface} (hname : Plain i.name.toList)
    (hfields : ∀ f ∈ i.fields, Plain f.name.toList ∧ Plain f.type.toList) : ReadsAsCode i :=
  ⟨returns_interfaceHead hname, fun f hf => returns_bare (hfields f hf).1 (hfields f hf).2⟩

/-- **An interface** has the lines of code of its head, of its fields without their comments, and
of its end. -/
theorem codeLines_interface {i : Interface} (hcode : ReadsAsCode i)
    (huncut : ∀ f ∈ i.fields, Uncut f) :
    codeLines (interfaceStatement i []).text
      = codeLines (interfaceHead i.name) ++ i.fields.flatMap (fun f => codeLines (fieldText f.bare))
        ++ codeLines "\x7d" := by
  have hfields : ∀ t ∈ i.fields.map fieldText, Returns t := by
    simpa using fun f hf => (codeLines_fieldText (hcode.fields f hf) (huncut f hf)).1
  obtain ⟨hreturns, hlines⟩ := codeLines_intercalate hfields
  have hbare : (i.fields.map fieldText).flatMap codeLines
      = i.fields.flatMap fun f => codeLines (fieldText f.bare) := by
    rw [List.flatMap_map]
    exact List.flatMap_congr fun f hf => (codeLines_fieldText (hcode.fields f hf) (huncut f hf)).2
  rw [text_interfaceStatement, codeLines_append hcode.head, codeLines_append hreturns, hlines,
    hbare, List.append_assoc]

end Output

/-! ## 4. What comments are put together from -/

open TypeScript (Closes ClosesChars closesChars_append_cons_iff docComment ClosedAtEnd
  closedAtEnd_docComment_iff codeLines)

namespace Interface

variable {collection : Collection} {config : Config} {name : String} {p : Property}

/-- What the comment of a relation to one of several entities says without a label. -/
def relationNote (targets : List String) : String :=
  if targets.isEmpty then "Polymorphic relation"
  else "Polymorphic relation to " ++ String.intercalate ", " targets

/-- The comments of the fields of a property, and the texts that they are put together from: one
case for each way in which a comment is made. -/
inductive FieldComment (config : Config) (name : String) (p : Property) :
    String → List String → Prop
  | label {l : String} (shown : labelText config p.displayName = some l) :
      FieldComment config name p l [l]
  | entry {t : CustomType} {e : CompoundEntry} (plugin : customTypeOf? config p = some t)
      (mem : e ∈ t.expand) :
      FieldComment config name p
        (orElse (labelText config p.displayName) name ++ " (" ++ e.suffix ++ ")")
        [orElse (labelText config p.displayName) name, e.suffix]
  | accessor :
      FieldComment config name p
        (orElse (labelText config p.displayName) name ++ " (" ++ "computed" ++ ")")
        [orElse (labelText config p.displayName) name]
  | which : FieldComment config name p ("Polymorphic type for" ++ " " ++ name) [name]
  | key : FieldComment config name p ("Polymorphic ID for" ++ " " ++ name) [name]
  | relation {target : Option String} {targets : List String}
      (kind : p.kind = .association "MorphTo" target targets) :
      FieldComment config name p (relationNote targets) targets

/-- A comment holds a terminator exactly if one of its texts does. -/
theorem FieldComment.closes_iff {c : String} {texts : List String}
    (h : FieldComment config name p c texts) : Closes c ↔ ∃ t ∈ texts, Closes t := by
  cases h with
  | label => simp
  | entry => simp [TypeScript.closes_titled_iff]
  | accessor =>
    have hcomputed : ¬Closes "computed" := by decide
    simp [TypeScript.closes_titled_iff, hcomputed]
  | which | key =>
    rw [TypeScript.closes_append_space_iff, or_iff_right (by decide)]
    simp
  | relation =>
    unfold relationNote
    cases texts with
    | nil => simpa using (by decide : ¬Closes "Polymorphic relation")
    | cons first rest =>
      have hnote : "Polymorphic relation to " = "Polymorphic relation to" ++ " " := by decide
      have hfront : ¬Closes "Polymorphic relation to" := by decide
      rw [if_neg (by simp), hnote, TypeScript.closes_append_space_iff, or_iff_right hfront,
        TypeScript.closes_listed_iff]

/-- Instead of a text stands the text or the other one. -/
theorem orElse_eq (text : Option String) (other : String) :
    text = some (orElse text other) ∨ orElse text other = other := by
  cases text with
  | none => exact .inr rfl
  | some t =>
    by_cases ht : t.isEmpty = true
    · exact .inr (by simp [orElse, Option.filter, ht])
    · exact .inl (by simp [orElse, Option.filter, ht])

/-- **Every comment of a field** is made in one of these ways. -/
theorem exists_fieldComment {f : InterfaceField} (h : f ∈ expand collection config name p)
    {c : String} (hc : f.comment = some c) : ∃ texts, FieldComment config name p c texts := by
  obtain ⟨g, hg, rfl⟩ := List.mem_map.1 h
  have hcomment : g.comment = some c := by
    rw [← hc]
    unfold applyNullPolicy
    split <;> rfl
  have hsingle {type : String}
      (hmem : g ∈ [singleField config name p type (labelText config p.displayName)]) :
      ∃ texts, FieldComment config name p c texts := by
    rw [List.mem_singleton.1 hmem] at hcomment
    exact ⟨_, .label hcomment⟩
  unfold expandStrict at hg
  cases ht : customTypeOf? config p with
  | some t =>
    simp only [ht] at hg
    split at hg
    · rcases List.mem_append.1 hg with hg | hg
      · obtain ⟨e, he, rfl⟩ := List.mem_map.1 hg
        obtain rfl := Option.some.inj hcomment
        exact ⟨_, .entry ht he⟩
      · obtain ⟨accessor, -, rfl⟩ := List.mem_map.1 hg
        have hparts : " (computed)" = " (" ++ ("computed" ++ ")") := by decide
        have hc :
            c = orElse (labelText config p.displayName) name ++ " (" ++ "computed" ++ ")" := by
          rw [← Option.some.inj hcomment, hparts, String.append_assoc, String.append_assoc]
        rw [hc]
        exact ⟨_, .accessor⟩
    · exact hsingle hg
  | none =>
    simp only [ht] at hg
    split at hg
    · rename_i target targets hkind
      simp only [oneOfFields, List.mem_cons, List.not_mem_nil, or_false] at hg
      rcases hg with rfl | rfl | rfl
      · have hc : c = "Polymorphic type for" ++ " " ++ name := (Option.some.inj hcomment).symm
        rw [hc]
        exact ⟨_, .which⟩
      · have hc : c = "Polymorphic ID for" ++ " " ++ name := (Option.some.inj hcomment).symm
        rw [hc]
        exact ⟨_, .key⟩
      · have hc : c = orElse (labelText config p.displayName) (relationNote targets) :=
          (Option.some.inj hcomment).symm
        rcases orElse_eq (labelText config p.displayName) (relationNote targets) with hlabel | hnote
        · exact ⟨_, .label (hc ▸ hlabel)⟩
        · rw [hc, hnote]
          exact ⟨_, .relation hkind⟩
    · exact hsingle hg

end Interface

namespace Output

open Interface (labelText orElse FieldComment)
open TypeScript (Returns codeLines_append)

variable {collection : Collection} {config : Config}

/-- A validator with a comment is the comment and then the validator. -/
theorem exists_schemaLines_eq {f : Zod.Field} {c : String} (hc : f.comment = some c)
    (hne : c ≠ "") : ∃ line, schemaLines f = ["  " ++ docComment [c] "" false, line] := by
  have hfilter : f.comment.filter (!·.isEmpty) = some c := by simp [hc, Option.filter, hne]
  have hbegin : "  /** " = "  " ++ "/** " := by decide
  refine ⟨"  " ++ f.name ++ ": " ++ f.schema.text ++ ",", ?_⟩
  rw [schemaLines, hfilter]
  simp only [Option.map_some, Option.toList_some, List.singleton_append, docComment, hbegin,
    String.append_assoc, String.empty_append]

/-- The comment of a field of a compound type in the part with the validators. -/
theorem exists_schemaLines {name : String} {p : Property} {t : CustomType} {f : Zod.Field}
    (ht : Zod.compoundOf? config p = some t) (hf : f ∈ Zod.fieldsOfProperty config name p) :
    ∃ e ∈ t.expand, ∃ comment line, schemaLines f = ["  " ++ comment, line] ∧
      (ClosedAtEnd comment ↔ ¬Closes (Zod.commentLabel config name p) ∧ ¬Closes e.suffix) := by
  simp only [Zod.fieldsOfProperty, ht, Zod.compoundFields, List.mem_map] at hf
  obtain ⟨e, he, rfl⟩ := hf
  obtain ⟨line, hline⟩ := exists_schemaLines_eq (f :=
    { name := Zod.partName name e.suffix, schema := Zod.ofEntry p e,
      comment := some (Zod.commentLabel config name p ++ " (" ++ e.suffix ++ ")") }) rfl (by simp)
  refine ⟨e, he, _, line, hline, ?_⟩
  rw [closedAtEnd_docComment_iff, TypeScript.closes_titled_iff, not_or]

/-! ## 5. Labels in comments -/

/-- No terminator is in what the comments of the interface show. -/
structure UncutInterface (i : Interface) : Prop where
  title : ¬Closes i.comment
  fields : ∀ f ∈ i.fields, Uncut f

theorem StandsUnder.same {d d' : TypeScript.Declaration} {shown shown' : String}
    (h : StandsUnder d shown) (h' : StandsUnder d' shown')
    (hbare : bareDeclaration d = bareDeclaration d') (hs : ¬Closes shown) (hs' : ¬Closes shown') :
    codeLines d.text = codeLines d'.text := by
  rw [h.code hs, h'.code hs', hbare]

theorem codeLines_interfaceDeclaration {i : Interface} (hcode : ReadsAsCode i)
    (huncut : UncutInterface i) :
    codeLines (interfaceDeclaration i).text
      = codeLines (interfaceHead i.name)
        ++ (i.fields.map InterfaceField.bare).flatMap (fun f => codeLines (fieldText f))
        ++ codeLines "\x7d" := by
  have hstands : StandsUnder (interfaceDeclaration i) i.comment := standsUnder rfl rfl
  have hbare : (bareDeclaration (interfaceDeclaration i)).text = (interfaceStatement i []).text :=
    text_bareDeclaration rfl
  rw [hstands.code huncut.title, hbare, codeLines_interface hcode huncut.fields, List.flatMap_map]

/-- **Two models that differ in their labels alone** have the same interface outside of comments,
as long as no terminator is in what the comments show. -/
theorem codeLines_interface_same {s t : Schema} (hsame : s.withoutLabels = t.withoutLabels)
    (hcode : ReadsAsCode (Interface.ofSchema collection config s))
    (hs : UncutInterface (Interface.ofSchema collection config s))
    (ht : UncutInterface (Interface.ofSchema collection config t)) :
    codeLines (interfaceDeclaration (Interface.ofSchema collection config s)).text
      = codeLines (interfaceDeclaration (Interface.ofSchema collection config t)).text := by
  have hname : s.name = t.name := congrArg (·.name) hsame
  have hfields : (Interface.ofSchema collection config s).fields.map InterfaceField.bare
      = (Interface.ofSchema collection config t).fields.map InterfaceField.bare := by
    simp only [Interface.ofSchema]
    rw [Interface.map_bare_fieldsOf, hsame, ← Interface.map_bare_fieldsOf]
  have hhead : interfaceHead (Interface.ofSchema collection config s).name
      = interfaceHead (Interface.ofSchema collection config t).name := congrArg interfaceHead hname
  have hcode' : ReadsAsCode (Interface.ofSchema collection config t) := by
    refine ⟨hhead ▸ hcode.head, fun f hf => ?_⟩
    have hmem : f.bare ∈ (Interface.ofSchema collection config s).fields.map InterfaceField.bare :=
      hfields ▸ List.mem_map_of_mem hf
    obtain ⟨g, hg, hbare⟩ := List.mem_map.1 hmem
    exact hbare ▸ hcode.fields g hg
  rw [codeLines_interfaceDeclaration hcode hs, codeLines_interfaceDeclaration hcode' ht, hhead,
    hfields]

/-- The label and what stands for it are shown by the enumeration, and the rest of it does not
depend on them. -/
theorem map_bare_ofSchema? (s : Schema) :
    (Enumeration.ofSchema? config s).map (fun e => bareDeclaration (enumDeclaration e))
      = (Enumeration.ofSchema? config s.withoutLabels).map
          (fun e => bareDeclaration (enumDeclaration e)) := by
  unfold Enumeration.ofSchema?
  have hkind : s.withoutLabels.isEnum = s.isEnum := rfl
  rw [hkind]
  split <;> rfl

theorem map_bare_ofProperty? (s : Schema) (name : String) (p : Property) :
    (InlineEnum.ofProperty? config s name p).map (fun x => bareDeclaration (inlineDeclaration x))
      = (InlineEnum.ofProperty? config s name p.withoutLabel).map
          (fun x => bareDeclaration (inlineDeclaration x)) := by
  have hvalues : InlineEnum.valuesOf p.withoutLabel = InlineEnum.valuesOf p := rfl
  unfold InlineEnum.ofProperty?
  simp only [hvalues]
  split
  · rfl
  · split <;> rfl

/-- What the comment of an entity or of the enumeration of a schema shows. -/
def schemaTitle (config : Config) (s : Schema) : String :=
  orElse (labelText config s.displayName) s.name

/-- What the comment of the enumeration of a plugin shows. -/
def pluginTitle (config : Config) (p : PluginEnum) : String :=
  orElse (labelText config p.displayName) p.name

/-- What the comment of the type of a property that lists values shows. -/
def propertyTitle (config : Config) (s : Schema) (name : String) (p : Property) : String :=
  orElse (labelText config p.displayName) (s.name ++ " " ++ name ++ " " ++ InlineEnum.noun p)

theorem standsUnder_ofSchema? {s : Schema} {e : Enumeration}
    (h : Enumeration.ofSchema? config s = some e) :
    StandsUnder (enumDeclaration e) (schemaTitle config s) := by
  unfold Enumeration.ofSchema? at h
  split at h
  · rw [← Option.some.inj h]
    exact standsUnder rfl rfl
  · exact nomatch h

theorem standsUnder_ofProperty? {s : Schema} {name : String} {p : Property} {x : InlineEnum}
    (h : InlineEnum.ofProperty? config s name p = some x) :
    StandsUnder (inlineDeclaration x) (propertyTitle config s name p) := by
  simp only [InlineEnum.ofProperty?] at h
  split at h
  · exact nomatch h
  · split at h
    all_goals
      rw [← Option.some.inj h]
      exact standsUnder rfl rfl

/-- **What holds of labels in comments.**  The comments of declarations and fields are closed at
their ends exactly if no terminator is in the texts that they are put together from, and as long as
that is so, other labels leave the declarations as they are outside of comments. -/
structure LabelsInComments (collection : Collection) (config : Config) : Prop where
  /-- The file of an entity begins with its interface, under its title. -/
  entity : ∀ s paths zod excluded pluginEnums,
    (baseModule (Interface.ofSchema collection config s) paths zod excluded
        pluginEnums).blocks.head?
        = some (.declaration (interfaceDeclaration (Interface.ofSchema collection config s))) ∧
      StandsUnder (interfaceDeclaration (Interface.ofSchema collection config s))
        (schemaTitle config s)
  /-- The file of an enumeration begins with it, under its title. -/
  enumeration : ∀ room e fallback f, enumModule room e fallback = .ok f →
    f.blocks.head? = some (.declaration (enumDeclaration e)) ∧
      (∀ s, Enumeration.ofSchema? config s = some e →
        StandsUnder (enumDeclaration e) (schemaTitle config s)) ∧
      ∀ p, e = Enumeration.ofPlugin config p →
        StandsUnder (enumDeclaration e) (pluginTitle config p)
  /-- The file of an alias begins with it. -/
  aliasFile : ∀ a, (aliasModule a).blocks.head? = some (.declaration (aliasDeclaration a))
  /-- The type of a property that lists values stands under the title of the property. -/
  property : ∀ s name p x, InlineEnum.ofProperty? config s name p = some x →
    StandsUnder (inlineDeclaration x) (propertyTitle config s name p)
  /-- A field stands under its comment. -/
  field : ∀ name p, ∀ f ∈ Interface.expand collection config name p, ∀ c, f.comment = some c →
    c ≠ "" → fieldText f = "  " ++ docComment [c] "" false ++ "\n" ++ fieldText f.bare ∧
      ∃ texts, FieldComment config name p c texts ∧
        (ClosedAtEnd (docComment [c] "" false) ↔ ∀ t ∈ texts, ¬Closes t)
  /-- A field of a compound type stands under its comment in the part with the validators. -/
  entry : ∀ name p t, Zod.compoundOf? config p = some t →
    ∀ f ∈ Zod.fieldsOfProperty config name p, ∃ e ∈ t.expand, ∃ comment line,
      schemaLines f = ["  " ++ comment, line] ∧
        (ClosedAtEnd comment ↔ ¬Closes (Zod.commentLabel config name p) ∧ ¬Closes e.suffix)
  /-- Other labels leave an interface as it is outside of comments. -/
  sameEntity : ∀ s t : Schema, s.withoutLabels = t.withoutLabels →
    ReadsAsCode (Interface.ofSchema collection config s) →
    UncutInterface (Interface.ofSchema collection config s) →
    UncutInterface (Interface.ofSchema collection config t) →
      codeLines (interfaceDeclaration (Interface.ofSchema collection config s)).text
        = codeLines (interfaceDeclaration (Interface.ofSchema collection config t)).text
  /-- Other labels leave the enumeration of a schema as it is outside of comments. -/
  sameEnumeration : ∀ s t : Schema, s.withoutLabels = t.withoutLabels →
    ¬Closes (schemaTitle config s) → ¬Closes (schemaTitle config t) →
    ∀ e e', Enumeration.ofSchema? config s = some e → Enumeration.ofSchema? config t = some e' →
      codeLines (enumDeclaration e).text = codeLines (enumDeclaration e').text
  /-- Another label leaves the enumeration of a plugin as it is outside of comments. -/
  samePlugin : ∀ p q : PluginEnum, p.withoutLabel = q.withoutLabel →
    ¬Closes (pluginTitle config p) → ¬Closes (pluginTitle config q) →
      codeLines (enumDeclaration (Enumeration.ofPlugin config p)).text
        = codeLines (enumDeclaration (Enumeration.ofPlugin config q)).text
  /-- Another label leaves the type of a property that lists values as it is outside of comments. -/
  sameProperty : ∀ s name, ∀ p q : Property, p.withoutLabel = q.withoutLabel →
    ¬Closes (propertyTitle config s name p) → ¬Closes (propertyTitle config s name q) →
    ∀ x y, InlineEnum.ofProperty? config s name p = some x →
      InlineEnum.ofProperty? config s name q = some y →
        codeLines (inlineDeclaration x).text = codeLines (inlineDeclaration y).text

/-- What is made of two things that agree without labels agrees without labels. -/
theorem eq_of_map_eq {f : α → β} {a b : α} {o o' : Option α} (h : o.map f = o'.map f)
    (ha : o = some a) (hb : o' = some b) : f a = f b := by
  subst ha hb
  exact Option.some.inj h

/-- **Labels in comments**: in every model and for all settings. -/
theorem labelsInComments (collection : Collection) (config : Config) :
    LabelsInComments collection config where
  entity _ _ _ _ _ := ⟨rfl, standsUnder rfl rfl⟩
  enumeration room e fallback f hf := by
    refine ⟨head?_enumModule hf, fun _ hs => standsUnder_ofSchema? hs, fun p hp => ?_⟩
    subst hp
    exact standsUnder rfl rfl
  aliasFile _ := rfl
  property _ _ _ _ h := standsUnder_ofProperty? h
  field name p f hf c hc hne := by
    obtain ⟨texts, htexts⟩ := Interface.exists_fieldComment hf hc
    refine ⟨fieldText_eq hc hne, texts, htexts, ?_⟩
    rw [closedAtEnd_docComment_iff, htexts.closes_iff]
    simp
  entry _ _ _ ht _ hf := exists_schemaLines ht hf
  sameEntity _ _ hsame hcode hs ht := codeLines_interface_same hsame hcode hs ht
  sameEnumeration s t hsame hs ht e e' he he' := by
    have hbare : (Enumeration.ofSchema? config s).map (fun e => bareDeclaration (enumDeclaration e))
        = (Enumeration.ofSchema? config t).map (fun e => bareDeclaration (enumDeclaration e)) := by
      rw [map_bare_ofSchema?, hsame, ← map_bare_ofSchema?]
    have hdeclarations := eq_of_map_eq hbare he he'
    exact (standsUnder_ofSchema? he).same (standsUnder_ofSchema? he') hdeclarations hs ht
  samePlugin p q hsame hp hq := by
    have hplain (r : PluginEnum) : bareDeclaration (enumDeclaration (Enumeration.ofPlugin config r))
        = bareDeclaration (enumDeclaration (Enumeration.ofPlugin config r.withoutLabel)) := rfl
    have hbare : bareDeclaration (enumDeclaration (Enumeration.ofPlugin config p))
        = bareDeclaration (enumDeclaration (Enumeration.ofPlugin config q)) := by
      rw [hplain p, hsame, ← hplain q]
    exact (standsUnder rfl rfl).same (standsUnder rfl rfl) hbare hp hq
  sameProperty s name p q hsame hp hq x y hx hy := by
    have hbare : (InlineEnum.ofProperty? config s name p).map
          (fun x => bareDeclaration (inlineDeclaration x))
        = (InlineEnum.ofProperty? config s name q).map
          (fun x => bareDeclaration (inlineDeclaration x)) := by
      rw [map_bare_ofProperty?, hsame, ← map_bare_ofProperty?]
    have hdeclarations := eq_of_map_eq hbare hx hy
    exact (standsUnder_ofProperty? hx).same (standsUnder_ofProperty? hy) hdeclarations hp hq

/-- An entity with a label, and the label of its property. -/
def labelled (title label : String) : Schema :=
  { name := "User", displayName := some (.plain title),
    properties := [("name",
      { tag := "String", kind := .primitive, displayName := some (.plain label) })],
    options := { id := false, timestamps := false } }

/-- Another title and another label of a property, and the same interface outside of comments. -/
theorem labelsInComments_user :
    (labelled "Account" "Full name").displayName ≠ (labelled "Person" "As written").displayName ∧
    codeLines (interfaceDeclaration
        (Interface.ofSchema ⟨[]⟩ {} (labelled "Account" "Full name"))).text
      = codeLines (interfaceDeclaration
          (Interface.ofSchema ⟨[]⟩ {} (labelled "Person" "As written"))).text := by
  refine ⟨by decide, (labelsInComments ⟨[]⟩ {}).sameEntity _ _ rfl ⟨?_, ?_⟩ ⟨?_, ?_⟩ ⟨?_, ?_⟩⟩
  all_goals decide +kernel

/-- A title that ends its comment: what follows is read as code, and the rest of the comment is
read as the beginning of another one. -/
theorem terminator_leaves_comment :
    let cut := interfaceDeclaration (Interface.ofSchema ⟨[]⟩ {} (labelled "*/ x(); /*" "Name"))
    let plain := interfaceDeclaration (Interface.ofSchema ⟨[]⟩ {} (labelled "User" "Name"))
    ¬ClosedAtEnd (docComment ["*/ x(); /*"] "" true) ∧
      (codeLines cut.text).head? = some " x(); ".toList ∧
      (codeLines plain.text).head? = some "export interface User \x7b".toList := by
  intro cut plain
  refine ⟨fun h => ?_, ?_, ?_⟩
  · exact absurd ((closedAtEnd_docComment_iff _ _).1 h) (by decide)
  · decide +kernel
  · decide +kernel

end Output

end SchemaTypes
