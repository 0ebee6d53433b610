/-
# Texts in the target locale

Comments and labels show one text of a label by locale.  It is meant to be the text of the target
locale, that is of the chosen locale or, without one, of the default locale.  But what is asked for
is the chosen locale; without one the fallback locale goes first, and the default locale comes only
after it.

So a map that has a text for the target locale is shown with this text exactly if a locale was
chosen, or the fallback locale has no other text (`TargetFirst`).  `target_text_shown_iff` says so
of all comments of interfaces, fields and enumerations, which must moreover not be empty, since a
name stands for an empty text, and of the labels of all kinds of enumerations.
-/
import SchemaTypes.Enumeration
import SchemaTypes.Proofs.Locale

namespace SchemaTypes

open Interface (customTypeOf? expand labelText orElse)

variable {config : Config} {texts : List (String × String)} {t : String}

/-! ## 1. The text that is found -/

/-- The text of the target locale comes first: a locale was chosen, or the fallback locale has no
other text. -/
def TargetFirst (config : Config) (texts : List (String × String)) (t : String) : Prop :=
  (∃ l, config.locale = some l ∧ l ≠ "") ∨
    ∀ u, texts.lookup config.localeConfig.fallbackLocale = some u → u = t

/-- A chosen locale is the target, and it is the first that is looked for. -/
theorem labelText_of_chosen {l : String} (hlocale : config.locale = some l) (hl : l ≠ "")
    (h : texts.lookup config.targetLocale = some t) :
    labelText config (some (.byLocale texts)) = some t := by
  have htarget : config.targetLocale = l := by simp [Config.targetLocale, hlocale, hl]
  rw [htarget] at h
  rw [labelText, hlocale, Locale.resolve_locale, if_neg hl, h, Option.some_or]

/-- Without a chosen locale the default locale is the target, and it is looked for after the
fallback locale. -/
theorem labelText_of_not_chosen (hlocale : ¬∃ l, config.locale = some l ∧ l ≠ "")
    (h : texts.lookup config.targetLocale = some t) :
    labelText config (some (.byLocale texts))
      = some ((texts.lookup config.localeConfig.fallbackLocale).getD t) := by
  have hnone : config.locale.filter (!·.isEmpty) = none := by
    rw [Option.filter_eq_none_iff]
    intro l hl
    have hempty : l = "" := Classical.byContradiction fun hne => hlocale ⟨l, hl, hne⟩
    simp [hempty]
  have htarget : config.targetLocale = config.localeConfig.defaultLocale := by
    unfold Config.targetLocale
    split
    · rename_i l hl
      rw [if_pos]
      exact Classical.byContradiction fun hne => hlocale ⟨l, hl, by simpa using hne⟩
    · rfl
  rw [htarget] at h
  rw [labelText, Locale.resolve_byLocale, hnone, h]
  cases texts.lookup config.localeConfig.fallbackLocale <;> rfl

/-- **The text of the target locale is found** exactly if it comes first. -/
theorem labelText_eq_iff (h : texts.lookup config.targetLocale = some t) :
    labelText config (some (.byLocale texts)) = some t ↔ TargetFirst config texts t := by
  by_cases hlocale : ∃ l, config.locale = some l ∧ l ≠ ""
  · obtain ⟨l, hl, hne⟩ := hlocale
    exact iff_of_true (labelText_of_chosen hl hne h) (.inl ⟨l, hl, hne⟩)
  · rw [labelText_of_not_chosen hlocale h, TargetFirst, or_iff_right hlocale, Option.some.injEq]
    cases texts.lookup config.localeConfig.fallbackLocale with
    | none => simp
    | some u => simp

/-! ## 2. Where it is shown -/

/-- What the comments of the fields of a property say if its label has the text. -/
def fieldComments (config : Config) (name : String) (p : Property) (t : String) :
    List (Option String) :=
  match customTypeOf? config p with
  | some type =>
    if type.compound then
      type.expand.map (fun e => some (t ++ " (" ++ e.suffix ++ ")"))
        ++ type.accessors.map fun _ => some (t ++ " (computed)")
    else [some t]
  | none =>
    match p.kind with
    | .association "MorphTo" _ _ =>
      [some ("Polymorphic type for " ++ name), some ("Polymorphic ID for " ++ name), some t]
    | _ => [some t]

/-- The comment of the type of a property that lists values. -/
def InlineEnum.comment : InlineEnum → String
  | .enum _ _ e => e.comment
  | .alias _ _ a => a.comment

/-- Where the map is the label, the comments of all kinds say the text. -/
structure CommentsShow (config : Config) (texts : List (String × String)) (t : String) : Prop where
  entity : ∀ collection (s : Schema), s.displayName = some (.byLocale texts) →
    (Interface.ofSchema collection config s).comment = t
  field : ∀ collection name (p : Property), p.displayName = some (.byLocale texts) →
    (expand collection config name p).map (·.comment) = fieldComments config name p t
  enumeration : ∀ (s : Schema) e, s.displayName = some (.byLocale texts) →
    Enumeration.ofSchema? config s = some e → e.comment = t
  plugin : ∀ p : PluginEnum, p.displayName = some (.byLocale texts) →
    (Enumeration.ofPlugin config p).comment = t
  inline : ∀ s name (p : Property) x, p.displayName = some (.byLocale texts) →
    InlineEnum.ofProperty? config s name p = some x → x.comment = t

/-- The members of the values whose label is the map have the text as their label. -/
def MembersShow (texts : List (String × String)) (t : String) (values : List EnumValue)
    (members : List EnumMember) : Prop :=
  List.Forall₂ (fun v m => v.label = some (.byLocale texts) → m.label = some (.plain t))
    values members

/-- Where the map is the label of a value, the labels in enumerations of all kinds are the text. -/
structure LabelsShow (config : Config) (texts : List (String × String)) (t : String) : Prop where
  enumeration : ∀ (s : Schema) e, Enumeration.ofSchema? config s = some e →
    MembersShow texts t s.values e.members
  plugin : ∀ p : PluginEnum, MembersShow texts t p.values (Enumeration.ofPlugin config p).members
  inline : ∀ s name (p : Property) schema property e,
    InlineEnum.ofProperty? config s name p = some (.enum schema property e) →
      MembersShow texts t (InlineEnum.valuesOf p) e.members

theorem orElse_of_ne {name : String} (h : t ≠ "") : orElse (some t) name = t := by
  simp [orElse, Option.filter, h]

/-- A property without a plugin type that is no relation to one of several entities is one field. -/
theorem fieldComments_single (config : Config) (name t : String) {p : Property}
    (hcustom : customTypeOf? config p = none)
    (hother : ∀ target targets, p.kind ≠ .association "MorphTo" target targets) :
    fieldComments config name p t = [some t] := by
  rw [fieldComments, hcustom]
  dsimp only
  split
  · rename_i hkind
    exact absurd hkind (hother _ _)
  · rfl

/-- The comments of the fields of a property whose label has a text. -/
theorem map_comment_expand (collection : Collection) (name : String) {p : Property}
    (h : labelText config p.displayName = some t) (hne : t ≠ "") :
    (expand collection config name p).map (·.comment) = fieldComments config name p t := by
  have hpolicy : ((·.comment) ∘ Interface.applyNullPolicy config.strictNullChecks)
      = (InterfaceField.comment ·) := by
    funext f
    simp only [Function.comp_apply, Interface.applyNullPolicy]
    split <;> rfl
  rw [expand, List.map_map, hpolicy, Interface.expandStrict, h]
  cases hcustom : customTypeOf? config p with
  | some type =>
    rw [fieldComments, hcustom]
    dsimp only
    split
    · rw [orElse_of_ne hne, Interface.compoundFields, List.map_append, List.map_map, List.map_map]
      rfl
    · rfl
  | none =>
    dsimp only
    split
    · rename_i hkind
      rw [fieldComments, hcustom, hkind, Interface.oneOfFields, orElse_of_ne hne]
      rfl
    · rename_i hother
      rw [fieldComments_single config name t hcustom hother]
      rfl

/-- The comment of the type of a property that lists values and whose label has a text. -/
theorem comment_of_ofProperty? {s : Schema} {name : String} {p : Property} {x : InlineEnum}
    (h : labelText config p.displayName = some t) (hne : t ≠ "")
    (hx : InlineEnum.ofProperty? config s name p = some x) : x.comment = t := by
  simp only [InlineEnum.ofProperty?, h, orElse_of_ne hne] at hx
  split at hx
  · exact nomatch hx
  · split at hx
    all_goals
      rw [← Option.some.inj hx]
      rfl

/-- If the text of the target locale is found and is not empty, all comments show it. -/
theorem CommentsShow.of_labelText (h : labelText config (some (.byLocale texts)) = some t)
    (hne : t ≠ "") : CommentsShow config texts t where
  entity _ s hs := by
    show orElse (labelText config s.displayName) s.name = t
    rw [hs, h, orElse_of_ne hne]
  field collection name p hp := map_comment_expand collection name (hp ▸ h) hne
  enumeration s e hs he := by
    unfold Enumeration.ofSchema? at he
    split at he
    · rw [← Option.some.inj he]
      show orElse (labelText config s.displayName) s.name = t
      rw [hs, h, orElse_of_ne hne]
    · exact nomatch he
  plugin p hp := by
    show orElse (labelText config p.displayName) p.name = t
    rw [hp, h, orElse_of_ne hne]
  inline _ _ _ _ hp hx := comment_of_ofProperty? (hp ▸ h) hne hx

/-- Comments that show the text for every name show the text that is found, which is not empty: else
the name would stand for it. -/
theorem CommentsShow.labelText_eq (h : CommentsShow config texts t) (htexts : texts ≠ []) :
    labelText config (some (.byLocale texts)) = some t ∧ t ≠ "" := by
  obtain ⟨u, hu⟩ : ∃ u, labelText config (some (.byLocale texts)) = some u := by
    refine Option.ne_none_iff_exists'.1 fun hnone => ?_
    simpa [htexts] using (Locale.resolve_eq_none_iff _ _ _).1 hnone
  have hall (name : String) : orElse (some u) name = t := by
    have := h.entity ⟨[]⟩ { name := name, displayName := some (.byLocale texts) } rfl
    rwa [← hu]
  have hne : u ≠ "" := by
    rintro rfl
    have hstar : "*" = t := hall "*"
    have hplus : "+" = t := hall "+"
    exact absurd (hstar.trans hplus.symm) (by decide)
  have hut : u = t := (orElse_of_ne hne).symm.trans (hall "")
  exact ⟨hut ▸ hu, hut ▸ hne⟩

/-- Without maps as labels the label of a value is the text that is found. -/
theorem label_ofValue (hsingle : config.multiLocale = false) (v : EnumValue) :
    (EnumMember.ofValue config v).label = (labelText config v.label).map .plain := by
  simp only [EnumMember.ofValue, Locale.resolveOrKeep, hsingle]
  rfl

theorem membersShow_ofValue (hsingle : config.multiLocale = false)
    (h : labelText config (some (.byLocale texts)) = some t) (values : List EnumValue) :
    MembersShow texts t values (values.map (EnumMember.ofValue config)) := by
  refine List.forall₂_map_right_iff.2 (List.forall₂_same.2 fun v _ hv => ?_)
  rw [label_ofValue hsingle, hv, h, Option.map_some]

/-- If the text of the target locale is found, all labels show it. -/
theorem LabelsShow.of_labelText (hsingle : config.multiLocale = false)
    (h : labelText config (some (.byLocale texts)) = some t) : LabelsShow config texts t where
  enumeration s e he := by
    unfold Enumeration.ofSchema? at he
    split at he
    · rw [← Option.some.inj he]
      exact membersShow_ofValue hsingle h s.values
    · exact nomatch he
  plugin p := membersShow_ofValue hsingle h p.values
  inline s name p schema property e he := by
    simp only [InlineEnum.ofProperty?] at he
    split at he
    · exact nomatch he
    · split at he
      · injection Option.some.inj he with _ _ hmembers
        rw [← hmembers]
        exact membersShow_ofValue hsingle h _
      · exact nomatch he

/-- Labels that show the text show the text that is found. -/
theorem LabelsShow.labelText_eq (hsingle : config.multiLocale = false)
    (h : LabelsShow config texts t) : labelText config (some (.byLocale texts)) = some t := by
  -- One plugin enumeration with one value is enough.
  have hmembers := h.plugin
    { name := "", values := [{ value := "", label := some (.byLocale texts) }] }
  have hlabel := (List.forall₂_cons.1 hmembers).1 rfl
  rw [label_ofValue hsingle] at hlabel
  obtain ⟨u, hu, hplain⟩ := Option.map_eq_some_iff.1 hlabel
  injection hplain with heq
  exact heq ▸ hu

/-- **The text of the target locale is shown** in all comments exactly if it comes first and is not
empty, and in all labels, unless these keep their maps, exactly if it comes first. -/
theorem target_text_shown_iff (h : texts.lookup config.targetLocale = some t) :
    (CommentsShow config texts t ↔ TargetFirst config texts t ∧ t ≠ "") ∧
      (config.multiLocale = false → (LabelsShow config texts t ↔ TargetFirst config texts t)) := by
  have htexts : texts ≠ [] := by
    rintro rfl
    exact nomatch h
  rw [← labelText_eq_iff h]
  exact ⟨⟨fun hshow => hshow.labelText_eq htexts, fun ⟨htext, hne⟩ => .of_labelText htext hne⟩,
    fun hsingle => ⟨fun hshow => hshow.labelText_eq hsingle, .of_labelText hsingle⟩⟩

/-- A label with an English and a Japanese text. -/
def memberLabel : List (String × String) := [("en", "Member"), ("ja", "会員")]

/-- The chosen locale is the target, and its text is shown everywhere. -/
theorem target_text_shown_chosen :
    let config : Config := { locale := some "ja" }
    CommentsShow config memberLabel "会員" ∧ LabelsShow config memberLabel "会員" := by
  intro config
  have htarget : memberLabel.lookup config.targetLocale = some "会員" := by decide
  have h := target_text_shown_iff htarget
  have hfirst : TargetFirst config memberLabel "会員" := .inl ⟨"ja", rfl, by decide⟩
  exact ⟨h.1.2 ⟨hfirst, by decide⟩, (h.2 rfl).2 hfirst⟩

/-- Without a chosen locale the default locale is the target, but the text of the fallback locale is
shown: in the comment of an entity and in the label of a value. -/
theorem target_text_not_shown :
    let config : Config := { localeConfig := { locales := ["en", "ja"], defaultLocale := "ja" } }
    memberLabel.lookup config.targetLocale = some "会員" ∧
      (Interface.ofSchema ⟨[]⟩ config
        { name := "User", displayName := some (.byLocale memberLabel) }).comment = "Member" ∧
      (EnumMember.ofValue config
        { value := "member", label := some (.byLocale memberLabel) }).label
          = some (.plain "Member") := by
  decide

end SchemaTypes
