/-
# Spacing of the planned files

The shared files and the index have solid parts like the other files (`sound_commonModule`,
`sound_i18nModule`, `sound_indexModule`).  So, by cases on where a module comes from, every planned
file ends with one line break, and has no two blank lines in a row if the texts of the snapshot that
are not printed as JSON are on one line (`files_spaced`).
-/
import SchemaTypes.Proofs.Output.EntitySpacing
import SchemaTypes.Proofs.Output.Writable

namespace SchemaTypes.Output

open Text TypeScript

variable {config : Config} {paths : ImportPaths}

/-! ## 1. Common types -/

/-- **The file of the common types has solid parts.** -/
theorem sound_commonModule (h : config.localeConfig.IsUnbroken) : (commonModule config).Sound := by
  refine ⟨forall_mem_some.2 solid_defaultHeader, List.forall_mem_nil _, ?_⟩
  refine List.forall_mem_cons.2 ⟨?_, List.forall_mem_cons.2 ⟨?_, List.forall_mem_cons.2 ⟨?_,
    List.forall_mem_cons.2 ⟨?_, List.forall_mem_singleton.2 ?_⟩⟩⟩⟩
  · exact solid_declare (.interface (by decide) (by simp) (solid_of_lines (by decide)))
      (by simp +decide) _
  · exact solid_declare (.typeAlias (by decide) (TypeExpr.unbroken_literalUnion h.locales))
      (by simp +decide) _
  · refine solid_declare (.interface (by decide) (by simp) (solid_of_lines (by decide)))
      (forall_mem_some.2 ?_) _
    exact List.forall_mem_cons.2 ⟨unbroken_chars (by decide), List.forall_mem_singleton.2
      (unbroken_append.2 ⟨unbroken_chars (by decide), unbroken_chars (by decide)⟩)⟩
  · exact solid_declare (.typeAlias (by decide) (by decide)) (by simp +decide) _
  · exact solid_declare (.typeAlias (by decide) (by decide)) (by simp +decide) _

/-- **The file of the common types ends with one line break.** -/
theorem endsOnce_commonModule (config : Config) : EndsOnce (commonModule config).text := by
  refine SourceFile.endsOnce_text (show (commonModule config).blocks = [_, _, _, _] ++ [_] from rfl)
    ?_
  exact firm_declare (by simp) _ _

/-! ## 2. Internationalisation -/

/-- A table of messages is solid whatever the messages are. -/
theorem solid_messageTableText (table : MessageTable) : Solid (messageTableText table) := by
  refine Json.solid_braces fun t ht => ?_
  obtain ⟨e, -, rfl⟩ := List.mem_map.1 ht
  refine Unbroken.append_solid ?_ (Json.solid_braces fun u hu => ?_)
  · exact unbroken_append.2 ⟨Json.unbroken_text e.1, by decide⟩
  · obtain ⟨m, -, rfl⟩ := List.mem_map.1 hu
    have htext : Unbroken (Json.text m.1 ++ ": " ++ Json.text m.2) :=
      unbroken_between (Json.unbroken_text m.1) (by decide) (Json.unbroken_text m.2)
    exact htext.solid (by simp)

theorem solid_messageLookup {indent : String} (h : Unbroken indent) :
    Solid (messageLookup indent) := by
  have hfirst : Solid "(messages as LocaleMap)[locale]" :=
    (unbroken_chars (by decide)).solid (by simp)
  have hlater {t : String} (ht : Unbroken t) (hne : t ≠ "") : Solid (indent ++ t) :=
    h.append_solid (ht.solid hne)
  have hall := ((hfirst.below
      (hlater (t := "?? (messages as LocaleMap)[fallbackLocale]") (unbroken_chars (by decide))
        (by simp))).below
      (hlater (t := "?? (messages as LocaleMap)[defaultLocale]") (unbroken_chars (by decide))
        (by simp))).below
      (hlater (t := "?? key;") (by decide) (by simp))
  change Solid ("(messages as LocaleMap)[locale]" ++ "\n"
    ++ indent ++ ("?? (messages as LocaleMap)[fallbackLocale]" ++ "\n")
    ++ indent ++ ("?? (messages as LocaleMap)[defaultLocale]" ++ "\n")
    ++ indent ++ "?? key;")
  -- the line breaks have to stay apart from the lines
  simpa only [String.append_assoc, -String.reduceAppend] using hall

/-- The body has blank lines, each between two of its parts. -/
theorem solid_getMessageBlock : Solid getMessageBlock.text := by
  have hparams : Solid ("(" ++ ("\n  key: string,\n  locale: string,\n"
      ++ "  params: Record<string, string | number> = \x7b\x7d\n") ++ ")") := by
    have hlines : ∀ l ∈ ["  key: string,", "  locale: string,",
        "  params: Record<string, string | number> = \x7b\x7d"], Solid l :=
      solid_of_lines (by decide)
    have hbetween := solid_between (a := "(") (b := ")") (Unbroken.solid (by decide) (by decide))
      (Unbroken.solid (by decide) (by decide)) hlines
    exact hbetween
  refine solid_declare (.function (by decide) hparams (by decide) ?_) ?_ _
  · change SolidBody ([_, _] ++ "" :: ([_] ++ "" :: ([_, _, _, _] ++ "" :: [_])))
    refine .apart (solidBody_of_lines (by simp) (solid_of_lines ?_)) (.apart
      (solidBody_of_lines (by simp) (List.forall_mem_singleton.2 ?_)) (.apart
      (solidBody_of_lines (by simp) (solid_of_lines ?_))
      (solidBody_of_lines (by simp) (solid_of_lines (by decide)))))
    · exact lines_cons (unbroken_chars (by decide)) (by simp) (by decide)
    · exact Unbroken.append_solid (by decide) (solid_messageLookup (by decide))
    · exact lines_cons (by decide) (by simp) (lines_cons (unbroken_chars (by decide)) (by simp)
        (lines_cons (unbroken_append.2 ⟨by decide, unbroken_chars (by decide)⟩) (by simp)
          (by decide)))
  · refine forall_mem_some.2 ?_
    exact List.forall_mem_cons.2 ⟨unbroken_chars (by decide), List.forall_mem_cons.2
      ⟨unbroken_chars (by decide), List.forall_mem_cons.2 ⟨by decide, List.forall_mem_cons.2
      ⟨unbroken_chars (by decide), List.forall_mem_cons.2 ⟨unbroken_chars (by decide),
      List.forall_mem_cons.2 ⟨unbroken_chars (by decide), List.forall_mem_singleton.2
        (by decide)⟩⟩⟩⟩⟩⟩

theorem solid_getMessagesBlock : Solid getMessagesBlock.text := by
  have hparams : Solid ("(" ++ "locale: string" ++ ")") := Unbroken.solid (by decide) (by simp)
  refine solid_declare (.function (by decide) hparams (by decide)
    (solidBody_of_lines (by simp) ?_)) ?_ _
  · refine List.forall_mem_cons.2 ⟨(unbroken_chars (by decide)).solid (by simp),
      List.forall_mem_cons.2 ⟨(unbroken_chars (by decide)).solid (by simp),
      List.forall_mem_cons.2 ⟨?_, solid_of_lines (by decide)⟩⟩⟩
    exact Unbroken.append_solid (by decide) (solid_messageLookup (by decide))
  · refine forall_mem_some.2 ?_
    exact List.forall_mem_cons.2 ⟨unbroken_chars (by decide), List.forall_mem_cons.2 ⟨by decide,
      List.forall_mem_cons.2 ⟨by decide, List.forall_mem_singleton.2
        (unbroken_chars (by decide))⟩⟩⟩

/-- **The internationalisation module has solid parts**, also without locales. -/
theorem sound_i18nModule (h : config.localeConfig.IsUnbroken) (hpaths : paths.IsUnbroken) :
    (i18nModule config paths).Sound := by
  have hconst {name value : String} (hname : Unbroken name) (hvalue : Solid value) :
      (Statement.const true name none (value ++ " as const")).Sound :=
    .const hname (by simp) (hvalue.append_unbroken (by decide))
  refine ⟨forall_mem_some.2 solid_defaultHeader, ?_, ?_⟩
  · exact List.forall_mem_singleton.2 (solid_import ["LocaleMap"] (by decide) hpaths.commonFromRoot)
  · refine List.forall_mem_cons.2 ⟨?_, List.forall_mem_cons.2 ⟨?_, List.forall_mem_cons.2 ⟨?_,
      List.forall_mem_cons.2 ⟨?_, List.forall_mem_cons.2
        ⟨solid_getMessageBlock, List.forall_mem_singleton.2 solid_getMessagesBlock⟩⟩⟩⟩⟩
    · exact solid_declare (hconst (by decide) ((unbroken_quote h.defaultLocale).solid
        (by simp [quote]))) (by simp +decide) _
    · exact solid_declare (hconst (by decide) ((unbroken_quote h.fallbackLocale).solid
        (by simp [quote]))) (by simp +decide) _
    · exact solid_declare (hconst (by decide) (Json.solid_texts _)) (by simp +decide) _
    · refine solid_declare (hconst (by decide) (solid_messageTableText _))
        (forall_mem_some.2 ?_) _
      exact List.forall_mem_cons.2 ⟨unbroken_chars (by decide),
        List.forall_mem_singleton.2 (unbroken_chars (by decide))⟩

/-- **The internationalisation module ends with one line break.** -/
theorem endsOnce_i18nModule (config : Config) (paths : ImportPaths) :
    EndsOnce (i18nModule config paths).text := by
  refine SourceFile.endsOnce_text
    (show (i18nModule config paths).blocks = [_, _, _, _, _] ++ [_] from rfl) ?_
  exact firm_declare (by simp) _ _

/-! ## 3. The index -/

section Groups

variable {title : String} {items : List Block}

theorem solid_groupUnder (htitle : Unbroken title) (h : ∀ b ∈ items, Solid b.text) :
    ∀ b ∈ groupUnder title items, Solid b.text := by
  unfold groupUnder
  split
  · exact fun _ hb => nomatch hb
  · exact List.forall_mem_singleton.2
      (solid_group (by simp) (List.forall_mem_cons.2 ⟨solid_comment htitle, h⟩))

theorem firm_groupUnder (h : ∀ b ∈ items, Firm b.text) :
    ∀ b ∈ groupUnder title items, Firm b.text := by
  unfold groupUnder
  split
  · exact fun _ hb => nomatch hb
  · rename_i hne
    have hitems : items ≠ [] := by simpa using hne
    rw [← List.dropLast_append_getLast hitems]
    exact List.forall_mem_singleton.2 (firm_group (_ :: _) (h _ (List.getLast_mem hitems)))

theorem firm_groupUnder_map {α : Type} {f : α → Block} (h : ∀ x, Firm (f x).text) (xs : List α) :
    ∀ b ∈ groupUnder title (xs.map f), Firm b.text := by
  refine firm_groupUnder fun b hb => ?_
  obtain ⟨x, -, rfl⟩ := List.mem_map.1 hb
  exact h x

theorem firm_groupUnder_flatMap {α : Type} {f : α → List Block} (h : ∀ x, ∀ b ∈ f x, Firm b.text)
    (xs : List α) : ∀ b ∈ groupUnder title (xs.flatMap f), Firm b.text := by
  refine firm_groupUnder fun b hb => ?_
  obtain ⟨x, -, hb⟩ := List.mem_flatMap.1 hb
  exact h x b hb

end Groups

theorem solid_enumExport {name module : String} (hname : Unbroken name) (hmodule : Unbroken module)
    (typeOnly : Bool) : Solid (enumExport name module typeOnly).text := by
  refine ExportDecl.solid_text (List.forall_mem_cons.2 ⟨⟨hname, fun _ ha => nomatch ha⟩, ?_⟩)
    (forall_mem_some.2 hmodule)
  exact isUnbroken_plain [name ++ "Values", "is" ++ name, "get" ++ name ++ "Label",
    "get" ++ name ++ "Extra"] (by simp +decide [hname])

variable {entities : List String}

theorem solid_zodEntityExports (hpaths : paths.IsUnbroken) {name : String} (h : Unbroken name) :
    ∀ b ∈ zodEntityExports paths name, Solid b.text := by
  have hlower := Naming.unbroken_lowerFirst h
  have hmodule : ∀ m ∈ some (paths.modelFromIndex name), Unbroken m :=
    forall_mem_some.2 (hpaths.module (by decide) h)
  refine List.forall_mem_cons.2 ⟨?_, List.forall_mem_singleton.2 ?_⟩
  · exact solid_export [name, name ++ "Create", name ++ "Update"] (by simp +decide [h]) hmodule
  · refine solid_export _ (List.forall_mem_append.2 ⟨?_, unbroken_labelHelpers h⟩) hmodule
    simp +decide [hlower]

theorem solid_plainEntityExports (hpaths : paths.IsUnbroken) {name : String} (h : Unbroken name) :
    ∀ b ∈ plainEntityExports paths name, Solid b.text := by
  refine List.forall_mem_cons.2 ⟨?_, List.forall_mem_singleton.2 ?_⟩
  · exact solid_export [name] (List.forall_mem_singleton.2 h)
      (forall_mem_some.2 (hpaths.module (by decide) h))
  · exact solid_export [name ++ "Create", name ++ "Update"] (by simp +decide [h])
      (forall_mem_some.2 (hpaths.module hpaths.base h))

theorem solid_ruleExport (hpaths : paths.IsUnbroken) {name : String} (h : Unbroken name) :
    Solid (ruleExport paths name).text :=
  solid_export ["get" ++ name ++ "Rules", "get" ++ name ++ "DisplayName",
    "get" ++ name ++ "PropertyDisplayName"] (by simp +decide [h])
      (forall_mem_some.2 (hpaths.module (by decide) (unbroken_append.2 ⟨h, by decide⟩)))

theorem solid_entityBlocks (hpaths : paths.IsUnbroken) (h : ∀ n ∈ entities, Unbroken n)
    (config : Config) : ∀ b ∈ entityBlocks entities config paths, Solid b.text := by
  unfold entityBlocks
  split
  · refine solid_groupUnder (unbroken_chars (by decide)) fun b hb => ?_
    obtain ⟨n, hn, hb⟩ := List.mem_flatMap.1 hb
    exact solid_zodEntityExports hpaths (h n hn) b hb
  · refine List.forall_mem_append.2
      ⟨solid_groupUnder (unbroken_chars (by decide)) fun b hb => ?_, ?_⟩
    · obtain ⟨n, hn, hb⟩ := List.mem_flatMap.1 hb
      exact solid_plainEntityExports hpaths (h n hn) b hb
    · split
      · refine solid_groupUnder (unbroken_chars (by decide)) fun b hb => ?_
        obtain ⟨n, hn, rfl⟩ := List.mem_map.1 hb
        exact solid_ruleExport hpaths (h n hn)
      · exact fun _ hb => nomatch hb

theorem firm_entityBlocks (entities : List String) (config : Config) (paths : ImportPaths) :
    ∀ b ∈ entityBlocks entities config paths, Firm b.text := by
  have hpair (d e : ExportDecl) : ∀ b ∈ [Block.exports d, .exports e], Firm b.text :=
    List.forall_mem_cons.2 ⟨firm_exports d, List.forall_mem_singleton.2 (firm_exports e)⟩
  unfold entityBlocks
  split
  · exact firm_groupUnder_flatMap (fun _ => hpair _ _) _
  · refine List.forall_mem_append.2 ⟨firm_groupUnder_flatMap (fun _ => hpair _ _) _, ?_⟩
    split
    · exact firm_groupUnder_map (fun _ => firm_exports _) _
    · exact List.forall_mem_nil _

variable {enums pluginEnums : List Enumeration} {aliases : List TypeAlias}

/-- **The index has solid parts**, whichever of its groups are empty. -/
theorem sound_indexModule (hentities : ∀ n ∈ entities, Unbroken n)
    (henums : ∀ e ∈ enums, Unbroken e.name) (hplugins : ∀ e ∈ pluginEnums, Unbroken e.name)
    (haliases : ∀ a ∈ aliases, Unbroken a.name) (hpaths : paths.IsUnbroken) (config : Config) :
    (indexModule entities enums pluginEnums aliases config paths).Sound := by
  refine ⟨forall_mem_some.2 solid_defaultHeader, List.forall_mem_nil _, ?_⟩
  refine List.forall_mem_append.2 ⟨List.forall_mem_append.2 ⟨List.forall_mem_append.2
    ⟨List.forall_mem_append.2 ⟨List.forall_mem_cons.2 ⟨?_, List.forall_mem_singleton.2 ?_⟩, ?_⟩,
      ?_⟩, ?_⟩, solid_entityBlocks hpaths hentities config⟩
  · refine solid_group (by simp) (List.forall_mem_cons.2 ⟨solid_comment (by decide),
      List.forall_mem_singleton.2 (solid_export commonNames (by decide) ?_)⟩)
    exact forall_mem_some.2 hpaths.commonFromRoot
  · refine solid_group (by simp) (List.forall_mem_cons.2 ⟨solid_comment (by decide),
      List.forall_mem_singleton.2 (solid_export i18nNames (by decide) ?_)⟩)
    exact forall_mem_some.2 hpaths.i18nFromRoot
  · refine solid_groupUnder (by decide) fun b hb => ?_
    obtain ⟨e, he, rfl⟩ := List.mem_map.1 hb
    exact solid_enumExport (henums e he) (hpaths.module hpaths.indexEnums (henums e he)) _
  · refine solid_groupUnder (by decide) fun b hb => ?_
    obtain ⟨e, he, rfl⟩ := List.mem_map.1 hb
    exact solid_enumExport (hplugins e he) (hpaths.module hpaths.indexPluginEnums (hplugins e he)) _
  · refine solid_groupUnder (by decide) fun b hb => ?_
    obtain ⟨a, ha, rfl⟩ := List.mem_map.1 hb
    exact solid_enumExport (haliases a ha) (hpaths.module hpaths.indexEnums (haliases a ha)) _

/-- **The index ends with one line break.** -/
theorem endsOnce_indexModule (entities : List String) (enums pluginEnums : List Enumeration)
    (aliases : List TypeAlias) (config : Config) (paths : ImportPaths) :
    EndsOnce (indexModule entities enums pluginEnums aliases config paths).text := by
  refine SourceFile.endsOnce_of_forall (by simp [indexModule]) ?_
  refine List.forall_mem_append.2 ⟨List.forall_mem_append.2 ⟨List.forall_mem_append.2
    ⟨List.forall_mem_append.2 ⟨List.forall_mem_cons.2 ⟨?_, List.forall_mem_singleton.2 ?_⟩,
      firm_groupUnder_map (fun _ => firm_exports _) _⟩,
      firm_groupUnder_map (fun _ => firm_exports _) _⟩,
      firm_groupUnder_map (fun _ => firm_exports _) _⟩, firm_entityBlocks entities config paths⟩
  · exact firm_group [_] (firm_exports _)
  · exact firm_group [_] (firm_exports _)

/-! ## 4. The plan -/

variable {collection : Collection} {m : PlannedModule}

theorem sound_planEnum {room : Nat} {e : Enumeration} (he : e.IsUnbroken)
    (hconfig : config.IsUnbroken) (h : planEnum room config e = .ok m) : m.source.Sound := by
  obtain ⟨source, hsource, rfl⟩ := planEnum_eq_ok_iff.1 h
  exact sound_enumModule he hconfig.localeConfig.fallbackLocale hsource

theorem endsOnce_planEnum {room : Nat} {e : Enumeration} (h : planEnum room config e = .ok m) :
    EndsOnce m.source.text := by
  obtain ⟨source, hsource, rfl⟩ := planEnum_eq_ok_iff.1 h
  exact endsOnce_enumModule hsource

theorem sound_planBase (hcollection : collection.IsUnbroken) (hconfig : config.IsUnbroken)
    {s : Schema} (hs : s.IsUnbroken) (hpaths : paths.IsUnbroken) :
    (planBase collection config paths s).source.Sound := by
  have hi := Interface.isUnbroken_ofSchema hcollection hconfig hs
  have hexcluded := Zod.unbroken_excludedList hconfig hs
  rw [planBase]
  split
  · refine sound_baseModule hi hpaths (fun z hz => ?_) hexcluded _
    obtain rfl := Option.some.inj hz
    exact ⟨Zod.isUnbroken_fieldsOf hconfig hs, DisplayNames.isUnbroken_ofSchema hconfig hs⟩
  · exact sound_baseModule hi hpaths (by simp)
      (fun n hn => hexcluded n (List.mem_filter.1 hn).1) _

theorem sound_planIndex (hcollection : collection.IsUnbroken) (hconfig : config.IsUnbroken)
    (hpaths : paths.IsUnbroken) : (planIndex collection config paths).source.Sound := by
  have hinline := InlineEnum.isUnbroken_all hcollection config
  refine sound_indexModule ?_ (List.forall_mem_append.2 ⟨?_, ?_⟩) ?_ ?_ hpaths config
  · intro n hn
    obtain ⟨s, hs, rfl⟩ := List.mem_map.1 hn
    exact (hcollection.objectSchemas s (List.mem_filter.1 hs).1).name
  · exact fun e he => (Enumeration.isUnbroken_all hcollection config e he).name
  · intro e he
    obtain ⟨x, hx, hsome⟩ := List.mem_filterMap.1 he
    rcases x with ⟨_, _, d⟩ | ⟨_, _, a⟩
    · exact Option.some.inj hsome ▸ Enumeration.IsUnbroken.name (hinline _ hx)
    · exact nomatch hsome
  · exact fun e he => (Enumeration.isUnbroken_allPlugin hconfig e he).name
  · intro a ha
    obtain ⟨x, hx, hsome⟩ := List.mem_filterMap.1 ha
    rcases x with ⟨_, _, d⟩ | ⟨_, _, b⟩
    · exact nomatch hsome
    · exact Option.some.inj hsome ▸ TypeAlias.IsUnbroken.name (hinline _ hx)

/-- **Every planned module has solid parts** if the snapshot is on one line. -/
theorem Origin.sound (h : Origin collection config m) (hcollection : collection.IsUnbroken)
    (hconfig : config.IsUnbroken) : m.source.Sound := by
  have hpaths := ImportPaths.isUnbroken_ofConfig hconfig
  have hvisible : ∀ s ∈ visibleSchemas collection, s.IsUnbroken := fun s hs =>
    hcollection.objectSchemas s (List.mem_filter.1 hs).1
  cases h with
  | schemaEnum mem eq =>
    exact sound_planEnum (Enumeration.isUnbroken_all hcollection config _ mem) hconfig eq
  | pluginEnum mem eq =>
    exact sound_planEnum (Enumeration.isUnbroken_allPlugin hconfig _ mem) hconfig eq
  | @inline x m mem eq =>
    have hx := InlineEnum.isUnbroken_all hcollection config x mem
    rcases x with ⟨_, _, e⟩ | ⟨_, _, a⟩
    · exact sound_planEnum hx hconfig eq
    · exact Except.ok.inj eq ▸ sound_aliasModule hx
  | base mem => exact sound_planBase hcollection hconfig (hvisible _ mem) hpaths
  | model mem => exact sound_modelModule (hvisible _ mem).name hpaths _
  | rules _ mem =>
    have hs := hvisible _ mem
    exact sound_rulesModule hs.name (EntityRules.isUnbroken_ofSchema hs config) hpaths
  | common => exact sound_commonModule hconfig.localeConfig
  | i18n => exact sound_i18nModule hconfig.localeConfig hpaths
  | index => exact sound_planIndex hcollection hconfig hpaths

/-- **Every planned module ends with one line break.** -/
theorem Origin.endsOnce (h : Origin collection config m) : EndsOnce m.source.text := by
  cases h with
  | schemaEnum mem eq => exact endsOnce_planEnum eq
  | pluginEnum mem eq => exact endsOnce_planEnum eq
  | @inline x m mem eq =>
    rcases x with ⟨_, _, e⟩ | ⟨_, _, a⟩
    · exact endsOnce_planEnum eq
    · exact Except.ok.inj eq ▸ endsOnce_aliasModule a
  | base mem =>
    rw [planBase]
    split <;> exact endsOnce_baseModule _ _ _ _ _
  | model mem => exact endsOnce_modelModule _ _ _
  | rules _ mem => exact endsOnce_rulesModule _ _ _
  | common => exact endsOnce_commonModule config
  | i18n => exact endsOnce_i18nModule config _
  | index => exact endsOnce_indexModule _ _ _ _ config _

/-- **Every planned file is spaced as promised.**  It ends with one line break and no more, and has
no two blank lines in a row if the texts of the snapshot are on one line.  Messages, placeholders
and further data may have line breaks even then, for they are printed as JSON. -/
theorem files_spaced {files : List GeneratedFile} (h : plan collection config = .ok files) :
    ∀ f ∈ files, EndsOnce f.content ∧
      (collection.IsUnbroken → config.IsUnbroken → ¬twoBlankLines <:+: f.content.toList) := by
  obtain ⟨ms, hms, rfl⟩ := plan_eq_ok_iff.1 h
  intro f hf
  obtain ⟨m, hm, rfl⟩ := List.mem_map.1 hf
  have horigin := (mem_planModules_iff hms m).1 hm
  exact ⟨horigin.endsOnce, fun hcollection hconfig =>
    (horigin.sound hcollection hconfig).spaced_text⟩

/-- An enumeration without members and an entity with no field of its own. -/
def bare : Collection := ⟨[{ name := "Role", kind := .enum }, { name := "User" }]⟩

/-- No locales and no validators, but files of rules. -/
def bareConfig : Config :=
  { localeConfig := { locales := [] }, generateZodSchemas := false, generateRules := true }

theorem files_spaced_bare :
    (∃ files, plan bare bareConfig = .ok files) ∧ bare.IsUnbroken ∧ bareConfig.IsUnbroken ∧
      ∀ files, plan bare bareConfig = .ok files → ∀ f ∈ files, EndsOnce f.content ∧
        ¬twoBlankLines <:+: f.content.toList := by
  have hplan : ∃ files, plan bare bareConfig = .ok files :=
    isOk_iff.1 ((plan_isOk_iff (by decide)).2 ⟨by decide, by decide⟩)
  have hnone {α : Type} {P : α → Prop} : ∀ x ∈ ([] : List α), P x := fun _ hx => nomatch hx
  have hlabel : ∀ l ∈ (none : Option Label), l.IsUnbroken := fun _ hl => nomatch hl
  have hbare : bare.IsUnbroken := List.forall_mem_cons.2
    ⟨⟨by decide, hlabel, hnone, hnone⟩,
      List.forall_mem_singleton.2 ⟨by decide, hlabel, hnone, hnone⟩⟩
  have hconfig : bareConfig.IsUnbroken :=
    ⟨⟨hnone, by decide, by decide⟩, hnone, hnone, by decide, by decide, by decide, by decide,
      by decide⟩
  refine ⟨hplan, hbare, hconfig, fun files h f hf => ?_⟩
  obtain ⟨hends, hspaced⟩ := files_spaced h f hf
  exact ⟨hends, hspaced hbare hconfig⟩

end SchemaTypes.Output
