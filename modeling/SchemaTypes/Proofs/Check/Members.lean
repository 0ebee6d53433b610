/-
# Members of enumerations

An enumeration is written with one member for each of its values.  The name of the member is made
from the value, so that two values may share one: the check of members walks through the values
with a table of the names that are taken (`duplicateMembers`).

* A member name is a name of the target language, whatever the value is (`isName_member`).
* The check finds one problem for each value whose name is taken, no more and no fewer
  (`length_duplicateMembers_add`): what it finds and the distinct names together are the values.
* Every enumeration that gets a file is one that the check walks through
  (`exists_listing_of_writtenEnum`).  Where the check finds nothing, its members are distinct.
-/
import SchemaTypes.Check.Full
import SchemaTypes.Proofs.Data.Dictionary
import SchemaTypes.Proofs.Output.IndexNames

namespace SchemaTypes

open Text (isAlphanumeric isCapital isDigit isSmall)
open TypeScript (Block SourceFile Statement)

/-! ## 1. Names of members -/

namespace Naming

/-- A name may begin so. -/
def beginsName (c : Char) : Bool := isCapital c || isSmall c || c == '_'

/-- A name may go on so. -/
def continuesName (c : Char) : Bool := isAlphanumeric c || c == '_'

/-- The characters are those of a name: ASCII letters, digits and underscores, and no digit in
front. -/
def isNameChars : List Char → Bool
  | [] => false
  | c :: r => beginsName c && r.all continuesName

/-- The text is a name. -/
def isName (s : String) : Bool := isNameChars s.toList

theorem continuesName_of_isAlphanumeric {c : Char} (h : isAlphanumeric c = true) :
    continuesName c = true := by
  rw [continuesName, h, Bool.true_or]

/-- Letters and digits are a name behind a guard. -/
theorem isNameChars_guardHead {cs : List Char} (h : ∀ c ∈ cs, isAlphanumeric c = true) :
    isNameChars (guardHead cs) = true := by
  have hall : cs.all continuesName = true :=
    List.all_eq_true.2 fun c hc => continuesName_of_isAlphanumeric (h c hc)
  cases cs with
  | nil => rfl
  | cons c r =>
    cases hdigit : isDigit c with
    | true =>
      rw [guardHead, if_pos hdigit, isNameChars, hall]
      rfl
    | false =>
      have hletter : beginsName c = true := by
        have hc := h c List.mem_cons_self
        rw [isAlphanumeric, hdigit, Bool.or_false] at hc
        rw [beginsName, hc, Bool.true_or]
      rw [List.all_cons, Bool.and_eq_true] at hall
      rw [guardHead, hdigit, if_neg Bool.false_ne_true, isNameChars, hletter, hall.2]
      rfl

/-- **A member name is a name**, whatever characters the value is made of. -/
theorem isName_member (value : String) : isName (member value) = true := by
  rw [isName, member, String.toList_ofList, memberChars]
  exact isNameChars_guardHead fun c hc => (List.mem_filter.1 hc).2

/-- All characters of a name continue it. -/
theorem all_continuesName_of_isName {s : String} (h : isName s = true) :
    ∀ c ∈ s.toList, continuesName c = true := by
  unfold isName at h
  cases hs : s.toList with
  | nil => exact fun c hc => nomatch hc
  | cons c r =>
    rw [hs, isNameChars, Bool.and_eq_true, List.all_eq_true] at h
    intro d hd
    rcases List.mem_cons.1 hd with rfl | hd
    · have hbegin := h.1
      simp only [beginsName, Bool.or_eq_true, beq_iff_eq] at hbegin
      simp only [continuesName, isAlphanumeric, Bool.or_eq_true, beq_iff_eq]
      tauto
    · exact h.2 d hd

end Naming

namespace Check

/-! ## 2. Problems and distinct names -/

/-- The names of the members that values are written as. -/
def memberNames (vs : List EnumValue) : List String := vs.map fun v => Naming.member v.value

/-- A problem about a member of an enumeration: a warning that names the enumeration and the
member. -/
structure IsMemberWarning (owner : String) (names : List String) (f : Finding) : Prop where
  level : f.level = .warning
  code : f.code = "DUPLICATE_ENUM_MEMBER"
  context : ∃ member ∈ names, f.context = [("enum", .text owner), ("member", .text member)]

/-- **What the check of members counts.**  A value whose name is taken is a problem; any other value
takes its name.  So the problems and the names that `seen` does not have yet are the values. -/
theorem length_duplicateMembers_add (owner : String) (seen : List (String × String))
    (vs : List EnumValue) :
    (duplicateMembers owner seen vs).length
      + ((memberNames vs).toFinset \ (seen.map (·.1)).toFinset).card = vs.length := by
  induction vs generalizing seen with
  | nil => simp [duplicateMembers, memberNames]
  | cons v rest ih =>
    have hnames : (memberNames (v :: rest)).toFinset
        = insert (Naming.member v.value) (memberNames rest).toFinset := List.toFinset_cons
    rw [hnames, duplicateMembers]
    cases hseen : seen.lookup (Naming.member v.value) with
    | some first =>
      -- The name is in the table: the table stays, and there is a problem.
      have htaken : Naming.member v.value ∈ (seen.map (·.1)).toFinset := by
        rw [List.mem_toFinset, Dictionary.mem_keys_iff_isSome_lookup, hseen]
        rfl
      rw [Finset.insert_sdiff_of_mem _ htaken, List.length_cons, List.length_cons, ← ih seen]
      omega
    | none =>
      -- The name is free: it goes into the table, and is one of those that were not there.
      have hfree : Naming.member v.value ∉ (seen.map (·.1)).toFinset := by
        rw [List.mem_toFinset, Dictionary.mem_keys_iff_isSome_lookup, hseen]
        exact Bool.false_ne_true
      have htable : (((Naming.member v.value, v.value) :: seen).map (·.1)).toFinset
          = insert (Naming.member v.value) (seen.map (·.1)).toFinset := List.toFinset_cons
      have hnew : Naming.member v.value
          ∈ insert (Naming.member v.value) (memberNames rest).toFinset
            \ (seen.map (·.1)).toFinset :=
        Finset.mem_sdiff.2 ⟨Finset.mem_insert_self _ _, hfree⟩
      have hih := ih ((Naming.member v.value, v.value) :: seen)
      rw [htable, ← Finset.insert_sdiff_insert, Finset.sdiff_insert] at hih
      have hcard := Finset.card_erase_add_one hnew
      rw [List.length_cons]
      show (duplicateMembers owner ((Naming.member v.value, v.value) :: seen) rest).length + _ = _
      omega

/-- A problem about members is a warning about the enumeration. -/
theorem isMemberWarning_of_mem {owner : String} {seen : List (String × String)}
    {vs : List EnumValue} {p : Problem} (h : p ∈ duplicateMembers owner seen vs) :
    IsMemberWarning owner (memberNames vs) p.finding := by
  induction vs generalizing seen with
  | nil => exact nomatch h
  | cons v rest ih =>
    have hweaken : ∀ f, IsMemberWarning owner (memberNames rest) f →
        IsMemberWarning owner (memberNames (v :: rest)) f := by
      rintro f ⟨hlevel, hcode, member, hmem, hcontext⟩
      exact ⟨hlevel, hcode, member, List.mem_cons_of_mem _ hmem, hcontext⟩
    rw [duplicateMembers] at h
    cases hseen : seen.lookup (Naming.member v.value) with
    | some first =>
      rw [hseen] at h
      rcases List.mem_cons.1 h with rfl | h
      · split
        · exact ⟨rfl, rfl, _, List.mem_cons_self, rfl⟩
        · exact ⟨rfl, rfl, _, List.mem_cons_self, rfl⟩
      · exact hweaken _ (ih h)
    | none =>
      rw [hseen] at h
      exact hweaken _ (ih h)

/-! ## 3. The check of all enumerations -/

/-- The values of an enumeration under the name by which the check speaks of it. -/
structure Listing where
  owner : String
  values : List EnumValue

/-- What is wrong with the members of an enumeration. -/
def Listing.problems (l : Listing) : List Problem := duplicateMembers l.owner [] l.values

/-- The enumerations of schemas, of plugins and of properties, hidden entities included.  A property
that lists no values is an enumeration without members here. -/
def listings (collection : Collection) (config : Config) : List Listing :=
  collection.enumSchemas.map (fun s => ⟨s.name, s.values⟩)
    ++ config.pluginEnums.map (fun e => ⟨e.1, e.2.values⟩)
    ++ collection.objectSchemas.flatMap fun s =>
        s.properties.map fun e => ⟨Place.text ⟨s.name, e.1⟩, InlineEnum.valuesOf e.2⟩

/-- The problems and the distinct names of an enumeration are its values. -/
theorem Listing.length_problems_add (l : Listing) :
    l.problems.length + (memberNames l.values).toFinset.card = l.values.length := by
  have h := length_duplicateMembers_add l.owner [] l.values
  rwa [List.map_nil, List.toFinset_nil, Finset.sdiff_empty] at h

/-- Nothing is wrong exactly if the names are distinct. -/
theorem Listing.problems_eq_nil_iff (l : Listing) :
    l.problems = [] ↔ (memberNames l.values).Nodup := by
  have hcount := l.length_problems_add
  have hlength : (memberNames l.values).length = l.values.length := List.length_map _
  rw [← List.length_eq_zero_iff]
  constructor
  · intro h
    rw [h, Nat.zero_add, ← hlength, List.card_toFinset] at hcount
    exact List.dedup_eq_self.1 ((List.dedup_sublist _).eq_of_length hcount)
  · intro h
    rw [List.toFinset_card_of_nodup h, hlength] at hcount
    omega

variable {collection : Collection} {config : Config}

/-- The check goes through the enumerations one by one. -/
theorem memberProblems_eq_flatMap (collection : Collection) (config : Config) :
    memberProblems collection config = (listings collection config).flatMap Listing.problems := by
  simp only [memberProblems, listings, List.flatMap_append, List.flatMap_map, List.flatMap_assoc]
  rfl

/-- The problem is one with the members of an enumeration. -/
def aboutMembers : Problem → Bool
  | .sharedMember .. => true
  | .repeatedValue .. => true
  | _ => false

/-- The code of a finding says whether it is about members. -/
theorem code_beq_iff_aboutMembers (p : Problem) :
    (p.finding.code == "DUPLICATE_ENUM_MEMBER") = aboutMembers p := by
  cases p with
  | collision c =>
    show (c.code == _) = false
    unfold Collision.code
    split
    · rfl
    · split <;> rfl
  | _ => rfl

theorem aboutMembers_of_mem_nameProblems {p : Problem} (h : p ∈ nameProblems collection config) :
    aboutMembers p = false := by
  obtain ⟨c, -, rfl⟩ := List.mem_map.1 h
  rfl

theorem aboutMembers_of_mem_referenceProblems {place : Place} {p : Property} {x : Problem}
    (h : x ∈ referenceProblems collection config place p) : aboutMembers x = false := by
  unfold referenceProblems at h
  split at h
  · rcases List.mem_append.1 h with h | h
    · split at h
      · rw [List.mem_singleton.1 h]
        rfl
      · exact nomatch h
    · obtain ⟨target, -, rfl⟩ := List.mem_map.1 h
      rfl
  · split at h
    · exact nomatch h
    · rw [List.mem_singleton.1 h]
      rfl
  · split at h
    · rw [List.mem_singleton.1 h]
      rfl
    · exact nomatch h
  · exact nomatch h

theorem aboutMembers_of_mem_configProblems {p : Problem} (h : p ∈ configProblems config) :
    aboutMembers p = false := by
  have hlocale : ∀ field locale, p ∈ localeProblem config.localeConfig field locale →
      aboutMembers p = false := by
    intro field locale hp
    unfold localeProblem at hp
    split at hp
    · exact nomatch hp
    · rw [List.mem_singleton.1 hp]
      rfl
  rcases List.mem_append.1 h with h | h
  · exact (List.mem_append.1 h).elim (hlocale _ _) (hlocale _ _)
  · split at h
    · rw [List.mem_singleton.1 h]
      rfl
    · exact nomatch h

theorem aboutMembers_of_mem_memberProblems {p : Problem}
    (h : p ∈ memberProblems collection config) : aboutMembers p = true := by
  rw [memberProblems_eq_flatMap] at h
  obtain ⟨l, -, hp⟩ := List.mem_flatMap.1 h
  rw [← code_beq_iff_aboutMembers, (isMemberWarning_of_mem hp).code]
  rfl

/-- **No other check warns about members**: among all findings those with the code are the ones of
the check of members. -/
theorem filter_memberWarnings (collection : Collection) (config : Config) :
    (validate collection config).items.filter (·.code == "DUPLICATE_ENUM_MEMBER")
      = (memberProblems collection config).map Problem.finding := by
  have hcode : ((fun f : Finding => f.code == "DUPLICATE_ENUM_MEMBER") ∘ Problem.finding)
      = aboutMembers := funext code_beq_iff_aboutMembers
  have hreferences : ∀ p ∈ allReferenceProblems collection config, ¬ aboutMembers p = true := by
    intro p hp
    obtain ⟨s, -, hp⟩ := List.mem_flatMap.1 hp
    obtain ⟨e, -, hp⟩ := List.mem_flatMap.1 hp
    rw [aboutMembers_of_mem_referenceProblems hp]
    exact Bool.false_ne_true
  have hnames : ∀ p ∈ nameProblems collection config, ¬ aboutMembers p = true := by
    intro p hp
    rw [aboutMembers_of_mem_nameProblems hp]
    exact Bool.false_ne_true
  have hsettings : ∀ p ∈ configProblems config, ¬ aboutMembers p = true := by
    intro p hp
    rw [aboutMembers_of_mem_configProblems hp]
    exact Bool.false_ne_true
  rw [validate, List.filter_map, hcode, problems, List.filter_append, List.filter_append,
    List.filter_append, List.filter_eq_nil_iff.2 hnames, List.filter_eq_nil_iff.2 hreferences,
    List.filter_eq_nil_iff.2 hsettings,
    List.filter_eq_self.2 fun p hp => aboutMembers_of_mem_memberProblems hp, List.nil_append,
    List.nil_append, List.append_nil]

end Check

/-! ## 4. What is written -/

namespace Output

/-- The name in the line of a member. -/
def memberOfLine (line : String) : String :=
  String.ofList ((line.toList.drop 2).takeWhile Naming.continuesName)

/-- The members of the enumeration that a statement declares. -/
def memberNames? : Statement → Option (List String)
  | .enum _ lines => some (lines.map memberOfLine)
  | _ => none

/-- The members of the enumerations that blocks declare. -/
def membersIn (bs : List Block) : List (List String) :=
  (Block.declarationsOf bs).flatMap fun d => d.statements.filterMap memberNames?

/-- The members of the enumerations of a file, read off its declarations. -/
def enumMembers (f : SourceFile) : List (List String) := membersIn f.blocks

theorem membersIn_append (a b : List Block) : membersIn (a ++ b) = membersIn a ++ membersIn b := by
  rw [membersIn, Block.declarationsOf_eq_flatMap, List.flatMap_append, List.flatMap_append,
    ← Block.declarationsOf_eq_flatMap, ← Block.declarationsOf_eq_flatMap]
  rfl

/-- A member's line is read back. -/
theorem memberOfLine_eq {name : String} (h : Naming.isName name = true) (value : String) :
    memberOfLine ("  " ++ name ++ " = " ++ value ++ ",") = name := by
  have hline : ("  " ++ name ++ " = " ++ value ++ ",").toList
      = ' ' :: ' ' :: (name.toList ++ ' ' :: '=' :: ' ' :: (value.toList ++ [','])) := by
    simp [String.toList_append]
  rw [memberOfLine, hline, List.drop_succ_cons, List.drop_succ_cons, List.drop_zero,
    List.takeWhile_append_of_pos (Naming.all_continuesName_of_isName h),
    List.takeWhile_cons_of_neg (by decide), List.append_nil, String.ofList_toList]

theorem membersIn_labelBlocks (e : Enumeration) (fallback : String) :
    membersIn (labelBlocks e fallback) = [] := by
  unfold labelBlocks
  split
  · rfl
  · split
    · rfl
    · rfl

theorem membersIn_extraBlocks {room : Nat} {e : Enumeration} {extra : List Block}
    (h : extraBlocks room e = .ok extra) : membersIn extra = [] := by
  unfold extraBlocks at h
  split at h
  · rw [← Except.ok.inj h]
    rfl
  · obtain ⟨lines, -, h⟩ := bind_eq_ok_iff.1 h
    rw [← Except.ok.inj h]
    rfl

/-- **The file of an enumeration declares its members** and no others. -/
theorem enumMembers_enumModule {room : Nat} {e : Enumeration} {fallback : String} {f : SourceFile}
    (h : enumModule room e fallback = .ok f)
    (hnames : ∀ m ∈ e.members, Naming.isName m.name = true) :
    enumMembers f = [e.members.map (·.name)] := by
  obtain ⟨extra, hextra, h⟩ := bind_eq_ok_iff.1 h
  have hlines : (e.members.map fun m =>
      "  " ++ m.name ++ " = " ++ TypeScript.quote m.value ++ ",").map memberOfLine
        = e.members.map (·.name) := by
    rw [List.map_map]
    exact List.map_congr_left fun m hm => memberOfLine_eq (hnames m hm) _
  rw [← Except.ok.inj h, enumMembers, membersIn_append, membersIn_append, membersIn_labelBlocks,
    membersIn_extraBlocks hextra, List.append_nil, List.append_nil, ← hlines]
  rfl

/-- Other files declare no enumeration. -/
theorem enumMembers_baseModule (i : Interface) (paths : ImportPaths) (zod : Option ZodPart)
    (excluded pluginEnums : List String) :
    enumMembers (baseModule i paths zod excluded pluginEnums) = [] := by
  cases zod with
  | none => rfl
  | some z => rfl

theorem enumMembers_modelModule (name : String) (paths : ImportPaths) (zod : Bool) :
    enumMembers (modelModule name paths zod) = [] := by
  cases zod with
  | false => rfl
  | true => rfl

variable {collection : Collection} {config : Config}

theorem enumMembers_planBase (paths : ImportPaths) (s : Schema) :
    enumMembers (planBase collection config paths s).source = [] := by
  unfold planBase
  split
  · exact enumMembers_baseModule _ _ _ _ _
  · exact enumMembers_baseModule _ _ _ _ _

theorem enumMembers_index (paths : ImportPaths) :
    enumMembers (planIndex collection config paths).source = [] := by
  rw [enumMembers, membersIn, (passes_index paths).declares]
  rfl

/-- The members of some values are named after them. -/
theorem map_name_ofValue (vs : List EnumValue) :
    (vs.map (EnumMember.ofValue config)).map (·.name) = Check.memberNames vs := by
  rw [List.map_map]
  rfl

/-- The enumerations that get a file: those of schemas, of plugins and of properties with labels. -/
def writtenEnums (collection : Collection) (config : Config) : List Enumeration :=
  Enumeration.all collection config ++ Enumeration.allPlugin config
    ++ (InlineEnum.all collection config).filterMap inlineEnumeration?

/-- The enumeration of a property has the members of the values that the property lists. -/
theorem members_of_ofProperty? {s : Schema} {name : String} {p : Property} {x : InlineEnum}
    {e : Enumeration} (h : InlineEnum.ofProperty? config s name p = some x)
    (he : inlineEnumeration? x = some e) :
    e.members = (InlineEnum.valuesOf p).map (EnumMember.ofValue config) := by
  simp only [InlineEnum.ofProperty?] at h
  split at h
  · exact nomatch h
  · split at h
    · rw [← Option.some.inj h] at he
      rw [← Option.some.inj he]
    · rw [← Option.some.inj h] at he
      exact nomatch he

/-- **Every enumeration that gets a file is one that the check goes through.** -/
theorem exists_listing_of_writtenEnum {e : Enumeration}
    (h : e ∈ writtenEnums collection config) : ∃ l ∈ Check.listings collection config,
      e.members = l.values.map (EnumMember.ofValue config) := by
  rcases List.mem_append.1 h with h | h
  · rcases List.mem_append.1 h with h | h
    · obtain ⟨s, hs, hse⟩ := List.mem_filterMap.1 h
      refine ⟨⟨s.name, s.values⟩, ?_, ?_⟩
      · exact List.mem_append_left _ (List.mem_append_left _ (List.mem_map.2 ⟨s, hs, rfl⟩))
      · unfold Enumeration.ofSchema? at hse
        split at hse
        · rw [← Option.some.inj hse]
        · exact nomatch hse
    · obtain ⟨p, hp, rfl⟩ := List.mem_map.1 h
      refine ⟨⟨p.1, p.2.values⟩, ?_, rfl⟩
      exact List.mem_append_left _ (List.mem_append_right _ (List.mem_map.2 ⟨p, hp, rfl⟩))
  · obtain ⟨x, hx, he⟩ := List.mem_filterMap.1 h
    obtain ⟨s, hs, hx⟩ := List.mem_flatMap.1 hx
    obtain ⟨p, hp, hx⟩ := List.mem_filterMap.1 hx
    refine ⟨⟨Place.text ⟨s.name, p.1⟩, InlineEnum.valuesOf p.2⟩, ?_, members_of_ofProperty? hx he⟩
    exact List.mem_append_right _ (List.mem_flatMap.2 ⟨s, hs, List.mem_map.2 ⟨p, hp, rfl⟩⟩)

/-- The file of such an enumeration declares its members. -/
theorem enumMembers_of_writtenEnum {room : Nat} {e : Enumeration} {m : PlannedModule}
    (h : e ∈ writtenEnums collection config) (hm : planEnum room config e = .ok m) :
    enumMembers m.source = [e.members.map (·.name)] := by
  obtain ⟨l, -, hmembers⟩ := exists_listing_of_writtenEnum h
  obtain ⟨source, hsource, rfl⟩ := planEnum_eq_ok_iff.1 hm
  refine enumMembers_enumModule hsource ?_
  intro x hx
  rw [hmembers] at hx
  obtain ⟨v, -, rfl⟩ := List.mem_map.1 hx
  exact Naming.isName_member v.value

/-- Every enumeration that a planned file declares is one of these. -/
theorem exists_writtenEnum {m : PlannedModule} (h : Origin collection config m)
    {names : List String} (hnames : names ∈ enumMembers m.source) :
    ∃ e ∈ writtenEnums collection config, names = e.members.map (·.name) := by
  have hplanned {room : Nat} {e : Enumeration} {m : PlannedModule}
      (hmem : e ∈ writtenEnums collection config) (heq : planEnum room config e = .ok m)
      (hnames : names ∈ enumMembers m.source) :
      ∃ e ∈ writtenEnums collection config, names = e.members.map (·.name) := by
    rw [enumMembers_of_writtenEnum hmem heq] at hnames
    exact ⟨e, hmem, List.mem_singleton.1 hnames⟩
  cases h with
  | schemaEnum hmem heq =>
    exact hplanned (List.mem_append_left _ (List.mem_append_left _ hmem)) heq hnames
  | pluginEnum hmem heq =>
    exact hplanned (List.mem_append_left _ (List.mem_append_right _ hmem)) heq hnames
  | @inline x m hmem heq =>
    cases x with
    | enum _ _ e =>
      exact hplanned (List.mem_append_right _ (List.mem_filterMap.2 ⟨_, hmem, rfl⟩)) heq hnames
    | «alias» _ _ a =>
      rw [← Except.ok.inj heq] at hnames
      exact nomatch hnames
  | base _ =>
    rw [enumMembers_planBase] at hnames
    exact nomatch hnames
  | model _ =>
    rw [planModel, enumMembers_modelModule] at hnames
    exact nomatch hnames
  | rules _ _ => exact nomatch hnames
  | common => exact nomatch hnames
  | i18n => exact nomatch hnames
  | index =>
    rw [enumMembers_index] at hnames
    exact nomatch hnames

/-- A plan has a file for each of them. -/
theorem exists_module_of_writtenEnum {ms : List PlannedModule}
    (hms : planModules collection config = .ok ms) {e : Enumeration}
    (h : e ∈ writtenEnums collection config) :
    ∃ m ∈ ms, m.path = e.name ++ ".ts" ∧ enumMembers m.source = [e.members.map (·.name)] := by
  obtain ⟨hschemas, hplugins, hinline⟩ := exists_module_of_mem hms
  have hfile {room : Nat} {m : PlannedModule} (heq : planEnum room config e = .ok m)
      (horigin : Origin collection config m) :
      ∃ m ∈ ms, m.path = e.name ++ ".ts" ∧ enumMembers m.source = [e.members.map (·.name)] := by
    refine ⟨m, (mem_planModules_iff hms m).2 horigin, ?_, enumMembers_of_writtenEnum h heq⟩
    obtain ⟨source, -, rfl⟩ := planEnum_eq_ok_iff.1 heq
    rfl
  rcases List.mem_append.1 h with hmem | hmem
  · rcases List.mem_append.1 hmem with hmem | hmem
    · obtain ⟨m, heq⟩ := hschemas e hmem
      exact hfile heq (.schemaEnum hmem heq)
    · obtain ⟨m, heq⟩ := hplugins e hmem
      exact hfile heq (.pluginEnum hmem heq)
  · obtain ⟨x, hx, he⟩ := List.mem_filterMap.1 hmem
    obtain ⟨m, heq⟩ := hinline x hx
    cases x with
    | enum _ _ e' =>
      obtain rfl := Option.some.inj he
      exact hfile heq (.inline hx heq)
    | «alias» _ _ a => exact nomatch he

end Output

/-! ## 5. What the check promises -/

namespace Check

open Output (enumMembers exists_listing_of_writtenEnum exists_module_of_writtenEnum
  exists_writtenEnum map_name_ofValue mem_planModules_iff planModules writtenEnums)

/-- What the check of members says about a snapshot and what is written of it. -/
structure MembersChecked (collection : Collection) (config : Config) : Prop where
  /-- The check goes through the enumerations of schemas, plugins and properties one by one. -/
  enumerations :
    memberProblems collection config = (listings collection config).flatMap Listing.problems
  /-- What it finds about one of them are warnings about its members. -/
  warnings : ∀ l ∈ listings collection config, ∀ p ∈ l.problems,
    IsMemberWarning l.owner (memberNames l.values) p.finding
  /-- They are as many as the values without those that have a name first. -/
  count : ∀ l ∈ listings collection config,
    l.problems.length + (memberNames l.values).toFinset.card = l.values.length
  /-- They are all findings of a snapshot with their code. -/
  reported : (validate collection config).items.filter (·.code == "DUPLICATE_ENUM_MEMBER")
    = (memberProblems collection config).map Problem.finding
  /-- Every enumeration is written to its file with all of its members. -/
  written : ∀ ms, planModules collection config = .ok ms → ∀ e ∈ writtenEnums collection config,
    ∃ m ∈ ms, m.path = e.name ++ ".ts" ∧ enumMembers m.source = [e.members.map (·.name)]
  /-- Without warnings, the members of every planned enumeration are distinct. -/
  distinct : memberProblems collection config = [] →
    ∀ ms, planModules collection config = .ok ms → ∀ m ∈ ms, ∀ names ∈ enumMembers m.source,
      names.Nodup
  /-- With or without warnings, the members are names. -/
  legal : ∀ ms, planModules collection config = .ok ms → ∀ m ∈ ms,
    ∀ names ∈ enumMembers m.source, ∀ n ∈ names, Naming.isName n = true

/-- **The check of members finds exactly the values without a name of their own**, and where it
finds none, the members of every enumeration that is generated are distinct. -/
theorem membersChecked (collection : Collection) (config : Config) :
    MembersChecked collection config := by
  have hlisted : ∀ ms, planModules collection config = .ok ms → ∀ m ∈ ms,
      ∀ names ∈ enumMembers m.source,
        ∃ l ∈ listings collection config, names = memberNames l.values := by
    intro ms hms m hm names hnames
    obtain ⟨e, he, rfl⟩ := exists_writtenEnum ((mem_planModules_iff hms m).1 hm) hnames
    obtain ⟨l, hl, hmembers⟩ := exists_listing_of_writtenEnum he
    exact ⟨l, hl, by rw [hmembers, map_name_ofValue]⟩
  constructor
  case enumerations => exact memberProblems_eq_flatMap collection config
  case warnings => exact fun l _ p hp => isMemberWarning_of_mem hp
  case count => exact fun l _ => l.length_problems_add
  case reported => exact filter_memberWarnings collection config
  case written => exact fun ms hms e he => exists_module_of_writtenEnum hms he
  case distinct =>
    intro hnone ms hms m hm names hnames
    obtain ⟨l, hl, rfl⟩ := hlisted ms hms m hm names hnames
    rw [memberProblems_eq_flatMap, List.flatMap_eq_nil_iff] at hnone
    exact l.problems_eq_nil_iff.1 (hnone l hl)
  case legal =>
    intro ms hms m hm names hnames n hn
    obtain ⟨l, -, rfl⟩ := hlisted ms hms m hm names hnames
    obtain ⟨v, -, rfl⟩ := List.mem_map.1 hn
    exact Naming.isName_member v.value

end Check

end SchemaTypes
