/-
# Which values may be absent

An interface marks a field as optional, and the validator of the field lets its value be absent by
two last methods, `absentText`.  Each side decides for itself, from the override of the schema, the
setting of the plugin and the property, and they agree (`optional_iff_endsWith_absentText`).

The text of a validator is read from its end.  `Present` says of a text that nothing which ends in
it ends in `absentText`; the text of every method but the last of the two is of this kind
(`Call.present`), around a numeral because no numeral holds a parenthesis.  So the end of a
validator shows whether the two methods were appended (`endsWith_absentText_iff`), provided that
nothing before them appends the last one: bounds, rules and patterns do not.
-/
import Mathlib
import SchemaTypes.Proofs.Number.Literal
import SchemaTypes.Proofs.Zod.Fields

namespace SchemaTypes.Zod

open Text (endsWith endsWith_iff)

/-! ## 1. The end of a text -/

/-- The methods that let a value be absent, as they are printed. -/
def absentText : String := ".optional().nullable()"

/-- Nothing that ends in this text ends in `absentText`. -/
def Present (tail : String) : Prop := ∀ front, endsWith (front ++ tail) absentText = false

theorem Present.append {tail : String} (h : Present tail) (s : String) : Present (s ++ tail) := by
  intro front
  rw [← String.append_assoc]
  exact h _

/-- Of two texts at the end of a third one, one is at the end of the other. -/
theorem present_of_incomparable {tail : String} (h : endsWith absentText tail = false)
    (h' : endsWith tail absentText = false) : Present tail := by
  intro front
  by_contra hends
  rw [Bool.not_eq_false, endsWith_iff, String.toList_append] at hends
  rcases List.suffix_or_suffix_of_suffix hends (List.suffix_append _ _) with hs | hs
  · rw [endsWith_iff.2 hs] at h'
    cases h'
  · rw [endsWith_iff.2 hs] at h
    cases h

/-- A parenthesis that closes behind something. -/
theorem present_closing {c : Char} (hc : c ≠ '(') : Present (String.ofList [c, ')']) := by
  refine present_of_incomparable ?_ ?_
  -- `absentText` ends in `()`: it has the opening parenthesis where the tail has another character.
  · have hlast : absentText.toList = ".optional().nullable".toList ++ ['(', ')'] := by decide
    by_contra h
    rw [Bool.not_eq_false, endsWith_iff, hlast, String.toList_ofList] at h
    obtain ⟨front, hfront⟩ := h
    have htail := List.append_inj_right' hfront rfl
    exact hc (List.cons.inj htail).1
  · by_contra h
    rw [Bool.not_eq_false, endsWith_iff, String.toList_ofList] at h
    have hlength : absentText.toList.length = 22 := by decide
    have hle := h.length_le
    rw [hlength] at hle
    exact absurd hle (by simp)

/-- An argument without parentheses between the parentheses of a method. -/
theorem present_argument {method argument : String} (hm : Present (method ++ ")"))
    (ha : '(' ∉ argument.toList) : Present (method ++ argument ++ ")") := by
  rcases List.eq_nil_or_concat argument.toList with hnil | ⟨cs, c, hlast⟩
  · rw [String.toList_eq_nil_iff.1 hnil, String.append_empty]
    exact hm
  · have hc : c ≠ '(' := by
      rintro rfl
      exact ha (by simp [hlast])
    have hsplit : method ++ argument ++ ")"
        = (method ++ String.ofList cs) ++ String.ofList [c, ')'] := by
      rw [← String.toList_inj]
      simp [hlast]
    rw [hsplit]
    exact (present_closing hc).append _

/-! ## 2. Methods -/

/-- **No other method lets a value be absent.** -/
theorem Call.present {c : Call} (h : c ≠ .nullable) : Present c.text := by
  have hquote : Present ("'" ++ ")") := present_of_incomparable (by decide) (by decide)
  have hslash : Present "/)" := present_of_incomparable (by decide) (by decide)
  have hoption : Present ("' \x7d" ++ ")") := present_of_incomparable (by decide) (by decide)
  have hmessage (s m : String) : Present (s ++ messageOption m ++ ")") := by
    have := hoption.append (s ++ "\x7b message: '" ++ m)
    simpa only [messageOption, String.append_assoc] using this
  have hquoted (s t : String) : Present (s ++ TypeScript.quote t ++ ")") := by
    have := hquote.append (s ++ "'" ++ TypeScript.escapeString t)
    simpa only [TypeScript.quote, String.append_assoc] using this
  cases c with
  | nullable => exact absurd rfl h
  | ip version =>
    cases version with
    | none => exact present_of_incomparable (by decide) (by decide)
    | some v =>
      have hversion : Present "\" \x7d)" := present_of_incomparable (by decide) (by decide)
      exact hversion.append _
  | min n | max n =>
    exact present_argument (present_of_incomparable (by decide) (by decide))
      (isNumeral_toString n).paren_notMem
  | length n =>
    exact present_argument (present_of_incomparable (by decide) (by decide))
      (isNumeral_toString_nat n).paren_notMem
  | gte b | lte b | gt b | lt b | multipleOf b =>
    exact present_argument (present_of_incomparable (by decide) (by decide))
      b.isNumeral_literal.paren_notMem
  | regex body message =>
    cases message with
    | none => exact hslash.append _
    | some m => exact hmessage (".regex(/" ++ body ++ "/, ") m
  | startsWith t => exact hquoted ".startsWith(" t
  | endsWith t => exact hquoted ".endsWith(" t
  | lowercase => exact hmessage ".refine(v => v === v.toLowerCase(), " "Must be lowercase"
  | uppercase => exact hmessage ".refine(v => v === v.toUpperCase(), " "Must be uppercase"
  | email | url | uuid | date | time | datetime | int | positive | optional =>
    exact present_of_incomparable (by decide) (by decide)

/-! ## 3. Chains -/

/-- A base that is printed as such, the name of an enumeration without parentheses. -/
def Base.Plain : Base → Prop
  | .given _ => False
  | .nativeEnum name => '(' ∉ name.toList
  | .string | .number | .boolean | .unknown | .enum _ => True

theorem Base.Plain.present {b : Base} (h : b.Plain) : Present b.text := by
  cases b with
  | given text => exact absurd h not_false
  | nativeEnum name =>
    exact present_argument (present_of_incomparable (by decide) (by decide)) h
  | enum values =>
    have hclose : Present "])" := present_of_incomparable (by decide) (by decide)
    exact hclose.append _
  | string | number | boolean | unknown => exact present_of_incomparable (by decide) (by decide)

/-- A chain of other methods does not let its value be absent. -/
theorem Expr.endsWith_absentText_eq_false {e : Expr} (hb : e.base.Plain)
    (hc : Call.nullable ∉ e.calls) : endsWith e.text absentText = false := by
  unfold Expr.text
  rcases List.eq_nil_or_concat e.calls with hnil | ⟨cs, c, hlast⟩
  · have := hb.present ""
    simpa [hnil] using this
  · have hne : c ≠ .nullable := by
      rintro rfl
      exact hc (by simp [hlast])
    have hjoin : String.join (e.calls.map Call.text)
        = String.join (cs.map Call.text) ++ c.text := by
      simp [hlast]
    rw [hjoin, ← String.append_assoc]
    exact Call.present hne _

/-- More methods at the end of a chain. -/
theorem Expr.text_andAlso (e : Expr) (cs : List Call) :
    (e.andAlso cs).text = e.text ++ String.join (cs.map Call.text) := by
  rw [Expr.text, Expr.text, Expr.base_andAlso, Expr.calls_andAlso, List.map_append,
    String.join_append, String.append_assoc]

theorem join_absentCalls (nullable : Bool) :
    String.join ((absentCalls nullable).map Call.text) = if nullable then absentText else "" := by
  cases nullable <;> decide

/-- **The end of a chain** shows whether its value may be absent. -/
theorem Expr.endsWith_absentText_iff {e : Expr} (hb : e.base.Plain)
    (hc : Call.nullable ∉ e.calls) (nullable : Bool) :
    endsWith (e.andAlso (absentCalls nullable)).text absentText = true ↔ nullable = true := by
  cases nullable with
  | false =>
    have := e.endsWith_absentText_eq_false hb hc
    simpa [absentCalls, Expr.andAlso] using this
  | true =>
    rw [Expr.text_andAlso, join_absentCalls, if_pos rfl, endsWith_iff, String.toList_append]
    exact iff_of_true (List.suffix_append _ _) rfl

/-! ## 4. Validators -/

variable {config : Config} {p : Property}

theorem nullable_notMem_callsOf {α : Type} {f : α → List Call} (h : ∀ a, Call.nullable ∉ f a)
    (setting : Option α) : Call.nullable ∉ callsOf f setting := by
  cases setting with
  | none => exact List.not_mem_nil
  | some a => exact h a

theorem nullable_notMem_textCalls (r : RuleSet) : Call.nullable ∉ textCalls r := by
  have hstart : ∀ vs, Call.nullable ∉ startCalls vs := by
    intro vs
    unfold startCalls
    split <;> simp
  have hend : ∀ vs, Call.nullable ∉ endCalls vs := by
    intro vs
    unfold endCalls
    split <;> simp
  have hclass : Call.nullable ∉ classCalls r := by
    unfold classCalls
    simp only [List.mem_append, not_or]
    refine ⟨⟨⟨?_, ?_⟩, ?_⟩, ?_⟩ <;> split <;> simp
  simp only [textCalls, List.mem_append, not_or]
  refine ⟨⟨⟨⟨⟨⟨⟨⟨?_, ?_⟩, hclass⟩, ?_⟩, ?_⟩, hstart _⟩, hend _⟩, ?_⟩, ?_⟩
  · exact nullable_notMem_callsOf (by simp) _
  · exact nullable_notMem_callsOf (by simp) _
  · exact nullable_notMem_callsOf (by simp [digitsCalls]) _
  · exact nullable_notMem_callsOf (by simp [digitsBetweenCalls]) _
  · split <;> simp
  · split <;> simp

theorem nullable_notMem_numberCalls (r : RuleSet) : Call.nullable ∉ numberCalls r := by
  simp only [numberCalls, List.mem_append, not_or]
  refine ⟨⟨⟨⟨⟨?_, ?_⟩, ?_⟩, ?_⟩, ?_⟩, ?_⟩ <;> exact nullable_notMem_callsOf (by simp) _

/-- A validator to which `absentCalls` can be appended. -/
structure Expr.Open (e : Expr) : Prop where
  base : e.base.Plain
  calls : Call.nullable ∉ e.calls

theorem Expr.Open.andAlso {e : Expr} (h : e.Open) {cs : List Call} (hcs : Call.nullable ∉ cs) :
    (e.andAlso cs).Open :=
  ⟨h.base, by simpa only [Expr.calls_andAlso, List.mem_append, not_or] using ⟨h.calls, hcs⟩⟩

theorem Expr.Open.applyRules {e : Expr} (h : e.Open) (rules : Option RuleSet) (tag : String) :
    (applyRules e rules tag).Open := by
  cases rules with
  | none => exact h
  | some r =>
    have hformat : ((formatOf? r).getD e).Open := by
      cases hr : formatOf? r with
      | none => exact h
      | some e' =>
        obtain ⟨c, rfl, hc⟩ := formatOf?_eq_some hr
        refine ⟨trivial, fun hm => ?_⟩
        rw [← List.mem_singleton.1 hm] at hc
        exact absurd hc (by decide)
    refine hformat.andAlso ?_
    rw [List.mem_append, not_or]
    constructor
    · split
      · exact nullable_notMem_textCalls r
      · exact List.not_mem_nil
    · split
      · exact nullable_notMem_numberCalls r
      · exact List.not_mem_nil

theorem nullable_notMem_patternCalls (pattern : Option String) :
    Call.nullable ∉ patternCalls pattern :=
  nullable_notMem_callsOf (by simp) _

/-- The validator of a property lets values be absent if the property does. -/
theorem Expr.Open.finish {e : Expr} (h : e.Open) (p : Property) :
    endsWith (finish p e).text absentText = true ↔ p.isNullable = true := by
  have hopen := (h.applyRules p.rules p.tag).andAlso (nullable_notMem_patternCalls p.pattern)
  have := Expr.endsWith_absentText_iff hopen.base hopen.calls p.isNullable
  simpa only [Zod.finish, Expr.andAlso, List.append_assoc] using this

theorem Expr.Open.ofPrimitive? {e : Expr} (h : ofPrimitive? p = some e) : e.Open := by
  have hupper : Call.nullable ∉ upperCalls p := nullable_notMem_callsOf (by simp) _
  have hlower : Call.nullable ∉ lowerCalls p := by
    unfold lowerCalls
    split
    · simp
    · exact nullable_notMem_callsOf (by simp) _
  have hbound : Call.nullable ∉ boundCalls p := by
    rw [boundCalls, List.mem_append, not_or]
    exact ⟨nullable_notMem_callsOf (by simp) _, nullable_notMem_callsOf (by simp) _⟩
  have hfixed : ∀ v ∈ fixedValidators, v.2.base.Plain ∧ Call.nullable ∉ v.2.calls := by
    simp [fixedValidators, Base.Plain]
  unfold Zod.ofPrimitive? at h
  repeat' split at h
  · cases h
    exact ⟨trivial, by simpa using hupper⟩
  · cases h
    exact ⟨trivial, by simpa using ⟨hlower, hupper⟩⟩
  · cases h
    exact ⟨trivial, hbound⟩
  · cases h
    exact ⟨trivial, by simpa using hbound⟩
  · obtain ⟨before, after, heq, -⟩ := List.lookup_eq_some_iff.1 h
    obtain ⟨hbase, hcalls⟩ := hfixed (p.tag, e) (by simp [heq])
    exact ⟨hbase, hcalls⟩

theorem Expr.Open.ofFormat (format : Option String) : (ofFormat format).Open := by
  unfold Zod.ofFormat
  split <;> exact ⟨trivial, by decide⟩

/-- A pair of a field and a validator agrees on whether values may be absent. -/
theorem Pairing.endsWith_absentText_iff {type : String} {optional : Bool} {z : Expr}
    (h : Pairing config p type optional z)
    (henum : ∀ enum, p.kind = .enumRef enum → '(' ∉ enum.toList) :
    endsWith z.text absentText = true ↔ optional = true := by
  cases h with
  | @entry t e plugin mem =>
    have hlower : Call.nullable ∉ entryLowerCalls p e := by
      unfold entryLowerCalls
      dsimp only
      split
      · exact nullable_notMem_callsOf (by simp) _
      · simp
    have hcalls : Call.nullable ∉ entryLowerCalls p e
        ++ callsOf (fun n => [.max (Int.ofNat n)]) (positive? (entryLength p e))
        ++ (if (entryFormat p e).isSome then []
            else patternCalls (ruleSetting p e (·.pattern))) := by
      simp only [List.mem_append, not_or]
      refine ⟨⟨hlower, nullable_notMem_callsOf (by simp) _⟩, ?_⟩
      split
      · exact List.not_mem_nil
      · exact nullable_notMem_patternCalls _
    have hopen := (Expr.Open.ofFormat (entryFormat p e)).andAlso hcalls
    have := Expr.endsWith_absentText_iff hopen.base hopen.calls (Interface.entryNullable p e)
    simpa only [ofEntry, Expr.andAlso, List.append_assoc] using this
  | @simple t plugin =>
    have hopen : Expr.Open
        ⟨.string, callsOf (fun n => [.max (Int.ofNat n)]) (positive? t.length)⟩ :=
      ⟨trivial, nullable_notMem_callsOf (by simp) _⟩
    exact Expr.endsWith_absentText_iff hopen.base hopen.calls p.isNullable
  | @reference enum kind =>
    have hopen : Expr.Open ⟨.nativeEnum type, []⟩ := ⟨henum type kind, List.not_mem_nil⟩
    exact hopen.finish p
  | @values vs kind =>
    refine Expr.Open.finish ?_ p
    unfold ofValues
    split <;> exact ⟨trivial, List.not_mem_nil⟩
  | primitive kind eq => exact (Expr.Open.ofPrimitive? eq).finish p

/-! ## 5. Entities -/

/-- The field is optional exactly if the validator lets its value be absent. -/
def AgreeOnAbsence (f : InterfaceField) (z : Field) : Prop :=
  f.optional = true ↔ endsWith z.schema.text absentText = true

/-- **Interface and validators agree on which values may be absent.**  Each property of an entity
either has no validators, or one for each field that is not an accessor, in the same order, and
each of these ends in `absentText` exactly if its field is optional.  The name of an enumeration
must not hold a parenthesis, as no identifier does. -/
theorem optional_iff_endsWith_absentText (collection : Collection) (config : Config) {s : Schema}
    (henum : ∀ e ∈ s.properties, ∀ enum, e.2.kind = .enumRef enum → '(' ∉ enum.toList) :
    ∀ e ∈ s.properties,
      Interface.expand collection config e.1 e.2
          = Interface.ownFields collection config e.1 e.2
            ++ Interface.accessorFields config e.1 e.2 ∧
        if isValidated config e.2 then
          List.Forall₂ AgreeOnAbsence (Interface.ownFields collection config e.1 e.2)
            (fieldsOfProperty config e.1 e.2)
        else fieldsOfProperty config e.1 e.2 = [] := by
  intro e he
  refine ⟨Interface.expand_eq_append collection config e.1 e.2, ?_⟩
  split
  · rename_i hvalidated
    refine (forall₂_ownFields collection e.1 hvalidated).imp ?_
    rintro f z ⟨type, -, hpairing⟩
    exact (hpairing.endsWith_absentText_iff (henum e he)).symm
  · rename_i hvalidated
    exact fieldsOfProperty_eq_nil (by simpa using hvalidated)

/-- A member with a name in three parts, two of them changed by the schema, and a role. -/
def member : Schema :=
  { name := "Member"
    properties :=
      [("fullName",
        { tag := "PersonName", kind := .custom
          overrides :=
            [("Middle", { nullable := some false }), ("Last", { nullable := some true })] }),
       ("role", { tag := "EnumRef", kind := .enumRef "Role", nullable := some true }),
       ("team", { tag := "Association", kind := .association "ManyToOne" (some "Team") [] })] }

/-- The settings with the type of a name. -/
def memberConfig : Config :=
  { customTypes :=
      [("PersonName",
        { compound := true, accessors := ["Initials"]
          expand :=
            [{ suffix := "First" }, { suffix := "Middle", nullable := some true },
             { suffix := "Last" }] })] }

theorem agreeOnAbsence_member :
    (∀ e ∈ member.properties, ∀ enum, e.2.kind = .enumRef enum → '(' ∉ enum.toList) ∧
      (fieldsOf memberConfig member).map (fun z => endsWith z.schema.text absentText)
        = [false, false, true, true] ∧
      ∀ e ∈ member.properties, isValidated memberConfig e.2 = true →
        List.Forall₂ AgreeOnAbsence (Interface.ownFields ⟨[member]⟩ memberConfig e.1 e.2)
          (fieldsOfProperty memberConfig e.1 e.2) := by
  have henum : ∀ e ∈ member.properties, ∀ enum, e.2.kind = .enumRef enum → '(' ∉ enum.toList := by
    intro e he enum hk
    simp only [member, List.mem_cons, List.not_mem_nil, or_false] at he
    rcases he with rfl | rfl | rfl
    · cases hk
    · cases hk
      decide
    · cases hk
  refine ⟨henum, by decide, fun e he hvalidated => ?_⟩
  have := (optional_iff_endsWith_absentText ⟨[member]⟩ memberConfig henum e he).2
  rwa [if_pos hvalidated] at this

end SchemaTypes.Zod
