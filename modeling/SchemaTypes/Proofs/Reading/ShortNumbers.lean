/-
# Short numbers are read

A whole number in a value that can be written is short, and a text with too many digits is refused
as a number.  So the numbers of the schemas and of the plugin types are short, wherever they are
read from a snapshot that can be written (`isShort_of_ofEntries`).
-/
import SchemaTypes.Proofs.Reading.FurtherData
import SchemaTypes.Proofs.ShortNumbers

namespace SchemaTypes

open Numeral (IsShort digitsValue lengthLimit)
open Text (isDigit)

/-! ## 1. Numerals -/

namespace Numeral

theorem foldl_digits_lt {ds : List Char} (h : ∀ c ∈ ds, isDigit c = true) (n : Nat) :
    ds.foldl (fun n c => n * 10 + (c.toNat - 48)) n < (n + 1) * 10 ^ ds.length := by
  induction ds generalizing n with
  | nil => simp
  | cons c rest ih =>
    obtain ⟨hc, hrest⟩ := List.forall_mem_cons.1 h
    have hdigit : c.toNat - 48 ≤ 9 := by
      simp only [isDigit, Bool.and_eq_true, decide_eq_true_eq] at hc
      have hnine : c.toNat ≤ '9'.toNat := hc.2
      have hvalue : '9'.toNat = 57 := rfl
      omega
    have hstep := ih hrest (n * 10 + (c.toNat - 48))
    have hfirst : n * 10 + (c.toNat - 48) + 1 ≤ (n + 1) * 10 := by omega
    rw [List.foldl_cons, List.length_cons, Nat.pow_succ', ← Nat.mul_assoc]
    exact Nat.lt_of_lt_of_le hstep (Nat.mul_le_mul_right _ hfirst)

/-- The value of some digits is below the power of ten of their number. -/
theorem digitsValue_lt {ds : List Char} (h : ∀ c ∈ ds, isDigit c = true) :
    digitsValue ds < 10 ^ ds.length := by
  have hlt := foldl_digits_lt h 0
  rwa [Nat.zero_add, Nat.one_mul] at hlt

/-- Zeros in front do not count. -/
theorem digitsValue_dropWhile (ds : List Char) :
    digitsValue (ds.dropWhile (· == '0')) = digitsValue ds := by
  induction ds with
  | nil => rfl
  | cons c rest ih =>
    by_cases hc : c = '0'
    · subst hc
      exact ih
    · rw [List.dropWhile_cons_of_neg (by simpa using hc)]

end Numeral

namespace Reading

open Outcome (Gives)
open Value (isWritable_iff isWritable_map_iff isWritable_mono)

theorem isShort_of_natAbs_lt {i : Int} (h : i.natAbs < Nat.pow 2 63) : IsShort i := by
  -- a general exponent, so that the power is not computed
  have hpow (n : Nat) (hn : 63 ≤ n) : Nat.pow 2 63 ≤ Nat.pow 10 n :=
    Nat.le_trans (Nat.pow_le_pow_left (by decide) 63) (Nat.pow_le_pow_right (by decide) hn)
  exact Nat.lt_of_lt_of_le h (hpow lengthLimit (by decide))

/-- **A plain numeral** is refused if it is too long. -/
theorem isShort_of_plainInt? {cs : List Char} {i : Int} (h : plainInt? cs = some i) :
    IsShort i := by
  unfold plainInt? at h
  generalize takeMinus cs = x at h
  obtain ⟨negative, ds⟩ := x
  obtain ⟨hall, hvalue⟩ := Option.ite_none_right_eq_some.1 h
  simp only [Bool.and_eq_true, decide_eq_true_eq] at hall
  obtain ⟨⟨-, hdigits⟩, hlength⟩ := hall
  have hshort : (ds.dropWhile (· == '0')).length ≤ lengthLimit :=
    Nat.le_trans (Nat.le_add_left _ _) hlength
  have habs : i.natAbs = digitsValue ds := by
    rw [← Option.some.inj hvalue]
    split
    · exact Int.natAbs_neg _
    · rfl
  have hpow (n : Nat) (hn : (ds.dropWhile (· == '0')).length ≤ n) :
      10 ^ (ds.dropWhile (· == '0')).length ≤ Nat.pow 10 n :=
    Nat.pow_le_pow_right (by decide) hn
  rw [IsShort, habs, ← Numeral.digitsValue_dropWhile]
  refine Nat.lt_of_lt_of_le (Numeral.digitsValue_lt fun c hc => ?_) (hpow lengthLimit hshort)
  exact List.all_eq_true.1 hdigits c ((List.dropWhile_sublist _).subset hc)

/-! ## 2. Numbers -/

variable {room : Nat}

theorem gives_intOfText (s : String) : Gives IsShort (intOfText s) := by
  unfold intOfText
  split
  · next hi => exact Outcome.gives_accepted (isShort_of_plainInt? hi)
  · split
    · exact Outcome.gives_rejected _
    · split
      · next hi =>
        obtain ⟨ds, -, hi⟩ := Option.bind_eq_some_iff.1 hi
        exact Outcome.gives_accepted (isShort_of_plainInt? hi)
      · exact Outcome.gives_rejected _

/-- **A whole number** that is read is short. -/
theorem keeps_int : Keeps room IsShort int := by
  intro v hv
  cases v with
  | int i => exact Outcome.gives_accepted (of_decide_eq_true (isWritable_iff.1 hv).1)
  | bool b =>
    cases b
    · exact Outcome.gives_accepted isShort_zero
    · exact Outcome.gives_accepted isShort_one
  | real d =>
    simp only [int]
    split
    · split
      · next hlt => exact Outcome.gives_accepted (isShort_of_natAbs_lt hlt)
      · exact Outcome.gives_rejected _
    · split <;> exact Outcome.gives_rejected _
  | text s => exact gives_intOfText s
  | bytes bs => exact nomatch (isWritable_iff.1 hv).1
  | _ => exact Outcome.gives_rejected _

theorem keeps_natFrom (least : Nat) :
    Keeps room (fun n => IsShort (Int.ofNat n)) (natFrom least) := by
  intro v hv
  refine (keeps_int v hv).andThen fun i hi => ?_
  split
  · refine Outcome.gives_accepted (Nat.lt_of_le_of_lt ?_ hi)
    rw [Int.ofNat_eq_natCast, Int.natAbs_natCast]
    omega
  · exact Outcome.gives_rejected _

theorem gives_either {P : α → Prop} {left right : Reader α} {v : Value} (hleft : Gives P (left v))
    (hright : Gives P (right v)) (leftName rightName : String) :
    Gives P (either leftName left rightName right v) := by
  unfold either
  split
  · split
    · exact Outcome.gives_rejected _
    · exact hright
  · exact hleft

theorem keeps_bound : Keeps room (·.IsShort) bound := by
  intro v hv
  have hread : Gives (·.IsShort)
      (either "int" (fun v => (int v).map Bound.whole) "float" (fun v => (real v).map .real)
        v) := by
    refine gives_either (Gives.map ?_) (Gives.map fun d _ => trivial) _ _
    exact keeps_int v hv
  cases v with
  | int i => exact Outcome.gives_accepted (of_decide_eq_true (isWritable_iff.1 hv).1)
  | real d => exact Outcome.gives_accepted trivial
  | _ => exact hread

theorem Keeps.pair {P : α → Prop} {r : Reader α} (h : Keeps room P r) :
    Keeps room (fun p => P p.1 ∧ P p.2) (pair r) := by
  intro v hv
  unfold Reading.pair
  cases hitems : itemsOf? v with
  | none => exact Outcome.gives_rejected _
  | some items =>
    have hparts := isWritable_of_itemsOf? hv hitems
    rcases items with _ | ⟨a, _ | ⟨b, _ | ⟨c, rest⟩⟩⟩
    · exact Outcome.gives_rejected _
    · have hmissing : Gives (fun _ : α => False) (Outcome.under (.index 1) (.fail .missing)) :=
        (Outcome.gives_rejected _).under _
      refine Gives.both hmissing ?_
      exact fun _ _ _ hb => hb.elim
    · have hfirst := (h a (hparts a (by simp))).under (.index 0)
      have hsecond := (h b (hparts b (by simp))).under (.index 1)
      refine Gives.both hsecond (Gives.map ?_)
      exact fun x hx y hy => ⟨hfirst x hx, hy⟩
    · exact Outcome.gives_rejected _

/-! ## 3. Records with numbers -/

/-- A length that may be missing. -/
theorem gives_length (least : Nat) (f : FieldName) {es : Entries}
    (hes : (Value.map es).isWritable room = true) :
    Gives ShortNat (fieldOpt f (natFrom least) es) :=
  (keeps_natFrom least).fieldOpt f hes

/-- A bound that may be missing. -/
theorem gives_bound (f : FieldName) {es : Entries} (hes : (Value.map es).isWritable room = true) :
    Gives ShortBound (fieldOpt f bound es) :=
  keeps_bound.fieldOpt f hes

theorem keeps_ruleSet : Keeps room (·.HasShortNumbers) ruleSet := by
  refine keeps_record fun es hes => ?_
  iterate 2 refine Gives.skip ?_
  refine Gives.use (gives_bound _ hes) (Gives.use (gives_bound _ hes)
    (Gives.use (gives_bound _ hes) (Gives.use (keeps_bound.pair.fieldOpt _ hes)
      (Gives.use (gives_bound _ hes) (Gives.use (gives_bound _ hes) ?_)))))
  iterate 4 refine Gives.skip ?_
  refine Gives.use (keeps_int.pair.fieldOpt _ hes) (Gives.use (gives_length _ _ hes) ?_)
  iterate 4 refine Gives.skip ?_
  refine Gives.use (gives_length _ _ hes) (Gives.use (gives_length _ _ hes) ?_)
  iterate 4 refine Gives.skip ?_
  refine Outcome.gives_first _ ?_
  intro _ _ _ _ _ _ hminLength _ hmaxLength _ _ _ _ _ hdigits _ hdigitsBetween _ _ _ _ _ hmin _ hmax
    _ hbetween _ hgt _ hlt _ hmultipleOf _ _
  exact ⟨hminLength, hmaxLength, hdigits, hdigitsBetween, hmin, hmax, hbetween, hgt, hlt,
    hmultipleOf⟩

theorem keeps_entryOverride : Keeps room (·.HasShortNumbers) entryOverride := by
  refine keeps_record fun es hes => ?_
  refine Gives.use (keeps_ruleSet.fieldOpt _ hes) (Gives.skip (Gives.skip ?_))
  refine Gives.use (gives_length _ _ hes) (Outcome.gives_first _ ?_)
  exact fun _ _ hlength _ _ _ hrules => ⟨hlength, hrules⟩

theorem keeps_numbers_property : Keeps room (·.HasShortNumbers) property := by
  intro v hv
  cases v with
  | map es =>
    refine (Outcome.gives_true _).andThen fun tag _ => Gives.under (Gives.skip ?_) _
    refine Gives.use (keeps_entryOverride.map.fieldOr (List.forall_mem_nil _) _ hv) ?_
    refine Gives.use (keeps_ruleSet.fieldOpt _ hv) (Gives.skip ?_)
    refine Gives.use (gives_bound _ hv) (Gives.use (gives_bound _ hv) ?_)
    refine Gives.use (gives_length _ _ hv) (Gives.use (gives_length _ _ hv)
      (Gives.use (gives_length _ _ hv) ?_))
    iterate 3 refine Gives.skip ?_
    refine Outcome.gives_first _ ?_
    intro _ _ _ _ _ hlength _ hminLength _ hmaxLength _ hmin _ hmax _ _ hrules _ hoverrides _
    exact ⟨hlength, hminLength, hmaxLength, hmin, hmax, hrules, hoverrides⟩
  | _ => exact (Outcome.gives_rejected _).under _

/-- The numbers of the properties of an entity. -/
theorem keeps_numbers_schema :
    Keeps room (fun s => ∀ e ∈ s.properties, e.2.HasShortNumbers) schema := by
  refine keeps_record fun es hes => ?_
  iterate 3 refine Gives.skip ?_
  refine Gives.use (keeps_numbers_property.map.fieldOr (List.forall_mem_nil _) _ hes) ?_
  iterate 2 refine Gives.skip ?_
  exact Outcome.gives_first _ fun _ _ _ _ hproperties _ _ _ => hproperties

/-! ## 4. Plugin types -/

section Lifted

variable {n : Nat} {es nested : Entries}

theorem AreWritable.without (h : AreWritable n es) (name : String) :
    AreWritable n (without name es) :=
  fun e he => h e (List.mem_of_mem_filter he)

theorem AreWritable.withDefault (h : AreWritable n es) {v : Value} (hv : v.isWritable n = true)
    (name : String) : AreWritable n (withDefault name v es) := by
  unfold Reading.withDefault
  split
  · exact h
  · exact List.forall_mem_append.2 ⟨h, List.forall_mem_singleton.2 ⟨rfl, hv⟩⟩

theorem AreWritable.liftEntry (h : AreWritable n es)
    (hnested : (Value.map nested).isWritable n = true) (name : String) :
    AreWritable n (liftEntry name nested es) := by
  unfold Reading.liftEntry
  split
  · next v hv => exact h.withDefault (isWritable_of_entry hnested hv) name
  · exact h

/-- **Flat entries** can be written if the nested ones can. -/
theorem AreWritable.lifted (h : AreWritable n es) : AreWritable n (lifted es) := by
  have hsql : AreWritable n (liftSql es) := by
    unfold liftSql
    split
    · next nested hnested =>
      have hwritable := AreWritable.entry h hnested
      exact ((h.without "sql").liftEntry hwritable "nullable").liftEntry hwritable "length"
    · exact h.without "sql"
  unfold Reading.lifted liftTypescript
  split
  · next nested hnested =>
    split
    · next v hv =>
      exact (hsql.without "typescript").withDefault
        (isWritable_of_entry (AreWritable.entry hsql hnested) hv) "type_hint"
    · exact hsql.without "typescript"
  · exact hsql.without "typescript"

end Lifted

theorem isWritable_lifted {es : Entries} (h : (Value.map es).isWritable room = true) :
    (Value.map (lifted es)).isWritable room = true := by
  obtain ⟨n, rfl, hes⟩ := isWritable_map_iff.1 h
  exact (AreWritable.lifted hes).map

theorem keeps_compoundEntry : Keeps room (·.HasShortNumbers) compoundEntry := by
  refine keeps_record fun raw hraw => Gives.skip (Gives.skip ?_)
  have hes := isWritable_lifted hraw
  refine Gives.use (keeps_ruleSet.fieldOpt _ hes) (Gives.use (gives_length _ _ hes) ?_)
  refine Gives.skip (Gives.skip (Outcome.gives_first _ ?_))
  exact fun _ _ _ _ hlength _ hrules _ _ => ⟨hlength, hrules⟩

theorem keeps_customType : Keeps room (·.HasShortNumbers) customType := by
  refine keeps_record fun raw hraw => ?_
  have hes := isWritable_lifted hraw
  refine Gives.use (gives_length _ _ hes) (Gives.skip (Gives.skip ?_))
  refine Gives.use (keeps_compoundEntry.list.fieldOr (List.forall_mem_nil _) _ hes) ?_
  refine Gives.skip (Outcome.gives_first _ ?_)
  exact fun _ _ _ hexpand _ _ _ hlength => ⟨hlength, hexpand⟩

/-- The numbers of the plugin types of the settings. -/
theorem keeps_numbers_config :
    Keeps room (fun c => ∀ t ∈ c.customTypes, t.2.HasShortNumbers) config := by
  refine keeps_record fun es hes => ?_
  iterate 12 refine Gives.skip ?_
  refine Gives.use (keeps_customType.byName.fieldOr (List.forall_mem_nil _) _ hes) ?_
  iterate 4 refine Gives.skip ?_
  exact Outcome.gives_first _ fun _ _ _ _ _ _ htypes _ _ _ _ _ _ _ _ _ _ _ _ => htypes

end Reading

/-! ## 5. Snapshots -/

/-- **The numbers of a snapshot that can be written are short**, and so are all that its files
show. -/
theorem Snapshot.isShort_of_ofEntries {room : Nat} {raw : Reading.Entries} {snapshot : Snapshot}
    (hraw : (Value.map raw).isWritable room = true) (h : ofEntries raw = .ok snapshot) :
    ∀ s ∈ snapshot.collection.schemas, ∀ b ∈ Output.numbersOf snapshot.config s, b.IsShort := by
  obtain ⟨hschemas, hconfig⟩ :=
    of_ofEntries Reading.keeps_numbers_schema Reading.keeps_numbers_config hraw h
  exact fun s hs => Output.isShort_of_mem_numbersOf (hschemas s hs) hconfig

end SchemaTypes
