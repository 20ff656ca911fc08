import DocStore.Proofs.Value.Exclusion
import DocStore.Proofs.Value.Neutral

/-! # What an object holds

Records and maps are encoded as objects. Each field or entry has its slot: it may stand under a key,
unless it is left out, and what stands has a value. The object fails with the first slot that fails;
if none does, it holds exactly the keys under which something stands, each with the value of the
last slot that stands under it. -/
set_option autoImplicit false

namespace DocStore.Value

open Json (Sorted)

/-! ## Slots -/

/-- How the elements of a list are to make the members of an object. -/
structure Slots (α : Type) where
  /-- Whether the key of an element comes to an error. -/
  keyFails : α → Error → Prop
  /-- Whether an element is not left out and has the given key. -/
  stands : α → String → Prop
  value : α → Except Error Json

namespace Slots

variable {α : Type} (s : Slots α)

/-- Whether an element fails with its key or, if it stands, with its value. -/
def Fails (a : α) (e : Error) : Prop :=
  s.keyFails a e ∨ ∃ key, s.stands a key ∧ s.value a = .error e

/-- Whether an outcome is the error of the first element of a list that fails or, if none does, the
object with the last value of each key. -/
structure MakesObject (l : List α) (outcome : Except Error Json) : Prop where
  fails_iff : (∃ e, outcome = .error e) ↔ ∃ a ∈ l, ∃ e, s.Fails a e
  error_iff : ∀ e, outcome = .error e ↔ ∃ before a after, l = before ++ a :: after ∧
    (∀ b ∈ before, ∀ e', ¬s.Fails b e') ∧ s.Fails a e
  object : ∀ j, outcome = .ok j → ∃ members, j = .object members ∧ Sorted members ∧
    (∀ key, key ∈ members.map Prod.fst ↔ ∃ a ∈ l, s.stands a key) ∧
    ∀ m ∈ members, ∃ before a after, l = before ++ a :: after ∧
      s.stands a m.1 ∧ s.value a = .ok m.2 ∧ ∀ b ∈ after, ¬s.stands b m.1

/-- What a step comes to on an element: the error of its key, nothing if it is left out, else a
member with its value. -/
inductive Takes (a : α) : Except Error (Option (String × Json)) → Prop where
  | failed {e : Error} (fails : ∀ e', s.keyFails a e' ↔ e' = e)
    (absent : ∀ key, ¬s.stands a key) : Takes a (.error e)
  | left (passes : ∀ e, ¬s.keyFails a e) (absent : ∀ key, ¬s.stands a key) : Takes a (.ok none)
  | kept {key : String} (passes : ∀ e, ¬s.keyFails a e)
    (only : ∀ key', s.stands a key' ↔ key' = key) :
    Takes a ((fun j => some (key, j)) <$> s.value a)

/-- Whether a step comes to what a slot says. -/
structure Follows (step : α → Except Error (Option (String × Json))) : Prop where
  error_iff : ∀ a e, step a = .error e ↔ s.Fails a e
  some_iff : ∀ a m, step a = .ok (some m) ↔ s.stands a m.1 ∧ s.value a = .ok m.2

variable {s} {step : α → Except Error (Option (String × Json))}

theorem Takes.error_iff {a : α} {r : Except Error (Option (String × Json))} (h : s.Takes a r)
    (e : Error) : r = .error e ↔ s.Fails a e := by
  cases h with
  | failed fails absent => simp [Fails, fails, absent, eq_comm]
  | left passes absent => simp [Fails, passes, absent]
  | kept passes only =>
    cases value : s.value a with
    | ok j => simp [Fails, passes, value]
    | error e' => simp [Fails, passes, only, value]

theorem Takes.some_iff {a : α} {r : Except Error (Option (String × Json))} (h : s.Takes a r)
    (m : String × Json) : r = .ok (some m) ↔ s.stands a m.1 ∧ s.value a = .ok m.2 := by
  cases h with
  | failed _ absent => simp [absent]
  | left _ absent => simp [absent]
  | kept _ only =>
    obtain ⟨key', j'⟩ := m
    cases value : s.value a with
    | ok j => simp [only, eq_comm]
    | error e' => simp

theorem Follows.of_takes (h : ∀ a, s.Takes a (step a)) : s.Follows step :=
  ⟨fun a => (h a).error_iff, fun a => (h a).some_iff⟩

theorem Follows.exists_ok_iff (h : s.Follows step) (a : α) :
    (∃ r, step a = .ok r) ↔ ∀ e, ¬s.Fails a e := by
  simp only [← h.error_iff]
  cases step a <;> simp

theorem Follows.exists_of_stands (h : s.Follows step) {a : α} {key : String}
    {r : Option (String × Json)} (passes : step a = .ok r) (stands : s.stands a key) :
    ∃ j, step a = .ok (some (key, j)) := by
  cases value : s.value a with
  | ok j => exact ⟨j, (h.some_iff a (key, j)).mpr ⟨stands, value⟩⟩
  | error e =>
    have failed := (h.error_iff a e).mpr (.inr ⟨key, stands, value⟩)
    rw [passes] at failed
    cases failed

theorem Follows.makesObject (h : s.Follows step) (l : List α) :
    s.MakesObject l (do
      let members ← l.mapM step
      pure (Json.ofMembers (members.filterMap id))) := by
  have error_iff (e : Error) : (do
      let members ← l.mapM step
      pure (Json.ofMembers (members.filterMap id))) = .error e ↔ l.mapM step = .error e := by
    cases l.mapM step with
    | ok rs => exact iff_of_false nofun nofun
    | error e' => simp
  constructor
  · simp only [error_iff, ← h.error_iff]
    constructor
    · rintro ⟨e, failed⟩
      obtain ⟨a, mem, failed⟩ := Outcome.exists_of_mapM_eq_error failed
      exact ⟨a, mem, e, failed⟩
    · rintro ⟨a, mem, e, failed⟩
      cases listed : l.mapM step with
      | error e' => exact ⟨e', rfl⟩
      | ok rs =>
        obtain ⟨r, passed⟩ := Outcome.exists_of_mapM_eq_ok listed mem
        rw [passed] at failed
        cases failed
  · intro e
    rw [error_iff, Outcome.mapM_eq_error_iff]
    simp only [h.exists_ok_iff, h.error_iff]
  · intro j made
    obtain ⟨rs, listed, same⟩ := Outcome.bind_eq_ok.mp made
    refine ⟨Json.sortMembers (rs.filterMap id), (Except.ok.inj same).symm,
      Json.sorted_sortMembers _, ?_, ?_⟩
    · intro key
      rw [Json.mem_keys_sortMembers_iff, List.mem_map]
      constructor
      · rintro ⟨m, mem, rfl⟩
        obtain ⟨a, ha, kept⟩ := Outcome.exists_of_mem_filterMap listed mem
        exact ⟨a, ha, ((h.some_iff a m).mp kept).1⟩
      · rintro ⟨a, ha, stands⟩
        obtain ⟨r, passes⟩ := Outcome.exists_of_mapM_eq_ok listed ha
        obtain ⟨j, kept⟩ := h.exists_of_stands passes stands
        have mem := (Outcome.mem_iff_of_mapM_eq_ok listed).mpr ⟨a, ha, kept⟩
        exact ⟨(key, j), List.mem_filterMap.mpr ⟨_, mem, rfl⟩, rfl⟩
    · intro m mem
      obtain ⟨front, back, split, others⟩ := Json.mem_sortMembers_iff.mp mem
      obtain ⟨before, a, after, rfl, kept, later⟩ :=
        Outcome.exists_of_filterMap_eq_append listed split
      obtain ⟨stands, value⟩ := (h.some_iff a m).mp kept
      refine ⟨before, a, after, rfl, stands, value, fun b hb again => ?_⟩
      obtain ⟨r, passes⟩ := Outcome.exists_of_mapM_eq_ok listed (a := b) (by simp [hb])
      obtain ⟨j', kept'⟩ := h.exists_of_stands passes again
      exact others _ (later b hb _ kept') rfl

end Slots

/-! ## Fields and entries -/

section

variable (transforms : Transforms) (levels : Nat) (o : EncodeOptions)

/-- A field stands under its own key. Its value is encoded one level deeper with the encoders of its
record. -/
def fieldSlots (encoders : EncoderTable) : Slots (RecordField Value) where
  keyFails _ _ := False
  stands f key := f.key = key ∧ leavesOut o f = false ∧ (f.value.isNull = true → o.keepNulls = true)
  value f := encodeWithin transforms levels (fieldOptions o encoders) f.value

/-- An entry stands under the text of its key. Key and value are both encoded one level deeper with
the encoders of the map. -/
def entrySlots : Slots (Value × Value) where
  keyFails entry e :=
    encodeWithin transforms levels o.nested entry.1.unwrapped = .error e ∨
      ∃ j, encodeWithin transforms levels o.nested entry.1.unwrapped = .ok j ∧ keyText? j = none ∧
        e = .unencodable entry.1.unwrapped.typeName (.compoundKey j)
  stands entry key :=
    (∃ j, encodeWithin transforms levels o.nested entry.1.unwrapped = .ok j ∧
      keyText? j = some key) ∧ o.excludes key = false
  value entry := encodeWithin transforms levels o.nested entry.2

end

section

variable {transforms : Transforms} {levels : Nat} {o : EncodeOptions}

theorem fieldSlots_takes (encoders : EncoderTable) (f : RecordField Value) :
    (fieldSlots transforms levels o encoders).Takes f
      (encodeField (encodeWithin transforms levels) o encoders f) := by
  have passes (e : Error) : ¬(fieldSlots transforms levels o encoders).keyFails f e := id
  rw [encodeField]
  split
  · next out =>
    refine .left passes ?_
    rintro key ⟨-, stays, -⟩
    exact Bool.false_ne_true (stays.symm.trans out)
  · next stays =>
    split
    · next dropped =>
      obtain ⟨isNull, drops⟩ := Bool.and_eq_true_iff.mp dropped
      refine .left passes ?_
      rintro key ⟨-, -, keeps⟩
      rw [keeps isNull] at drops
      cases drops
    · next kept =>
      have stands : leavesOut o f = false ∧ (f.value.isNull = true → o.keepNulls = true) :=
        ⟨by simpa [leavesOut] using stays, by simpa using kept⟩
      have only (key : String) :
          (fieldSlots transforms levels o encoders).stands f key ↔ key = f.key :=
        ⟨fun h => h.1.symm, fun h => ⟨h.symm, stands⟩⟩
      exact .kept passes only

theorem entrySlots_takes (entry : Value × Value) :
    (entrySlots transforms levels o).Takes entry
      (encodeEntry (encodeWithin transforms levels) o entry) := by
  rw [encodeEntry, encodeKey]
  cases key : encodeWithin transforms levels o.nested entry.1.unwrapped with
  | error e =>
    refine .failed (fun e' => ?_) fun key' => ?_
    · simp only [entrySlots, key]
      simp [eq_comm]
    · simp [entrySlots, key]
  | ok j =>
    rw [Outcome.ok_bind]
    cases text : keyText? j with
    | none => exact .failed (by simp [entrySlots, key, text]) (by simp [entrySlots, key, text])
    | some s =>
      have passes (e : Error) : ¬(entrySlots transforms levels o).keyFails entry e := by
        simp [entrySlots, key, text]
      have stands_iff (key' : String) :
          (entrySlots transforms levels o).stands entry key' ↔
            s = key' ∧ o.excludes key' = false := by
        simp [entrySlots, key, text]
      change (entrySlots transforms levels o).Takes entry (if o.excludes s = true then .ok none
        else (fun j => some (s, j)) <$> encodeWithin transforms levels o.nested entry.2)
      split
      · next out =>
        refine .left passes fun key' stands => ?_
        obtain ⟨rfl, stays⟩ := (stands_iff key').mp stands
        exact Bool.false_ne_true (stays.symm.trans out)
      · next stays =>
        refine .kept passes fun key' => (stands_iff key').trans ⟨fun h => h.1.symm, ?_⟩
        rintro rfl
        exact ⟨rfl, by simpa using stays⟩

theorem makesObject_record {typeName : String} {fields : List (RecordField Value)}
    {encoders : EncoderTable} :
    (fieldSlots transforms levels o encoders).MakesObject fields
      (encodeBuiltin (encodeWithin transforms levels) o (record typeName fields encoders)) :=
  (Slots.Follows.of_takes (fieldSlots_takes encoders)).makesObject fields

theorem makesObject_map {entries : List (Value × Value)} :
    (entrySlots transforms levels o).MakesObject entries
      (encodeBuiltin (encodeWithin transforms levels) o (map entries)) :=
  (Slots.Follows.of_takes entrySlots_takes).makesObject entries

theorem encodeWithin_of_fallsThrough {v : Value} (h : FallsThrough transforms o.encoders v) :
    encodeWithin transforms (levels + 1) o v =
      encodeBuiltin (encodeWithin transforms levels) o v := by
  cases first : o.encoders.apply transforms v with
  | none => exact encodeWithin_unmatched first
  | some w => exact encodeWithin_returned first (h w first)

end

/-! ## Objects -/

/-- A record that no encoder replaces makes the object of its fields, and a map that none replaces
that of its entries. -/
theorem encodeWithin_object (transforms : Transforms) (levels : Nat) (o : EncodeOptions) :
    (∀ typeName fields encoders,
      FallsThrough transforms o.encoders (record typeName fields encoders) →
      (fieldSlots transforms levels o encoders).MakesObject fields
        (encodeWithin transforms (levels + 1) o (record typeName fields encoders))) ∧
    ∀ entries, FallsThrough transforms o.encoders (map entries) →
      (entrySlots transforms levels o).MakesObject entries
        (encodeWithin transforms (levels + 1) o (map entries)) := by
  constructor
  · intro typeName fields encoders falls
    rw [encodeWithin_of_fallsThrough falls]
    exact makesObject_record
  · intro entries falls
    rw [encodeWithin_of_fallsThrough falls]
    exact makesObject_map

/-- Fields of a record of which two have one key, one is to be left out and one is null. -/
def signupFields : List (RecordField Value) :=
  [⟨"user_name", some "name", .string "Ann"⟩, ⟨"name", none, .string "Bob"⟩,
    ⟨"pw", some "password", .foreign "Key" 1⟩, ⟨"note", none, .null⟩]

/-- Options that mask texts, drop nulls and leave the password out. -/
def masking : EncodeOptions where
  exclude := ["password"]
  keepNulls := false
  encoders := [⟨"mask", 0⟩]

/-- Two keys that have one text. -/
def numbered : List (Value × Value) := [(.int 1, .string "a"), (.string "1", .string "b")]

/-- The encoder in the options masks texts, but not those of the record, which brings none; of two
members with one key the last one counts. -/
theorem encodeWithin_object_signup :
    (FallsThrough echoing masking.encoders (record "Signup" signupFields []) ∧
      (fieldSlots echoing maxNesting masking []).MakesObject signupFields
        ((record "Signup" signupFields []).encode echoing masking) ∧
      (record "Signup" signupFields []).encode echoing masking =
        .ok (.object [("name", .string "Bob")])) ∧
    FallsThrough noTransforms [] (map numbered) ∧
      (entrySlots noTransforms maxNesting {}).MakesObject numbered
        ((map numbered).encode noTransforms {}) ∧
      (map numbered).encode noTransforms {} = .ok (.object [("1", .string "b")]) := by
  obtain ⟨records, -⟩ := encodeWithin_object echoing maxNesting masking
  obtain ⟨-, maps⟩ := encodeWithin_object noTransforms maxNesting {}
  have unmatched : FallsThrough echoing masking.encoders (record "Signup" signupFields []) := nofun
  have unmatched' : FallsThrough noTransforms [] (map numbered) := nofun
  exact ⟨⟨unmatched, records _ _ _ unmatched, rfl⟩, unmatched', maps _ unmatched', rfl⟩

end DocStore.Value
