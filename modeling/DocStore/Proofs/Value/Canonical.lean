import DocStore.Proofs.Json.Canonical
import DocStore.Proofs.Outcome
import DocStore.Value.Conversion
import DocStore.Value.Encoding

/-! # Encoding gives canonical values

Each level of encoding adds at most one level to what the levels below come to, so with a budget of
levels the outcome is canonical and fits that budget, whatever custom encoders do on the way. A
canonical value that fits the budget is its own encoding. -/
set_option autoImplicit false

namespace DocStore.Value

open Json (Fits)

/-! ## One level -/

/-- Whether all that the levels below come to fits a number of levels. -/
def FitsBelow (n : Nat) (below : Below) : Prop := ∀ o v j, below o v = .ok j → Fits n j

theorem fits_float {n : Nat} {t : String} {x : Binary64} {j : Json} (h : encodeFloat t x = .ok j) :
    Fits (n + 1) j := by
  unfold encodeFloat at h
  split at h
  · cases h
    trivial
  · cases h

/-- The options for the fields of a record that brings its own encoders. -/
def fieldOptions (o : EncodeOptions) (encoders : EncoderTable) : EncodeOptions :=
  { exclude := [], keepNulls := o.keepNulls, encoders }

theorem of_encodeField {below : Below} {o : EncodeOptions} {encoders : EncoderTable}
    {f : RecordField Value} {m : String × Json}
    (h : encodeField below o encoders f = .ok (some m)) :
    (f.value.isNull && !o.keepNulls) = false ∧ m.1 = f.key ∧
      below (fieldOptions o encoders) f.value = .ok m.2 := by
  unfold encodeField at h
  split at h
  · cases h
  · split at h
    · cases h
    · next stays =>
      obtain ⟨j, hj, e⟩ := Outcome.bind_eq_ok.mp h
      cases e
      exact ⟨by simpa using stays, rfl, hj⟩

theorem fits_of_encodeField {n : Nat} {below : Below} (hb : FitsBelow n below)
    {o : EncodeOptions} {encoders : EncoderTable} {f : RecordField Value} {m : String × Json}
    (h : encodeField below o encoders f = .ok (some m)) : Fits n m.2 :=
  hb _ _ _ (of_encodeField h).2.2

theorem fits_of_encodeEntry {n : Nat} {below : Below} (hb : FitsBelow n below)
    {o : EncodeOptions} {entry : Value × Value} {m : String × Json}
    (h : encodeEntry below o entry = .ok (some m)) : Fits n m.2 := by
  obtain ⟨key, -, h⟩ := Outcome.bind_eq_ok.mp h
  split at h
  · cases h
  · obtain ⟨j, hj, e⟩ := Outcome.bind_eq_ok.mp h
    cases e
    exact hb _ _ _ hj

theorem fits_of_members {α : Type} {n : Nat} {step : α → Except Error (Option (String × Json))}
    (hs : ∀ a m, step a = .ok (some m) → Fits n m.2) {l : List α} {j : Json}
    (h : (do
      let members ← l.mapM step
      pure (Json.ofMembers (members.filterMap id))) = .ok j) : Fits (n + 1) j := by
  obtain ⟨members, hm, e⟩ := Outcome.bind_eq_ok.mp h
  cases e
  refine Json.fits_ofMembers fun m mem => ?_
  obtain ⟨a, -, ha⟩ := Outcome.exists_of_mem_filterMap hm mem
  exact hs a m ha

theorem fits_builtin {n : Nat} {below : Below} (hb : FitsBelow n below) :
    FitsBelow (n + 1) (encodeBuiltin below) := by
  intro o v j h
  cases v with
  | null => cases h; trivial
  | bool b => cases h; trivial
  | int i => cases h; trivial
  | uint n => cases h; trivial
  | string s => cases h; trivial
  | date d => cases h; trivial
  | uuid u => cases h; trivial
  | ipAddr a => cases h; trivial
  | socketAddr a => cases h; trivial
  | secret s => cases h; trivial
  | float x => exact fits_float h
  | timestamp t =>
    rw [encodeBuiltin] at h
    exact fits_float h
  | duration d =>
    rw [encodeBuiltin] at h
    exact fits_float h
  | bytes bs =>
    rw [encodeBuiltin, encodeBytes] at h
    split at h
    · cases h; trivial
    · cases h
  | path bs =>
    rw [encodeBuiltin, encodePath] at h
    split at h
    · cases h; trivial
    · cases h
  | enumerated t variant v => exact (hb _ _ _ h).succ
  | record t fields encoders => exact fits_of_members (fun f m => fits_of_encodeField hb) h
  | map entries => exact fits_of_members (fun entry m => fits_of_encodeEntry hb) h
  | list items =>
    obtain ⟨js, hjs, e⟩ := Outcome.bind_eq_ok.mp h
    cases e
    intro item mem
    obtain ⟨v, -, hv⟩ := (Outcome.mem_iff_of_mapM_eq_ok hjs).mp mem
    exact hb _ _ _ hv
  | foreign t identity => cases h

/-! ## All levels -/

/-- What is encoded with a budget of levels is canonical and fits the budget. -/
theorem fits_encodeWithin (transforms : Transforms) (levels : Nat) :
    FitsBelow levels (encodeWithin transforms levels) := by
  induction levels with
  | zero =>
    intro o v j h
    cases h
  | succ levels ih =>
    intro o v j h
    simp only [encodeWithin] at h
    split at h
    · split at h
      · exact fits_builtin ih o v j h
      · exact (ih o _ j h).succ
    · exact fits_builtin ih o v j h

/-! ## Encoding again -/

/-- Options that change nothing: no custom encoder is tried and nothing is left out. -/
structure Plain (o : EncodeOptions) : Prop where
  encoders : o.encoders = []
  exclude : o.exclude = []

theorem Plain.nested {o : EncodeOptions} (h : Plain o) : Plain o.nested :=
  ⟨h.encoders, rfl⟩

theorem Plain.excludes {o : EncodeOptions} (h : Plain o) (key : String) :
    o.excludes key = false := by
  rw [EncodeOptions.excludes, h.exclude]
  rfl

theorem encodeWithin_unmatched {transforms : Transforms} {levels : Nat} {o : EncodeOptions}
    {v : Value} (h : o.encoders.apply transforms v = none) :
    encodeWithin transforms (levels + 1) o v =
      encodeBuiltin (encodeWithin transforms levels) o v := by
  simp only [encodeWithin, h]

theorem encodeWithin_of_no_encoders {transforms : Transforms} {levels : Nat} {o : EncodeOptions}
    (h : o.encoders = []) (v : Value) :
    encodeWithin transforms (levels + 1) o v =
      encodeBuiltin (encodeWithin transforms levels) o v :=
  encodeWithin_unmatched (by rw [h]; rfl)

theorem encodeWithin_plain (transforms : Transforms) (levels : Nat) {o : EncodeOptions}
    (h : Plain o) (v : Value) :
    encodeWithin transforms (levels + 1) o v =
      encodeBuiltin (encodeWithin transforms levels) o v :=
  encodeWithin_of_no_encoders h.encoders v

theorem encodeKey_string {transforms : Transforms} {levels : Nat} {o : EncodeOptions}
    (plain : Plain o) (key : String) :
    encodeKey (encodeWithin transforms (levels + 1)) o (.string key) = .ok key := by
  have bare : (string key).unwrapped = string key := rfl
  rw [encodeKey, bare, encodeWithin_plain transforms levels plain.nested]
  rfl

/-- Under a key that is a text an entry fares as its value does, out of levels too. -/
theorem encodeEntry_plain {transforms : Transforms} {levels : Nat} {o : EncodeOptions}
    (plain : Plain o) (key : String) (v : Value) :
    encodeEntry (encodeWithin transforms levels) o (.string key, v) =
      encodeWithin transforms levels o.nested v >>= fun j => .ok (some (key, j)) := by
  cases levels with
  | zero => rfl
  | succ levels =>
    rw [encodeEntry, encodeKey_string plain, Outcome.ok_bind, plain.excludes,
      if_neg Bool.false_ne_true]
    rfl

/-- What the value of an entry encodes to, its member holds under a key that is a text. -/
theorem encodeEntry_string {transforms : Transforms} {levels : Nat} {o : EncodeOptions}
    (plain : Plain o) (key : String) {v : Value} {j : Json}
    (h : encodeWithin transforms levels o.nested v = .ok j) :
    encodeEntry (encodeWithin transforms levels) o (.string key, v) = .ok (some (key, j)) := by
  rw [encodeEntry_plain plain, h, Outcome.ok_bind]

theorem encode_ofNumber (below : Below) (o : EncodeOptions) (n : Number) :
    encodeBuiltin below o (ofNumber n) = .ok (.number n) := by
  cases n with
  | int i inRange =>
    rw [ofNumber]
    by_cases signed : i < 9223372036854775808
    · have same : (Int64.ofInt i).toInt = i := Int64.toInt_ofInt_of_le (by omega) (by omega)
      rw [if_pos signed, encodeBuiltin]
      simp only [Number.ofInt64, same]
    · have fits : i.toNat < 2 ^ 64 := by omega
      have same : ((UInt64.ofNat i.toNat).toNat : Int) = i := by
        rw [UInt64.toNat_ofNat_of_lt' fits]
        omega
      rw [if_neg signed, encodeBuiltin]
      simp only [Number.ofNat64, same]
  | float x finite => simp [ofNumber, encodeBuiltin, encodeFloat, Number.ofBinary64?, finite]

theorem ofItems_eq_map (items : List Json) : ofItems items = items.map ofJson := by
  induction items with
  | nil => rfl
  | cons item items ih => rw [ofItems, ih, List.map_cons]

theorem ofMembers_eq_map (members : List (String × Json)) :
    ofMembers members = members.map fun m => (.string m.1, ofJson m.2) := by
  induction members with
  | nil => rfl
  | cons m members ih => rw [ofMembers, ih, List.map_cons]

/-- A canonical value that fits the budget is its own encoding. -/
theorem encodeWithin_ofJson (transforms : Transforms) {levels : Nat} {o : EncodeOptions}
    (plain : Plain o) {j : Json} (h : Fits levels j) :
    encodeWithin transforms levels o (ofJson j) = .ok j := by
  induction levels generalizing o j with
  | zero => exact h.elim
  | succ levels ih =>
    rw [encodeWithin_plain transforms levels plain]
    cases j with
    | null => rfl
    | bool b => rfl
    | number n => exact encode_ofNumber ..
    | string s => rfl
    | array items =>
      have each : (items.map ofJson).mapM (encodeWithin transforms levels o.nested) =
          .ok (items.map id) :=
        Outcome.mapM_map_eq_ok fun item mem => ih plain.nested (h item mem)
      rw [ofJson, ofItems_eq_map, encodeBuiltin, each, List.map_id]
      rfl
    | object members =>
      obtain ⟨sorted, inner⟩ := h
      have entry (m : String × Json) (mem : m ∈ members) :
          encodeEntry (encodeWithin transforms levels) o (.string m.1, ofJson m.2) =
            .ok (some m) :=
        encodeEntry_string plain m.1 (ih plain.nested (inner m mem))
      have each : (members.map fun m => (Value.string m.1, ofJson m.2)).mapM
          (encodeEntry (encodeWithin transforms levels) o) = .ok (members.map some) :=
        Outcome.mapM_map_eq_ok entry
      have kept : (members.map some).filterMap id = members := by
        rw [List.filterMap_map]
        exact List.filterMap_some
      rw [ofJson, ofMembers_eq_map, encodeBuiltin, each, Outcome.ok_bind, kept, Json.ofMembers,
        sorted.sortMembers_eq]
      rfl

end DocStore.Value
