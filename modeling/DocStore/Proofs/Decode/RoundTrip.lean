import DocStore.Decode.Fields
import DocStore.Proofs.Value.Canonical
import Mathlib.Data.List.Nodup
import Mathlib.Data.List.Perm.Basic

/-! # Decoding undoes encoding

Data of a shape that is built from scalars with an exact JSON form comes back from what it is
encoded as. The proof goes by the shape through one intermediate value, the JSON form of the data:
encoding comes to it in whatever order a map lists its entries, and decoding inverts it. -/
set_option autoImplicit false

namespace DocStore.Shape

/-! ## Data -/

def isOption : Shape → Bool
  | option _ => true
  | _ => false

/-- Whether a shape is built from scalars that have an exact JSON form, with no option directly
around an option. -/
def isExact : Shape → Bool
  | bool | int64 | int32 | nat64 | nat32 | float | string | secret => true
  | option s => !s.isOption && s.isExact
  | list s | map s => s.isExact
  | _ => false

/-- Whether all doubles in data are finite, and its maps stand in the order of their keys. A map is
no more than the data of each key, so it has one such list. -/
def WellFormed : (s : Shape) → s.Carrier → Prop
  | float, (x : Binary64) => x.IsFinite
  | option s, (o : Option s.Carrier) => ∀ x ∈ o, s.WellFormed x
  | list s, (items : List s.Carrier) => ∀ x ∈ items, s.WellFormed x
  | map s, (members : List (String × s.Carrier)) =>
    members.Pairwise (fun m n => m.1 < n.1) ∧ ∀ m ∈ members, s.WellFormed m.2
  | _, _ => True

/-- Whether data is a listing of other data: the same but for the order in which maps list their
members, as a map without order may list them in any. -/
def Lists : (s : Shape) → s.Carrier → s.Carrier → Prop
  | option s, (o : Option s.Carrier), (o' : Option s.Carrier) => Option.Rel s.Lists o o'
  | list s, (items : List s.Carrier), (items' : List s.Carrier) => List.Forall₂ s.Lists items items'
  | map s, (members : List (String × s.Carrier)), (members' : List (String × s.Carrier)) =>
    ∃ order, order.Perm members' ∧
      List.Forall₂ (fun m n => m.1 = n.1 ∧ s.Lists m.2 n.2) members order
  | _, x, y => x = y

/-- The greatest number of lists and maps around a part of data. -/
def nesting : (s : Shape) → s.Carrier → Nat
  | option s, (o : Option s.Carrier) => o.elim 0 s.nesting
  | list s, (items : List s.Carrier) => (items.map fun x => s.nesting x + 1).max?.getD 0
  | map s, (members : List (String × s.Carrier)) =>
    (members.map fun m => s.nesting m.2 + 1).max?.getD 0
  | _, _ => 0

def form : (s : Shape) → s.Carrier → Json
  | bool, (b : Bool) => .bool b
  | int64, (i : Int64) => .number (.ofInt64 i)
  | int32, (i : Int32) => .number (.ofInt64 i.toInt64)
  | nat64, (n : UInt64) => .number (.ofNat64 n)
  | nat32, (n : UInt32) => .number (.ofNat64 n.toUInt64)
  | float, (x : Binary64) => ((Number.ofBinary64? x).map Json.number).getD .null
  | string, (s : String) => .string s
  | secret, (s : Secret) => .string s.exposed
  | option s, (o : Option s.Carrier) => o.elim .null s.form
  | list s, (items : List s.Carrier) => .array (items.map s.form)
  | map s, (members : List (String × s.Carrier)) =>
    .object (members.map fun m => (m.1, s.form m.2))
  | _, _ => .null

theorem form_float {x : Binary64} (finite : x.IsFinite) :
    float.form x = .number (.float x finite) := by
  rw [form, Number.ofBinary64?, dif_pos finite]
  rfl

/-! ## Decoding the form -/

theorem isNull_form {s : Shape} (exact : s.isExact) (single : s.isOption = false) {x : s.Carrier}
    (wf : s.WellFormed x) : (s.form x).isNull = false := by
  cases s with
  | option s => cases single
  | float =>
    rw [form_float wf]
    rfl
  | bool | int64 | int32 | nat64 | nat32 | string | secret | list | map => rfl
  | json | timestamp | date | duration | elapsed | uuid | ipAddr | socketAddr | path => cases exact

theorem decodeMembers_map {α : Type} {decode : Json → Except Error α} {form : α → Json}
    {members : List (String × α)} (h : ∀ m ∈ members, decode (form m.2) = .ok m.2) :
    decodeMembers decode (members.map fun m => (m.1, form m.2)) = .ok members := by
  induction members with
  | nil => rfl
  | cons m members ih =>
    obtain ⟨first, rest⟩ := List.forall_mem_cons.mp h
    rw [List.map_cons, decodeMembers, first, Outcome.ok_bind, ih rest]
    rfl

theorem toInt64?_ofInt64 (i : Int64) : (Number.ofInt64 i).toInt64? = some i.toInt := by
  have := i.toInt_lt
  rw [Number.ofInt64, Number.toInt64?, if_pos (by omega)]

theorem toNat64?_ofNat64 (n : UInt64) : (Number.ofNat64 n).toNat64? = some n.toNat := by
  rw [Number.ofNat64, Number.toNat64?, if_pos (by omega), Int.toNat_natCast]

theorem decode_form {s : Shape} (exact : s.isExact) {x : s.Carrier} (wf : s.WellFormed x) :
    s.decode (s.form x) = .ok x := by
  induction s with
  | bool | string | secret => rfl
  | int64 =>
    rw [form, decode, Json.number?, Option.bind_some, toInt64?_ofInt64, Option.map_some,
      Int64.ofInt_toInt]
    rfl
  | int32 =>
    have := Int32.le_toInt x
    have := Int32.toInt_lt x
    rw [form, decode, Json.number?, Option.bind_some, toInt64?_ofInt64, Option.bind_some,
      Int32.toInt_toInt64, toInt32?, if_pos (by omega), Int32.ofInt_toInt]
    rfl
  | nat64 =>
    rw [form, decode, Json.number?, Option.bind_some, toNat64?_ofNat64, Option.map_some,
      UInt64.ofNat_toNat]
    rfl
  | nat32 =>
    have := UInt32.toNat_lt x
    rw [form, decode, Json.number?, Option.bind_some, toNat64?_ofNat64, Option.bind_some,
      UInt32.toNat_toUInt64, toNat32?, if_pos (by omega), UInt32.ofNat_toNat]
    rfl
  | float =>
    rw [form_float wf]
    rfl
  | option s ih =>
    obtain ⟨single, inner⟩ := Bool.and_eq_true_iff.mp exact
    rw [decode]
    cases x with
    | none => rfl
    | some x =>
      have notNull := isNull_form inner (by simpa using single) (wf x rfl)
      rw [form, Option.elim_some, notNull, if_neg Bool.false_ne_true, ih inner (wf x rfl)]
      rfl
  | list s ih =>
    have each := Outcome.mapM_map_eq_ok (f := s.decode) (g := s.form) (k := id) (l := x)
      fun y mem => ih exact (wf y mem)
    rwa [List.map_id] at each
  | map s ih => exact decodeMembers_map fun m mem => ih exact (wf.2 m mem)
  | json | timestamp | date | duration | elapsed | uuid | ipAddr | socketAddr | path => cases exact

/-! ## Encoding comes to the form -/

theorem nesting_lt_of_mem {s : Shape} {items : List s.Carrier} {x : s.Carrier} (mem : x ∈ items) :
    s.nesting x < (list s).nesting items :=
  List.le_max?_getD_of_mem (List.mem_map_of_mem (f := fun x => s.nesting x + 1) mem)

theorem nesting_lt_of_member {s : Shape} {members : List (String × s.Carrier)}
    {m : String × s.Carrier} (mem : m ∈ members) : s.nesting m.2 < (map s).nesting members :=
  List.le_max?_getD_of_mem
    (List.mem_map_of_mem (f := fun m : String × s.Carrier => s.nesting m.2 + 1) mem)

section Encoding

variable {transforms : Transforms}

open Value (Below Plain encodeWithin encodeBuiltin encodeWithin_plain encode_ofNumber
  encodeEntry_string)

theorem ofNat64_eq_ofNumber (n : UInt64) : Value.ofNat64 n = .ofNumber (.ofNat64 n) := by
  rw [Value.ofNat64, Number.ofNat64, Value.ofNumber, Int.toNat_natCast, UInt64.ofNat_toNat]
  by_cases signed : n.toNat < 9223372036854775808
  · rw [if_pos signed, if_pos (by omega)]
  · rw [if_neg signed, if_neg (by omega)]

theorem encode_nat32 (below : Below) (o : EncodeOptions) (n : UInt32) :
    encodeBuiltin below o (nat32.toValue n) = .ok (nat32.form n) := by
  have small : n.toUInt64.toNat < 9223372036854775808 := by
    have := n.toNat_lt
    rw [UInt32.toNat_toUInt64]
    omega
  have same : nat32.toValue n = .ofNumber (.ofNat64 n.toUInt64) := by
    rw [← ofNat64_eq_ofNumber, Value.ofNat64, if_pos small, UInt32.toNat_toUInt64]
    rfl
  rw [same]
  exact encode_ofNumber below o _

/-- What the entries of a map encode to, in the order of the data that they list. -/
theorem encode_entries {α : Type} {levels : Nat} {o : EncodeOptions} (plain : Plain o)
    (toValue : α → Value) (form : α → Json) {R : α → α → Prop}
    {listed order : List (String × α)}
    (related : List.Forall₂ (fun m n => m.1 = n.1 ∧ R m.2 n.2) listed order)
    (below : ∀ x, ∀ m ∈ order, R x m.2 →
      encodeWithin transforms levels o.nested (toValue x) = .ok (form m.2)) :
    encodeBuiltin (encodeWithin transforms levels) o
        (.map (listed.map fun m => (.string m.1, toValue m.2))) =
      .ok (Json.ofMembers (order.map fun m => (m.1, form m.2))) := by
  have each : (listed.map fun m => (Value.string m.1, toValue m.2)).mapM
      (Value.encodeEntry (encodeWithin transforms levels) o) =
      .ok (order.map fun m => some (m.1, form m.2)) := by
    refine Outcome.mapM_forall₂_eq_ok related ?_
    rintro ⟨key, x⟩ ⟨key', y⟩ mem ⟨same, alike⟩
    cases same
    exact encodeEntry_string plain key (below x _ mem alike)
  have kept : (order.map fun m => some (m.1, form m.2)).filterMap id =
      order.map fun m => (m.1, form m.2) := by
    rw [List.filterMap_map]
    exact congrFun List.filterMap_eq_map order
  rw [encodeBuiltin, each, Outcome.ok_bind, kept]
  rfl

theorem encode_toValue {s : Shape} (exact : s.isExact) {x x' : s.Carrier} (wf : s.WellFormed x)
    (listed : s.Lists x' x) {levels : Nat} (shallow : s.nesting x ≤ levels) {o : EncodeOptions}
    (plain : Plain o) :
    encodeWithin transforms (levels + 1) o (s.toValue x') = .ok (s.form x) := by
  -- A list or a map takes one level of the budget, an option takes none.
  induction s generalizing levels o with
  | option s ih =>
    obtain ⟨-, inner⟩ := Bool.and_eq_true_iff.mp exact
    cases listed with
    | some same => exact ih inner (wf _ rfl) same shallow plain
    | none =>
      rw [encodeWithin_plain transforms levels plain]
      rfl
  | list s ih =>
    have each : (x'.map s.toValue).mapM (encodeWithin transforms levels o.nested) =
        .ok (x.map s.form) := by
      refine Outcome.mapM_forall₂_eq_ok listed fun y' y mem same => ?_
      have below := nesting_lt_of_mem mem
      obtain ⟨levels, rfl⟩ : ∃ n, levels = n + 1 := ⟨levels - 1, by omega⟩
      exact ih exact (wf y mem) same (by omega) plain.nested
    rw [encodeWithin_plain transforms levels plain, toValue, encodeBuiltin, each]
    rfl
  | map s ih =>
    obtain ⟨order, perm, related⟩ := listed
    have each (y' : s.Carrier) (m : String × s.Carrier) (mem : m ∈ order)
        (same : s.Lists y' m.2) :
        encodeWithin transforms levels o.nested (s.toValue y') = .ok (s.form m.2) := by
      have mem : m ∈ x := perm.mem_iff.mp mem
      have below := nesting_lt_of_member mem
      obtain ⟨levels, rfl⟩ : ∃ n, levels = n + 1 := ⟨levels - 1, by omega⟩
      exact ih exact (wf.2 m mem) same (by omega) plain.nested
    have sorted : Json.Sorted (x.map fun m => (m.1, s.form m.2)) := List.pairwise_map.mpr wf.1
    rw [encodeWithin_plain transforms levels plain, toValue,
      encode_entries plain s.toValue s.form related each, Json.ofMembers,
      sorted.sortMembers_eq_of_perm (perm.map _)]
    rfl
  | bool | int64 | int32 | string | secret =>
    cases listed
    rw [encodeWithin_plain transforms levels plain]
    rfl
  | nat64 =>
    cases listed
    rw [encodeWithin_plain transforms levels plain, toValue, ofNat64_eq_ofNumber]
    exact encode_ofNumber ..
  | nat32 =>
    cases listed
    rw [encodeWithin_plain transforms levels plain]
    exact encode_nat32 ..
  | float =>
    cases listed
    rw [encodeWithin_plain transforms levels plain, form_float wf]
    exact encode_ofNumber _ _ (.float x wf)
  | json | timestamp | date | duration | elapsed | uuid | ipAddr | socketAddr | path => cases exact

/-- Whether a value is made from data of an exact shape, with at most the given number of lists and
maps around any part of it. -/
structure Makes (s : Shape) (x : s.Carrier) (v : Value) (depth : Nat) : Prop where
  exact : s.isExact
  wellFormed : s.WellFormed x
  made : ∃ x', s.Lists x' x ∧ v = s.toValue x'
  shallow : s.nesting x ≤ depth

theorem Makes.encode {s : Shape} {x : s.Carrier} {v : Value} {depth : Nat}
    (h : s.Makes x v depth) (transforms : Transforms) {o : EncodeOptions} (plain : Plain o) :
    encodeWithin transforms (depth + 1) o v = .ok (s.form x) := by
  obtain ⟨x', listed, rfl⟩ := h.made
  exact encode_toValue h.exact h.wellFormed listed h.shallow plain

/-! ## Records -/

variable {levels : Nat} {o : EncodeOptions} {fields : List (RecordField Value)}

theorem keys_sublist {below : Below} {encoders : EncoderTable}
    {members : List (Option (String × Json))}
    (h : fields.mapM (Value.encodeField below o encoders) = .ok members) :
    ((members.filterMap id).map Prod.fst).Sublist (fields.map RecordField.key) := by
  induction fields generalizing members with
  | nil =>
    cases h
    exact .slnil
  | cons f fields ih =>
    obtain ⟨m?, rest, first, others, rfl⟩ := Outcome.mapM_cons_eq_ok.mp h
    cases m? with
    | none => exact (ih others).cons _
    | some m =>
      have kept : (some m :: rest).filterMap id = m :: rest.filterMap id := rfl
      rw [kept, List.map_cons, List.map_cons, (Value.of_encodeField first).2.1]
      exact (ih others).cons_cons _

theorem encodeField_eq {below : Below} (plain : Plain o) {f : RecordField Value} {j : Json}
    (h : below (Value.fieldOptions o []) f.value = .ok j) :
    Value.encodeField below o [] f =
      .ok (if f.value.isNull && !o.keepNulls then none else some (f.key, j)) := by
  rw [Value.encodeField, plain.excludes, plain.excludes, if_neg (by simp)]
  split
  · rfl
  · exact congrArg (· >>= _) h

theorem eq_null_of_encode {v : Value} {j : Json} (null : v.isNull = true) (plain : Plain o)
    (h : encodeWithin transforms levels o v = .ok j) : j = .null := by
  cases v with
  | null =>
    cases levels with
    | zero => cases h
    | succ levels =>
      rw [encodeWithin_plain transforms levels plain] at h
      exact (Except.ok.inj h).symm
  | _ => cases null

/-- A record is encoded as an object that has the JSON form of each field; a missing member stands
for null. -/
theorem encode_record (transforms : Transforms) (typeName : String) (plain : Plain o)
    (distinct : (fields.map RecordField.key).Nodup)
    (encoded : ∀ f ∈ fields, ∃ j,
      encodeWithin transforms levels (Value.fieldOptions o []) f.value = .ok j) :
    ∃ members,
      encodeWithin transforms (levels + 1) o (.record typeName fields []) = .ok (.object members) ∧
      (∀ f ∈ fields, ∀ j,
        encodeWithin transforms levels (Value.fieldOptions o []) f.value = .ok j →
        (Json.lookup? f.key members).getD .null = j) ∧
      ∀ key, (∀ f ∈ fields, f.key ≠ key) → Json.lookup? key members = none := by
  have each : ∀ f ∈ fields, ∃ m,
      Value.encodeField (encodeWithin transforms levels) o [] f = .ok m := fun f mem => by
    obtain ⟨j, hj⟩ := encoded f mem
    exact ⟨_, encodeField_eq plain hj⟩
  obtain ⟨found, all⟩ := Outcome.exists_mapM_eq_ok each
  have keys : ((found.filterMap id).map Prod.fst).Nodup := (keys_sublist all).nodup distinct
  have perm := Json.sortMembers_perm keys
  have keys' : ((Json.sortMembers (found.filterMap id)).map Prod.fst).Nodup :=
    (perm.map Prod.fst).nodup_iff.mpr keys
  have mem_iff (m : String × Json) : m ∈ Json.sortMembers (found.filterMap id) ↔
      ∃ f ∈ fields, Value.encodeField (encodeWithin transforms levels) o [] f = .ok (some m) := by
    rw [perm.mem_iff, List.mem_filterMap]
    simp only [id, exists_eq_right]
    exact Outcome.mem_iff_of_mapM_eq_ok all
  refine ⟨Json.sortMembers (found.filterMap id), ?_, fun f mem j hj => ?_, fun key absent => ?_⟩
  · rw [encodeWithin_plain transforms levels plain, encodeBuiltin, all]
    rfl
  · have one := encodeField_eq plain hj
    by_cases out : (f.value.isNull && !o.keepNulls) = true
    · have absent : ∀ m ∈ Json.sortMembers (found.filterMap id), m.1 ≠ f.key := fun m hm same => by
        obtain ⟨g, hg, made⟩ := (mem_iff m).mp hm
        obtain ⟨stays, key, -⟩ := Value.of_encodeField made
        obtain rfl := List.inj_on_of_nodup_map distinct hg mem (key.symm.trans same)
        rw [out] at stays
        cases stays
      rw [Json.lookup?_eq_none absent]
      exact (eq_null_of_encode (Bool.and_eq_true_iff.mp out).1 ⟨rfl, rfl⟩ hj).symm
    · rw [if_neg out] at one
      rw [Json.lookup?_of_mem keys' ((mem_iff (f.key, j)).mpr ⟨f, mem, one⟩)]
      rfl
  · refine Json.lookup?_eq_none fun m hm same => ?_
    obtain ⟨g, hg, made⟩ := (mem_iff m).mp hm
    exact absent g hg ((Value.of_encodeField made).2.1.symm.trans same)

end Encoding

/-! ## The round trip -/

/-- Data of an exact shape comes back from what it is encoded as, and the fields of a record come
back from the object that it is encoded as, whether or not nulls are kept there. -/
theorem decode_encode (transforms : Transforms) :
    (∀ s x v, Makes s x v maxNesting →
      ∃ j, v.toJson transforms = .ok j ∧ s.decode j = .ok x) ∧
    ∀ typeName fields o, Value.Plain o → (fields.map RecordField.key).Nodup →
      (∀ f ∈ fields, ∃ s x, Makes s x f.value (maxNesting - 1)) →
      ∃ j doc, (Value.record typeName fields []).encode transforms o = .ok j ∧
        Fields.ofJson j = .ok doc ∧
        (∀ f ∈ fields, ∀ s x, Makes s x f.value (maxNesting - 1) → doc.get f.key s = .ok x) ∧
        ∀ key s, (∀ f ∈ fields, f.key = key → f.value = .null) →
          doc.get key (option s) = .ok none := by
  constructor
  · intro s x v makes
    have encoded : v.toJson transforms = .ok (s.form x) :=
      makes.encode transforms (o := {}) ⟨rfl, rfl⟩
    exact ⟨s.form x, encoded, decode_form makes.exact makes.wellFormed⟩
  · intro typeName fields o plain distinct typed
    have inner : Value.Plain (Value.fieldOptions o []) := ⟨rfl, rfl⟩
    obtain ⟨members, whole, present, absent⟩ := encode_record transforms typeName
      plain distinct fun f mem => by
        obtain ⟨s, x, makes⟩ := typed f mem
        exact ⟨s.form x, makes.encode transforms inner⟩
    refine ⟨.object members, ⟨members⟩, whole, rfl, fun f mem s x makes => ?_,
      fun key s nulls => ?_⟩
    · have read := present f mem (s.form x) (makes.encode transforms inner)
      rw [Fields.get, Fields.raw?, read, decode_form makes.exact makes.wellFormed]
      rfl
    · have read : (Json.lookup? key members).getD .null = .null := by
        by_cases named : ∃ f ∈ fields, f.key = key
        · obtain ⟨f, mem, rfl⟩ := named
          apply present f mem
          rw [nulls f mem rfl]
          rfl
        · rw [absent key fun f mem same => named ⟨f, mem, same⟩]
          rfl
      rw [Fields.get, Fields.raw?, read]
      rfl

def ports : (map (list (option nat64))).Carrier :=
  [("open", [some 443, none, some 18446744073709551615]), ("spare", [])]

def portsValue : Value :=
  .map [(.string "spare", .list []),
    (.string "open", .list [.int 443, .null, .uint 18446744073709551615])]

def host : List (RecordField Value) :=
  [⟨"address", some "at", .secret "10.0.0.1"⟩, ⟨"weight", none, .null⟩, ⟨"ports", none, portsValue⟩]

theorem makes_ports {depth : Nat} (h : 2 ≤ depth) :
    Makes (map (list (option nat64))) ports portsValue depth where
  exact := rfl
  wellFormed := ⟨by decide, fun m _ x _ y _ => trivial⟩
  made := by
    refine ⟨[("spare", []), ("open", [some 443, none, some 18446744073709551615])], ?_, rfl⟩
    refine ⟨_, .swap .., .cons ⟨rfl, .nil⟩ (.cons ⟨rfl, ?_⟩ .nil)⟩
    exact .cons (.some rfl) (.cons .none (.cons (.some rfl) .nil))
  shallow := h

theorem decode_encode_host :
    (∃ j, portsValue.toJson noTransforms = .ok j ∧
      (map (list (option nat64))).decode j = .ok ports) ∧
    ∃ j doc, (Value.record "Host" host []).encode noTransforms { keepNulls := false } = .ok j ∧
      Fields.ofJson j = .ok doc ∧ doc.get "at" secret = .ok ⟨"10.0.0.1"⟩ ∧
      doc.get "ports" (map (list (option nat64))) = .ok ports ∧
      doc.get "weight" (option int32) = .ok none := by
  obtain ⟨data, records⟩ := decode_encode noTransforms
  refine ⟨data _ _ _ (makes_ports (by decide)), ?_⟩
  have address : Makes secret ⟨"10.0.0.1"⟩ (.secret "10.0.0.1") (maxNesting - 1) :=
    ⟨rfl, trivial, ⟨_, rfl, rfl⟩, Nat.zero_le _⟩
  have weight : Makes (option int32) none .null (maxNesting - 1) :=
    ⟨rfl, nofun, ⟨none, .none, rfl⟩, Nat.zero_le _⟩
  have named : Makes _ ports portsValue (maxNesting - 1) := makes_ports (by decide)
  obtain ⟨j, doc, encoded, object, fields, -⟩ := records "Host" host { keepNulls := false }
    ⟨rfl, rfl⟩ (by decide) (by
      intro f mem
      simp only [host, List.mem_cons, List.not_mem_nil, or_false] at mem
      rcases mem with rfl | rfl | rfl
      · exact ⟨secret, _, address⟩
      · exact ⟨option int32, _, weight⟩
      · exact ⟨_, _, named⟩)
  refine ⟨j, doc, encoded, object, ?_, ?_, ?_⟩
  · exact fields ⟨"address", some "at", .secret "10.0.0.1"⟩ (by simp [host]) secret _ address
  · exact fields ⟨"ports", none, portsValue⟩ (by simp [host]) _ _ named
  · exact fields ⟨"weight", none, .null⟩ (by simp [host]) (option int32) _ weight

end DocStore.Shape
