import DocStore.Proofs.Value.Objects
import DocStore.Proofs.Value.Secrecy

/-! # Records without their nulls

To drop the fields that are null while a value is encoded is to encode, with all fields kept, the
value from whose records they were removed before, wherever these records stand. Nulls in lists and
maps are no fields, so they are kept in any case. -/
set_option autoImplicit false

namespace DocStore.Value

mutual

/-- The value without the fields of its records, and of those in it, whose value is null. -/
def withoutNulls : Value → Value
  | enumerated typeName variant v => enumerated typeName variant (withoutNulls v)
  | record typeName fields encoders => record typeName (withoutNullFields fields) encoders
  | map entries => map (withoutNullsEntries entries)
  | list items => list (withoutNullsItems items)
  | v => v

def withoutNullsItems : List Value → List Value
  | [] => []
  | v :: items => withoutNulls v :: withoutNullsItems items

def withoutNullsEntries : List (Value × Value) → List (Value × Value)
  | [] => []
  | (key, v) :: entries => (withoutNulls key, withoutNulls v) :: withoutNullsEntries entries

def withoutNullFields : List (RecordField Value) → List (RecordField Value)
  | [] => []
  | ⟨name, alias?, v⟩ :: fields =>
    if v.isNull then withoutNullFields fields
    else ⟨name, alias?, withoutNulls v⟩ :: withoutNullFields fields

end

theorem withoutNullsItems_eq_map (items : List Value) :
    withoutNullsItems items = items.map withoutNulls := by
  induction items with
  | nil => rfl
  | cons v items ih => rw [withoutNullsItems, ih, List.map_cons]

theorem withoutNullsEntries_eq_map (entries : List (Value × Value)) :
    withoutNullsEntries entries =
      entries.map fun entry => (entry.1.withoutNulls, entry.2.withoutNulls) := by
  induction entries with
  | nil => rfl
  | cons entry entries ih => rw [withoutNullsEntries, ih, List.map_cons]

theorem withoutNullFields_eq_map (fields : List (RecordField Value)) :
    withoutNullFields fields = (fields.filter fun f => !f.value.isNull).map fun f =>
      { f with value := f.value.withoutNulls } := by
  induction fields with
  | nil => rfl
  | cons f fields ih =>
    obtain ⟨name, alias?, v⟩ := f
    rw [withoutNullFields, ih, List.filter_cons]
    cases v.isNull <;> rfl

theorem isNull_withoutNulls (v : Value) : v.withoutNulls.isNull = v.isNull := by
  cases v <;> rfl

theorem typeName_withoutNulls (v : Value) : v.withoutNulls.typeName = v.typeName := by
  cases v <;> rfl

theorem kind_withoutNulls (v : Value) : v.withoutNulls.kind = v.kind := by
  cases v <;> rfl

theorem unwrapped_withoutNulls (v : Value) :
    v.withoutNulls.unwrapped = v.unwrapped.withoutNulls := by
  induction v using wrapper_induction with
  | wrapper typeName variant v ih => rw [withoutNulls, unwrapped, unwrapped, ih]
  | other v kind => rw [unwrapped_eq_self kind, unwrapped_eq_self (kind_withoutNulls v ▸ kind)]

/-! ## One level -/

section

variable {below : Below} {o : EncodeOptions}

/-- Whether to drop the null fields of a value comes to the same as to have removed them. -/
def Commutes (below : Below) (o : EncodeOptions) (v : Value) : Prop :=
  below { o with keepNulls := false } v = below { o with keepNulls := true } v.withoutNulls

theorem encodeKey_withoutNulls {key : Value} (h : Commutes below o.nested key.unwrapped) :
    encodeKey below { o with keepNulls := false } key =
      encodeKey below { o with keepNulls := true } key.withoutNulls := by
  unfold Commutes at h
  rw [encodeKey, encodeKey, unwrapped_withoutNulls, typeName_withoutNulls]
  exact congrArg (· >>= _) h

theorem encodeEntry_withoutNulls {entry : Value × Value}
    (key : Commutes below o.nested entry.1.unwrapped) (value : Commutes below o.nested entry.2) :
    encodeEntry below { o with keepNulls := false } entry =
      encodeEntry below { o with keepNulls := true }
        (entry.1.withoutNulls, entry.2.withoutNulls) := by
  unfold Commutes at value
  rw [encodeEntry, encodeEntry, encodeKey_withoutNulls key]
  simp only [EncodeOptions.nested, EncodeOptions.excludes] at value ⊢
  rw [value]
  rfl

theorem encodeField_withoutNulls {f : RecordField Value} (stays : f.value.isNull = false)
    (value : Commutes below (fieldOptions o []) f.value) :
    encodeField below { o with keepNulls := false } [] f =
      encodeField below { o with keepNulls := true } []
        { f with value := f.value.withoutNulls } := by
  unfold Commutes fieldOptions at value
  have key : RecordField.key { f with value := f.value.withoutNulls } = f.key := rfl
  rw [encodeField, encodeField, key, isNull_withoutNulls, stays]
  simp only [EncodeOptions.excludes, Bool.false_and, value]

theorem encodeField_null {f : RecordField Value} (null : f.value.isNull = true)
    (encoders : EncoderTable) :
    encodeField below { o with keepNulls := false } encoders f = .ok none := by
  rw [encodeField, null]
  split <;> rfl

theorem encodeBuiltin_withoutNulls {v : Value} (bare : v.Bare)
    (each : ∀ o c, o.encoders = [] → c.Bare → Commutes below o c) (plain : o.encoders = []) :
    encodeBuiltin below { o with keepNulls := false } v =
      encodeBuiltin below { o with keepNulls := true } v.withoutNulls := by
  cases v with
  | enumerated typeName variant v =>
    exact each o.nested v plain fun _ _ _ part => bare _ _ _ (.enumerated part)
  | record typeName fields encoders =>
    obtain rfl := bare _ _ _ .self
    rw [withoutNulls, withoutNullFields_eq_map, encodeBuiltin, encodeBuiltin, members_eq,
      members_eq, List.mapM_map, Outcome.mapM_filter (p := fun f => !f.value.isNull)]
    · intro f mem stays
      refine encodeField_withoutNulls (by simpa using stays) (each _ _ rfl ?_)
      exact fun _ _ _ part => bare _ _ _ (.field mem part)
    · intro f _ drops
      exact encodeField_null (by simpa using drops) []
  | map entries =>
    have same : entries.mapM (encodeEntry below { o with keepNulls := false }) =
        (entries.map fun entry => (entry.1.withoutNulls, entry.2.withoutNulls)).mapM
          (encodeEntry below { o with keepNulls := true }) := by
      refine Outcome.mapM_congr (forall₂_map fun entry mem => ?_)
      refine encodeEntry_withoutNulls (each _ _ plain ?_) (each _ _ plain ?_)
      · exact fun _ _ _ part => bare _ _ _ (.key mem part.of_unwrapped)
      · exact fun _ _ _ part => bare _ _ _ (.entry mem part)
    rw [withoutNulls, withoutNullsEntries_eq_map, encodeBuiltin, encodeBuiltin, same]
  | list items =>
    have same : items.mapM (below { o.nested with keepNulls := false }) =
        (items.map withoutNulls).mapM (below { o.nested with keepNulls := true }) := by
      refine Outcome.mapM_congr (forall₂_map fun v mem => ?_)
      exact each o.nested v plain fun _ _ _ part => bare _ _ _ (.item mem part)
    rw [withoutNulls, withoutNullsItems_eq_map, encodeBuiltin, encodeBuiltin]
    exact congrArg (· >>= _) same
  | null | bool | int | uint | float | string | bytes | timestamp | date | duration | uuid
  | ipAddr | socketAddr | path | secret | foreign => rfl

end

/-! ## All levels -/

section

variable {transforms : Transforms} {levels : Nat} {o : EncodeOptions}

theorem encodeWithin_withoutNulls {v : Value} (plain : o.encoders = []) (bare : v.Bare) :
    Commutes (encodeWithin transforms levels) o v := by
  -- Both runs have the same budget, so they are out of levels at the same part.
  induction levels generalizing o v with
  | zero => rfl
  | succ levels ih =>
    unfold Commutes
    rw [encodeWithin_of_no_encoders (o := { o with keepNulls := false }) plain,
      encodeWithin_of_no_encoders (o := { o with keepNulls := true }) plain]
    exact encodeBuiltin_withoutNulls bare (fun o c plain bare => ih plain bare) plain

theorem eq_null_of_encodeWithin (plain : o.encoders = []) {j : Json}
    (h : encodeWithin transforms levels o null = .ok j) : j = .null := by
  cases levels with
  | zero => cases h
  | succ levels =>
    rw [encodeWithin_of_no_encoders plain] at h
    exact (Except.ok.inj h).symm

theorem null_item (plain : o.encoders = []) {items : List Value} {js : List Json}
    (h : encodeWithin transforms levels o (list items) = .ok (.array js)) :
    js.length = items.length ∧ ∀ i : Nat, items[i]? = some null → js[i]? = some .null := by
  cases levels with
  | zero => cases h
  | succ levels =>
    rw [encodeWithin_of_no_encoders plain] at h
    obtain ⟨js', listed, same⟩ := Outcome.bind_eq_ok.mp h
    obtain rfl := Json.array.inj (Except.ok.inj same)
    obtain ⟨length, each⟩ := List.forall₂_iff_get.mp (Outcome.mapM_eq_ok_iff.mp listed)
    refine ⟨length.symm, fun i stands => ?_⟩
    obtain ⟨inside, stands⟩ := List.getElem?_eq_some_iff.mp stands
    have item := each i inside (length ▸ inside)
    rw [List.get_eq_getElem, stands] at item
    rw [List.getElem?_eq_getElem (length ▸ inside)]
    exact congrArg some (eq_null_of_encodeWithin (o := o.nested) plain item)

theorem null_entry (plain : o.encoders = []) {entries : List (Value × Value)}
    {members : List (String × Json)}
    (h : encodeWithin transforms (levels + 1) o (map entries) = .ok (.object members))
    {key : String} (stands : ∃ entry ∈ entries, (entrySlots transforms levels o).stands entry key)
    (nulls : ∀ entry ∈ entries, (entrySlots transforms levels o).stands entry key →
      entry.2 = null) : (key, .null) ∈ members := by
  rw [encodeWithin_of_no_encoders plain] at h
  obtain ⟨members', same, -, keys, last⟩ := makesObject_map.object _ h
  obtain rfl := Json.object.inj same
  obtain ⟨⟨key, j⟩, mem, rfl⟩ := List.mem_map.mp ((keys key).mpr stands)
  obtain ⟨before, entry, after, rfl, stands', value, -⟩ := last _ mem
  have isNull := nulls entry (by simp) stands'
  have encoded : encodeWithin transforms levels o.nested entry.2 = .ok j := value
  rw [isNull] at encoded
  rwa [eq_null_of_encodeWithin (o := o.nested) plain encoded] at mem

end

/-- Without custom encoders, to drop null fields is to encode the value from whose records they were
removed, whatever is excluded at the top. A null in a list keeps its place, and a key of a map under
which only nulls stand keeps its null, whether null fields are dropped or not. -/
theorem encode_withoutNulls (transforms : Transforms) :
    (∀ exclude (v : Value), v.Bare →
      v.encode transforms { exclude, keepNulls := false } =
        v.withoutNulls.encode transforms { exclude, keepNulls := true }) ∧
    (∀ levels (o : EncodeOptions) items js, o.encoders = [] →
      encodeWithin transforms levels o (list items) = .ok (.array js) →
      js.length = items.length ∧ ∀ i : Nat, items[i]? = some null → js[i]? = some .null) ∧
    ∀ levels (o : EncodeOptions) entries members key, o.encoders = [] →
      encodeWithin transforms (levels + 1) o (map entries) = .ok (.object members) →
      (∃ entry ∈ entries, (entrySlots transforms levels o).stands entry key) →
      (∀ entry ∈ entries, (entrySlots transforms levels o).stands entry key → entry.2 = null) →
      (key, .null) ∈ members := by
  refine ⟨fun exclude v bare => ?_, fun levels o items js plain h => null_item plain h, ?_⟩
  · exact encodeWithin_withoutNulls (o := { exclude }) rfl bare
  · exact fun levels o entries members key plain h stands nulls => null_entry plain h stands nulls

/-- A record in which a null field has the key of the title, with nulls in a list and in a map. -/
def draft : Value :=
  record "Draft" [⟨"title", none, string "A"⟩, ⟨"subtitle", some "title", null⟩,
    ⟨"parts", none, list [null, record "Part" [⟨"text", none, null⟩] [], map [(string "k", null)]]⟩]
    []

theorem bare_draft : draft.Bare := by
  have part : (record "Part" [⟨"text", none, null⟩] []).Bare :=
    bare_record (List.forall_mem_singleton.mpr nofun)
  have key : (map [(string "k", null)]).Bare :=
    bare_map (List.forall_mem_singleton.mpr ⟨nofun, nofun⟩)
  have parts : (list
      [null, record "Part" [⟨"text", none, null⟩] [], map [(string "k", null)]]).Bare :=
    bare_list (by simp [part, key, show null.Bare from nofun])
  exact bare_record (by simp [parts, show null.Bare from nofun, show (string "A").Bare from nofun])

/-- A null that is dropped does not take the place of the title. -/
theorem encode_withoutNulls_draft :
    (draft.Bare ∧
      draft.encode noTransforms { keepNulls := false } =
        draft.withoutNulls.encode noTransforms { keepNulls := true } ∧
      draft.encode noTransforms { keepNulls := false } =
        .ok (.object [("parts", .array [.null, .object [], .object [("k", .null)]]),
          ("title", .string "A")])) ∧
    (encodeWithin noTransforms 2 { keepNulls := false } (list [null, string "A"]) =
        .ok (.array [.null, .string "A"]) ∧
      [Json.null, .string "A"][0]? = some .null) ∧
    encodeWithin noTransforms 2 { keepNulls := false } (map [(string "k", null)]) =
        .ok (.object [("k", .null)]) ∧
      ("k", .null) ∈ [("k", Json.null)] := by
  obtain ⟨dropped, lists, maps⟩ := encode_withoutNulls noTransforms
  refine ⟨⟨bare_draft, dropped [] _ bare_draft, rfl⟩, ⟨rfl, ?_⟩, rfl, ?_⟩
  · exact (lists 2 { keepNulls := false } [null, string "A"] _ rfl rfl).2 0 rfl
  · refine maps 1 { keepNulls := false } [(string "k", null)] _ "k" rfl rfl ?_ ?_
    · exact ⟨_, List.mem_singleton_self _, ⟨.string "k", rfl, rfl⟩, rfl⟩
    · exact List.forall_mem_singleton.mpr fun _ => rfl

end DocStore.Value
