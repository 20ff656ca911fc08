import DocStore.Proofs.Value.Canonical

/-! # What is left out of an object

Fields and entries are left out of one object only, the one that a value itself encodes to. To leave
them out is to encode, with nothing left out, the value that never had them. They can therefore not
make the encoding fail, nor take the place of a member with their key, and two values that differ in
nothing else encode alike. -/
set_option autoImplicit false

namespace DocStore

namespace Outcome

variable {ε α β : Type}

theorem map_filterMap_cons (b : Option β) (rest : Except ε (List (Option β))) :
    List.filterMap id <$> (do let bs ← rest; pure (b :: bs)) =
      (fun bs => b.toList ++ bs) <$> (List.filterMap id <$> rest) := by
  cases rest with
  | error e => rfl
  | ok bs =>
    cases b with
    | none => rfl
    | some b => rfl

/-- Steps that come to nothing for some elements are steps on the others. -/
theorem mapM_filter {p : α → Bool} {f g : α → Except ε (Option β)} {l : List α}
    (kept : ∀ a ∈ l, p a = true → f a = g a) (dropped : ∀ a ∈ l, p a = false → f a = .ok none) :
    List.filterMap id <$> l.mapM f = List.filterMap id <$> (l.filter p).mapM g := by
  induction l with
  | nil => rfl
  | cons a l ih =>
    obtain ⟨keep, keeps⟩ := List.forall_mem_cons.mp kept
    obtain ⟨drop, drops⟩ := List.forall_mem_cons.mp dropped
    rw [List.mapM_cons]
    cases h : p a with
    | false =>
      rw [drop h, ok_bind, map_filterMap_cons, ih keeps drops,
        List.filter_cons_of_neg (by simp [h])]
      exact id_map _
    | true =>
      rw [keep h, List.filter_cons_of_pos h, List.mapM_cons]
      cases g a with
      | error e => rfl
      | ok b => rw [ok_bind, ok_bind, map_filterMap_cons, map_filterMap_cons, ih keeps drops]

theorem mapM_congr {γ : Type} {f : α → Except ε β} {g : γ → Except ε β} {l : List α} {l' : List γ}
    (h : List.Forall₂ (fun a c => f a = g c) l l') : l.mapM f = l'.mapM g := by
  induction h with
  | nil => rfl
  | cons first _ ih => rw [List.mapM_cons, List.mapM_cons, first, ih]

end Outcome

namespace Value

variable (transforms : Transforms) (o : EncodeOptions)

/-! ## What is left out -/

/-- Whether a field is left out, by its name or by the key under which it would stand. -/
def leavesOut (f : RecordField Value) : Bool := o.excludes f.name || o.excludes f.key

/-- Whether an entry with a key is left out, by the text of the key. -/
def leavesOutKey (key : Value) : Bool :=
  match encodeKey (encodeWithin transforms maxNesting) o key with
  | .ok text => o.excludes text
  | .error _ => false

/-- A value without the fields or entries that are left out of it. -/
def without : Value → Value
  | record t fields encoders => .record t (fields.filter fun f => !leavesOut o f) encoders
  | map entries => .map (entries.filter fun e => !leavesOutKey transforms o e.1)
  | v => v

/-- Whether two fields are the same, up to the value of one that is left out. -/
structure FieldsAgree (f g : RecordField Value) : Prop where
  name : f.name = g.name
  alias? : f.alias? = g.alias?
  value : leavesOut o f = true ∨ f.value = g.value

/-- Whether two entries are the same, up to the value of one that is left out. -/
structure EntriesAgree (e e' : Value × Value) : Prop where
  key : e.1 = e'.1
  value : leavesOutKey transforms o e.1 = true ∨ e.2 = e'.2

/-- Records and maps that differ only in the values of what is left out. -/
inductive Agree : Value → Value → Prop where
  | record {t : String} {encoders : EncoderTable} {fields fields' : List (RecordField Value)}
    (each : List.Forall₂ (FieldsAgree o) fields fields') :
    Agree (.record t fields encoders) (.record t fields' encoders)
  | map {entries entries' : List (Value × Value)}
    (each : List.Forall₂ (EntriesAgree transforms o) entries entries') :
    Agree (.map entries) (.map entries')

/-- A member that comes from a field or an entry that is not left out. What is below it is encoded
with nothing left out. -/
inductive Keeps : Value → String × Json → Prop where
  | field {t : String} {encoders : EncoderTable} {fields : List (RecordField Value)}
    {f : RecordField Value} {j : Json} (mem : f ∈ fields) (stays : leavesOut o f = false)
    (below : encodeWithin transforms maxNesting (fieldOptions o encoders) f.value = .ok j) :
    Keeps (.record t fields encoders) (f.key, j)
  | entry {entries : List (Value × Value)} {e : Value × Value} {text : String} {j : Json}
    (mem : e ∈ entries) (key : encodeKey (encodeWithin transforms maxNesting) o e.1 = .ok text)
    (stays : o.excludes text = false)
    (below : encodeWithin transforms maxNesting o.nested e.2 = .ok j) :
    Keeps (.map entries) (text, j)

variable {transforms : Transforms} {o : EncodeOptions}

/-! ## Fields and entries -/

theorem encodeField_of_leavesOut {below : Below} {encoders : EncoderTable} {f : RecordField Value}
    (h : leavesOut o f = true) : encodeField below o encoders f = .ok none := by
  unfold leavesOut at h
  rw [encodeField, if_pos h]

theorem FieldsAgree.leavesOut_eq {f g : RecordField Value} (h : FieldsAgree o f g) :
    leavesOut o f = leavesOut o g := by
  rw [leavesOut, leavesOut, RecordField.key, RecordField.key, h.name, h.alias?]

theorem FieldsAgree.encodeField_eq {f g : RecordField Value} (h : FieldsAgree o f g)
    (below : Below) (encoders : EncoderTable) :
    encodeField below o encoders f = encodeField below o encoders g := by
  rcases h.value with left | same
  · have left' : leavesOut o g = true := h.leavesOut_eq ▸ left
    rw [encodeField_of_leavesOut left, encodeField_of_leavesOut left']
  · obtain ⟨name, alias?, value⟩ := f
    obtain rfl : name = g.name := h.name
    obtain rfl : alias? = g.alias? := h.alias?
    obtain rfl : value = g.value := same
    rfl

theorem encodeField_nested {below : Below} {encoders : EncoderTable} {f : RecordField Value}
    (h : leavesOut o f = false) :
    encodeField below o encoders f = encodeField below o.nested encoders f := by
  unfold leavesOut at h
  rw [encodeField, h]
  rfl

theorem encodeEntry_of_leavesOutKey {e : Value × Value} (h : leavesOutKey transforms o e.1 = true) :
    encodeEntry (encodeWithin transforms maxNesting) o e = .ok none := by
  unfold leavesOutKey at h
  split at h
  · next text key =>
    rw [encodeEntry, key, Outcome.ok_bind, if_pos h]
    rfl
  · cases h

theorem EntriesAgree.encodeEntry_eq {e e' : Value × Value} (h : EntriesAgree transforms o e e') :
    encodeEntry (encodeWithin transforms maxNesting) o e =
      encodeEntry (encodeWithin transforms maxNesting) o e' := by
  obtain ⟨key, value⟩ := e
  obtain ⟨key', value'⟩ := e'
  obtain rfl : key = key' := h.key
  rcases h.value with left | same
  · have left' : leavesOutKey transforms o (key, value').1 = true := left
    rw [encodeEntry_of_leavesOutKey left, encodeEntry_of_leavesOutKey left']
  · obtain rfl : value = value' := same
    rfl

theorem encodeEntry_nested {e : Value × Value} (h : leavesOutKey transforms o e.1 = false) :
    encodeEntry (encodeWithin transforms maxNesting) o e =
      encodeEntry (encodeWithin transforms maxNesting) o.nested e := by
  have same : encodeKey (encodeWithin transforms maxNesting) o.nested e.1 =
    encodeKey (encodeWithin transforms maxNesting) o e.1 := rfl
  rw [encodeEntry, encodeEntry, same]
  unfold leavesOutKey at h
  cases key : encodeKey (encodeWithin transforms maxNesting) o e.1 with
  | error e => rfl
  | ok text =>
    rw [key] at h
    have stays : o.excludes text = false := h
    rw [Outcome.ok_bind, Outcome.ok_bind, stays]
    rfl

/-! ## Objects -/

theorem members_eq {x : Except Error (List (Option (String × Json)))} :
    (do
      let members ← x
      pure (Json.ofMembers (members.filterMap id))) =
      Json.ofMembers <$> (List.filterMap id <$> x) := by
  cases x with
  | error e => rfl
  | ok members => rfl

theorem exists_of_mem_members {α : Type} {step : α → Except Error (Option (String × Json))}
    {l : List α} {members : List (String × Json)}
    (h : (do
      let members ← l.mapM step
      pure (Json.ofMembers (members.filterMap id))) = .ok (.object members))
    {m : String × Json} (mem : m ∈ members) : ∃ a ∈ l, step a = .ok (some m) := by
  obtain ⟨listed, hl, e⟩ := Outcome.bind_eq_ok.mp h
  obtain rfl := Json.object.inj (Except.ok.inj e)
  exact Outcome.exists_of_mem_filterMap hl (Json.mem_of_mem_sortMembers mem)

theorem encode_of_unmatched {v : Value} (h : o.encoders.apply transforms v = none) :
    v.encode transforms o = encodeBuiltin (encodeWithin transforms maxNesting) o v :=
  encodeWithin_unmatched h

theorem Agree.encodeBuiltin_eq {v w : Value} (h : Agree transforms o v w) :
    encodeBuiltin (encodeWithin transforms maxNesting) o v =
      encodeBuiltin (encodeWithin transforms maxNesting) o w := by
  cases h with
  | record each =>
    rw [encodeBuiltin, encodeBuiltin, Outcome.mapM_congr]
    exact each.imp fun f g agree => agree.encodeField_eq _ _
  | map each =>
    rw [encodeBuiltin, encodeBuiltin, Outcome.mapM_congr]
    exact each.imp fun e e' agree => agree.encodeEntry_eq

theorem Agree.keeps {v w : Value} (h : Agree transforms o v w) {members : List (String × Json)}
    (encoded : encodeBuiltin (encodeWithin transforms maxNesting) o v = .ok (.object members))
    {m : String × Json} (mem : m ∈ members) : Keeps transforms o v m := by
  cases h with
  | record each =>
    obtain ⟨f, hf, step⟩ := exists_of_mem_members encoded mem
    have stays : leavesOut o f = false := by
      by_contra left
      rw [encodeField_of_leavesOut (by simpa using left)] at step
      cases step
    obtain ⟨-, key, below⟩ := of_encodeField step
    obtain ⟨name, j⟩ := m
    obtain rfl : name = f.key := key
    exact .field hf stays below
  | map each =>
    obtain ⟨e, he, step⟩ := exists_of_mem_members encoded mem
    obtain ⟨text, key, step⟩ := Outcome.bind_eq_ok.mp step
    split at step
    · cases step
    · next stays =>
      obtain ⟨j, below, same⟩ := Outcome.bind_eq_ok.mp step
      cases same
      exact .entry he key (by simpa using stays) below

theorem encodeBuiltin_without (v : Value) :
    encodeBuiltin (encodeWithin transforms maxNesting) o v =
      encodeBuiltin (encodeWithin transforms maxNesting) o.nested (v.without transforms o) := by
  cases v with
  | record t fields encoders =>
    rw [without, encodeBuiltin, encodeBuiltin, members_eq, members_eq,
      Outcome.mapM_filter (p := fun f => !leavesOut o f)]
    · exact fun f _ keep => encodeField_nested (by simpa using keep)
    · exact fun f _ drop => encodeField_of_leavesOut (by simpa using drop)
  | map entries =>
    rw [without, encodeBuiltin, encodeBuiltin, members_eq, members_eq,
      Outcome.mapM_filter (p := fun e => !leavesOutKey transforms o e.1)]
    · exact fun e _ keep => encodeEntry_nested (by simpa using keep)
    · exact fun e _ drop => encodeEntry_of_leavesOutKey (by simpa using drop)
  | _ => rfl

/-! ## Encoding -/

/-- Two records or maps that differ only in the values of what is left out come to the same, be it
a value or an error, and to no member that is left out. Encoding comes to what it comes to, with
nothing left out, for the value without these fields and entries; for all other values, and for
whatever is below, it leaves nothing out. -/
theorem encode_excluding (transforms : Transforms) (o : EncodeOptions) :
    (∀ v w, Agree transforms o v w → o.encoders.apply transforms v = none →
      o.encoders.apply transforms w = none →
      v.encode transforms o = w.encode transforms o ∧
        ∀ members, v.encode transforms o = .ok (.object members) →
          ∀ m ∈ members, Keeps transforms o v m) ∧
    ∀ v, o.encoders.apply transforms v = none →
      o.encoders.apply transforms (v.without transforms o) = none →
      v.encode transforms o = (v.without transforms o).encode transforms o.nested := by
  refine ⟨fun v w agree unmatched unmatched' => ⟨?_, fun members encoded m mem => ?_⟩,
    fun v unmatched unmatched' => ?_⟩
  · rw [encode_of_unmatched unmatched, encode_of_unmatched unmatched']
    exact agree.encodeBuiltin_eq
  · rw [encode_of_unmatched unmatched] at encoded
    exact agree.keeps encoded mem
  · rw [encode_of_unmatched unmatched, encode_of_unmatched (o := o.nested) unmatched']
    exact encodeBuiltin_without v

/-- An account with a password, which its owner has as well. -/
def account (password : Value) : Value :=
  .record "Account"
    [⟨"name", none, .string "Ann"⟩, ⟨"pw", some "password", password⟩,
      ⟨"owner", none, .record "Owner" [⟨"password", none, .string "kept"⟩] []⟩] []

/-- Without its password an account encodes although the password could not. -/
theorem encode_excluding_account :
    ((account (.string "hunter2")).encode noTransforms { exclude := ["password"] } =
        (account (.foreign "Key" 1)).encode noTransforms { exclude := ["password"] } ∧
      Keeps noTransforms { exclude := ["password"] } (account (.string "hunter2"))
        ("name", .string "Ann")) ∧
    (account (.foreign "Key" 1)).encode noTransforms { exclude := ["password"] } =
      .ok (.object [("name", .string "Ann"), ("owner", .object [("password", .string "kept")])]) ∧
    (account (.foreign "Key" 1)).encode noTransforms { exclude := ["password"] } =
      ((account (.foreign "Key" 1)).without noTransforms { exclude := ["password"] }).encode
        noTransforms {} := by
  obtain ⟨twins, deleted⟩ := encode_excluding noTransforms { exclude := ["password"] }
  have agree : Agree noTransforms { exclude := ["password"] } (account (.string "hunter2"))
      (account (.foreign "Key" 1)) := by
    refine .record (.cons ⟨rfl, rfl, .inr rfl⟩ (.cons ⟨rfl, rfl, .inl ?_⟩
      (.cons ⟨rfl, rfl, .inr rfl⟩ .nil)))
    decide
  obtain ⟨same, keeps⟩ := twins _ _ agree rfl rfl
  exact ⟨⟨same, keeps _ rfl _ (List.mem_cons_self ..)⟩, rfl, deleted _ rfl rfl⟩

end Value
end DocStore
