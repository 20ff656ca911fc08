import DocStore.Proofs.Outcome
import DocStore.Proofs.Value.Canonical
import DocStore.Proofs.Value.Parts
import DocStore.Query.Predicate
import DocStore.Query.Update
import Mathlib.Data.List.Forall2

/-! # What failures show of secrets

Two values that differ only in the texts of secrets fail alike: both or neither can be encoded, and
the errors agree but for JSON that they quote. Encoded values are quoted in two places, a map key
that is no scalar and a delta that is no number, and there the texts of secrets show. Where no key
holds a secret, unless it is one, the errors of encoding are the same. -/
set_option autoImplicit false

namespace DocStore

/-! ## Two outcomes -/

namespace Outcome

variable {ε α β γ δ : Type}

def failure : Except ε α → Option ε
  | .ok _ => none
  | .error e => some e

/-- Whether two outcomes both come to related values, or to errors that look the same. -/
def Alike (look : ε → ε) (R : α → β → Prop) : Except ε α → Except ε β → Prop
  | .ok a, .ok b => R a b
  | .error e, .error e' => look e = look e'
  | _, _ => False

variable {look : ε → ε} {R : α → β → Prop} {S : γ → δ → Prop}

theorem Alike.failure_eq {x : Except ε α} {y : Except ε β} (h : Alike look R x y) :
    (failure x).map look = (failure y).map look := by
  cases x with
  | ok a =>
    cases y with
    | ok b => rfl
    | error e => exact h.elim
  | error e =>
    cases y with
    | ok b => exact h.elim
    | error e' => exact congrArg some h

theorem Alike.bind {x : Except ε α} {y : Except ε β} {f : α → Except ε γ} {g : β → Except ε δ}
    (h : Alike look R x y) (next : ∀ a b, R a b → Alike look S (f a) (g b)) :
    Alike look S (x >>= f) (y >>= g) := by
  cases x with
  | ok a =>
    cases y with
    | ok b => exact next a b h
    | error e => exact h.elim
  | error e =>
    cases y with
    | ok b => exact h.elim
    | error e' => exact h

theorem Alike.mapM {f : α → Except ε γ} {g : β → Except ε δ} {l : List α} {l' : List β}
    (h : List.Forall₂ (fun a b => Alike look S (f a) (g b)) l l') :
    Alike look (List.Forall₂ S) (l.mapM f) (l'.mapM g) := by
  induction h with
  | nil => exact List.Forall₂.nil
  | cons first _ ih =>
    rw [List.mapM_cons, List.mapM_cons]
    refine first.bind fun c d cd => ih.bind fun cs ds rest => ?_
    exact List.Forall₂.cons cd rest

end Outcome

/-! ## Errors without what they quote -/

def Error.unquoted : Error → Error
  | unencodable typeName (.compoundKey _) => unencodable typeName (.compoundKey .null)
  | nonNumericDelta _ => nonNumericDelta .null
  | e => e

theorem Error.kindName_unquoted (e : Error) : e.unquoted.kindName = e.kindName := by
  unfold unquoted
  split <;> rfl

/-- The kind of a JSON value, and the number of items of an array. -/
def Json.form : Json → Json
  | .null => .null
  | .bool _ => .bool false
  | .number _ => .number (.ofInt64 0)
  | .string _ => .string ""
  | .array items => .array (items.map fun _ => .null)
  | .object _ => .object []

def Json.SameForm (j j' : Json) : Prop := j.form = j'.form

namespace Value

open Outcome (Alike failure)
open Json (SameForm)

/-! ## Where secrets show -/

/-- Whether no record in a value brings custom encoders. -/
def Bare (v : Value) : Prop :=
  ∀ typeName fields encoders, Part (record typeName fields encoders) v → encoders = []

theorem bare_enumerated {typeName variant : String} {v : Value} (h : v.Bare) :
    (enumerated typeName variant v).Bare := by
  intro _ _ _ part
  cases part with
  | enumerated part => exact h _ _ _ part

theorem bare_record {typeName : String} {fields : List (RecordField Value)}
    (h : ∀ f ∈ fields, f.value.Bare) : (record typeName fields []).Bare := by
  intro _ _ _ part
  cases part with
  | self => rfl
  | field mem part => exact h _ mem _ _ _ part

theorem bare_map {entries : List (Value × Value)}
    (h : ∀ entry ∈ entries, entry.1.Bare ∧ entry.2.Bare) : (map entries).Bare := by
  intro _ _ _ part
  cases part with
  | key mem part => exact (h _ mem).1 _ _ _ part
  | entry mem part => exact (h _ mem).2 _ _ _ part

theorem bare_list {items : List Value} (h : ∀ v ∈ items, v.Bare) : (list items).Bare := by
  intro _ _ _ part
  cases part with
  | item mem part => exact h _ mem _ _ _ part

/-- Whether no map in a value has a key with a secret in it, other than a secret as key. -/
def KeysShowNone (v : Value) : Prop :=
  ∀ entries, Part (map entries) v → ∀ entry ∈ entries,
    (∃ s, entry.1.unwrapped = secret s) ∨ ∀ s, ¬Part (secret s) entry.1

/-! ## Values without their secrets -/

mutual

/-- The value with the mask as the text of each secret. -/
def redacted : Value → Value
  | secret _ => secret secretMask
  | enumerated typeName variant v => enumerated typeName variant (redacted v)
  | record typeName fields encoders => record typeName (redactedFields fields) encoders
  | map entries => map (redactedEntries entries)
  | list items => list (redactedItems items)
  | v => v

def redactedItems : List Value → List Value
  | [] => []
  | v :: items => redacted v :: redactedItems items

def redactedEntries : List (Value × Value) → List (Value × Value)
  | [] => []
  | (key, v) :: entries => (redacted key, redacted v) :: redactedEntries entries

def redactedFields : List (RecordField Value) → List (RecordField Value)
  | [] => []
  | ⟨name, alias?, v⟩ :: fields => ⟨name, alias?, redacted v⟩ :: redactedFields fields

end

theorem redactedItems_eq_map (items : List Value) : redactedItems items = items.map redacted := by
  induction items with
  | nil => rfl
  | cons v items ih => rw [redactedItems, ih, List.map_cons]

theorem redactedEntries_eq_map (entries : List (Value × Value)) :
    redactedEntries entries = entries.map fun entry => (entry.1.redacted, entry.2.redacted) := by
  induction entries with
  | nil => rfl
  | cons entry entries ih => rw [redactedEntries, ih, List.map_cons]

theorem redactedFields_eq_map (fields : List (RecordField Value)) :
    redactedFields fields = fields.map fun f => { f with value := f.value.redacted } := by
  induction fields with
  | nil => rfl
  | cons f fields ih => rw [redactedFields, ih, List.map_cons]

mutual

theorem redacted_eq_self : (v : Value) → (∀ s, ¬Part (secret s) v) → v.redacted = v
  | secret s, h => absurd .self (h s)
  | enumerated typeName variant v, h => by
    rw [redacted, redacted_eq_self v fun s inside => h s (.enumerated inside)]
  | record typeName fields encoders, h => by
    rw [redacted, redactedFields_eq_self fields fun f mem s inside => h s (.field mem inside)]
  | map entries, h => by
    rw [redacted, redactedEntries_eq_self entries fun entry mem =>
      ⟨fun s inside => h s (.key mem inside), fun s inside => h s (.entry mem inside)⟩]
  | list items, h => by
    rw [redacted, redactedItems_eq_self items fun v mem s inside => h s (.item mem inside)]
  | null, _ | bool _, _ | int _, _ | uint _, _ | float _, _ | string _, _ | bytes _, _
  | timestamp _, _ | date _, _ | duration _, _ | uuid _, _ | ipAddr _, _ | socketAddr _, _
  | path _, _ | foreign _ _, _ => rfl

theorem redactedItems_eq_self : (items : List Value) →
    (∀ v ∈ items, ∀ s, ¬Part (secret s) v) → redactedItems items = items
  | [], _ => rfl
  | v :: items, h => by
    obtain ⟨first, others⟩ := List.forall_mem_cons.mp h
    rw [redactedItems, redacted_eq_self v first, redactedItems_eq_self items others]

theorem redactedEntries_eq_self : (entries : List (Value × Value)) →
    (∀ entry ∈ entries, (∀ s, ¬Part (secret s) entry.1) ∧ ∀ s, ¬Part (secret s) entry.2) →
    redactedEntries entries = entries
  | [], _ => rfl
  | (key, v) :: entries, h => by
    obtain ⟨⟨first, second⟩, others⟩ := List.forall_mem_cons.mp h
    rw [redactedEntries, redacted_eq_self key first, redacted_eq_self v second,
      redactedEntries_eq_self entries others]

theorem redactedFields_eq_self : (fields : List (RecordField Value)) →
    (∀ f ∈ fields, ∀ s, ¬Part (secret s) f.value) → redactedFields fields = fields
  | [], _ => rfl
  | ⟨name, alias?, v⟩ :: fields, h => by
    obtain ⟨first, others⟩ := List.forall_mem_cons.mp h
    rw [redactedFields, redacted_eq_self v first, redactedFields_eq_self fields others]

end

theorem typeName_redacted (v : Value) : v.redacted.typeName = v.typeName := by
  cases v <;> rfl

theorem isNull_redacted (v : Value) : v.redacted.isNull = v.isNull := by
  cases v <;> rfl

theorem kind_redacted (v : Value) : v.redacted.kind = v.kind := by
  cases v <;> rfl

theorem unwrapped_redacted (v : Value) : v.redacted.unwrapped = v.unwrapped.redacted := by
  induction v using wrapper_induction with
  | wrapper typeName variant v ih => rw [redacted, unwrapped, unwrapped, ih]
  | other v kind => rw [unwrapped_eq_self kind, unwrapped_eq_self (kind_redacted v ▸ kind)]

/-! ## Encoding a value without its secrets -/

section Encoding

variable {look : Error → Error} {transforms : Transforms} {below : Below} {o : EncodeOptions}
  {levels : Nat} {v : Value}

/-- Whether errors that quote a key look the same whatever the secrets in it. -/
def KeyHides (look : Error → Error) (key : Value) : Prop :=
  (∃ s, key.unwrapped = secret s) ∨ key.redacted = key ∨
    ∀ typeName j j', look (.unencodable typeName (.compoundKey j)) =
      look (.unencodable typeName (.compoundKey j'))

structure Discreet (look : Error → Error) (v : Value) : Prop where
  bare : v.Bare
  keys : ∀ entries, Part (map entries) v → ∀ entry ∈ entries, KeyHides look entry.1

theorem Discreet.part {w : Value} (h : Discreet look v) (inside : ∀ p, Part p w → Part p v) :
    Discreet look w where
  bare typeName fields encoders part := h.bare typeName fields encoders (inside _ part)
  keys entries part := h.keys entries (inside _ part)

def AlikeWithin (look : Error → Error) (transforms : Transforms) (levels : Nat) : Prop :=
  ∀ o v, Plain o → Discreet look v →
    Alike look SameForm (encodeWithin transforms levels o v)
      (encodeWithin transforms levels o v.redacted)

theorem isSome_keyText?_form (j : Json) : (keyText? j).isSome = (keyText? j.form).isSome := by
  cases j with
  | bool b => cases b <;> rfl
  | null | number | string | array | object => rfl

theorem isSome_keyText?_congr {j j' : Json} (h : SameForm j j') :
    (keyText? j).isSome = (keyText? j').isSome := by
  rw [isSome_keyText?_form, h, ← isSome_keyText?_form]

theorem alike_self {α : Type} {R : α → α → Prop} (refl : ∀ a, R a a) (x : Except Error α) :
    Alike look R x x := by
  cases x with
  | ok a => exact refl a
  | error e => rfl

theorem alike_encodeKey (below : AlikeWithin look transforms levels) (plain : Plain o)
    {key : Value} (discreet : Discreet look key) (hides : KeyHides look key) :
    Alike look (fun _ _ => True) (encodeKey (encodeWithin transforms levels) o key)
      (encodeKey (encodeWithin transforms levels) o key.redacted) := by
  rcases hides with ⟨s, bare⟩ | same | quoted
  · rw [encodeKey, encodeKey, unwrapped_redacted, bare, redacted]
    cases levels with
    | zero => rfl
    | succ levels =>
      rw [encodeWithin_plain transforms levels plain.nested,
        encodeWithin_plain transforms levels plain.nested]
      trivial
  · rw [same]
    exact alike_self (fun _ => trivial) _
  · have inner := below o.nested key.unwrapped plain.nested
      (discreet.part fun p => Part.of_unwrapped)
    rw [encodeKey, encodeKey, unwrapped_redacted, typeName_redacted]
    refine inner.bind fun j j' same => ?_
    have scalar := isSome_keyText?_congr same
    cases text : keyText? j with
    | some s =>
      cases text' : keyText? j' with
      | some s' => trivial
      | none =>
        rw [text, text'] at scalar
        cases scalar
    | none =>
      cases text' : keyText? j' with
      | some s' =>
        rw [text, text'] at scalar
        cases scalar
      | none => exact quoted _ j j'

theorem alike_encodeEntry (below : AlikeWithin look transforms levels) (plain : Plain o)
    {entry : Value × Value} (key : Discreet look entry.1) (hides : KeyHides look entry.1)
    (value : Discreet look entry.2) :
    Alike look (fun _ _ => True) (encodeEntry (encodeWithin transforms levels) o entry)
      (encodeEntry (encodeWithin transforms levels) o
        (entry.1.redacted, entry.2.redacted)) := by
  rw [encodeEntry, encodeEntry]
  refine (alike_encodeKey below plain key hides).bind fun s s' _ => ?_
  rw [plain.excludes, plain.excludes, if_neg Bool.false_ne_true, if_neg Bool.false_ne_true]
  exact (below o.nested entry.2 plain.nested value).bind fun _ _ _ => trivial

theorem alike_encodeField (below : AlikeWithin look transforms levels) {f : RecordField Value}
    (value : Discreet look f.value) :
    Alike look (fun _ _ => True) (encodeField (encodeWithin transforms levels) o [] f)
      (encodeField (encodeWithin transforms levels) o []
        { f with value := f.value.redacted }) := by
  have key : RecordField.key { f with value := f.value.redacted } = f.key := rfl
  rw [encodeField, encodeField, key, isNull_redacted]
  split
  · trivial
  · split
    · trivial
    · exact (below _ f.value ⟨rfl, rfl⟩ value).bind fun _ _ _ => trivial

theorem forall₂_map {α : Type} {R : α → α → Prop} {f : α → α} {l : List α}
    (h : ∀ a ∈ l, R a (f a)) : List.Forall₂ R l (l.map f) :=
  List.forall₂_map_right_iff.mpr (List.forall₂_same.mpr h)

theorem sameForm_array {js js' : List Json} (h : List.Forall₂ SameForm js js') :
    SameForm (.array js) (.array js') := by
  have counted (js : List Json) :
      Json.form (.array js) = .array (List.replicate js.length .null) := by
    rw [Json.form, List.map_const']
  rw [SameForm, counted, counted, h.length_eq]

theorem alike_builtin (below : AlikeWithin look transforms levels) (plain : Plain o)
    (discreet : Discreet look v) :
    Alike look SameForm (encodeBuiltin (encodeWithin transforms levels) o v)
      (encodeBuiltin (encodeWithin transforms levels) o v.redacted) := by
  cases v with
  | secret s => rfl
  | enumerated typeName variant v =>
    exact below o.nested v plain.nested (discreet.part fun p => .enumerated)
  | record typeName fields encoders =>
    obtain rfl := discreet.bare typeName fields encoders .self
    rw [redacted, redactedFields_eq_map, encodeBuiltin, encodeBuiltin]
    refine (Alike.mapM (S := fun _ _ => True) (forall₂_map fun f mem => ?_)).bind fun _ _ _ => rfl
    exact alike_encodeField below (discreet.part fun p => .field mem)
  | map entries =>
    rw [redacted, redactedEntries_eq_map, encodeBuiltin, encodeBuiltin]
    refine (Alike.mapM (S := fun _ _ => True) (forall₂_map fun entry mem => ?_)).bind
      fun _ _ _ => rfl
    exact alike_encodeEntry below plain (discreet.part fun p => .key mem)
      (discreet.keys entries .self entry mem) (discreet.part fun p => .entry mem)
  | list items =>
    rw [redacted, redactedItems_eq_map, encodeBuiltin, encodeBuiltin]
    refine (Alike.mapM (S := SameForm) (forall₂_map fun v mem => ?_)).bind
      fun _ _ js => sameForm_array js
    exact below o.nested v plain.nested (discreet.part fun p => .item mem)
  | null | bool | int | uint | float | string | bytes | timestamp | date | duration | uuid
  | ipAddr | socketAddr | path | foreign => exact alike_self (R := SameForm) (fun _ => rfl) _

theorem alike_redacted (look : Error → Error) (transforms : Transforms) (levels : Nat) :
    AlikeWithin look transforms levels := by
  -- On the budget of levels: a value fails where one of its parts fails below.
  induction levels with
  | zero =>
    intro o v plain discreet
    rfl
  | succ levels ih =>
    intro o v plain discreet
    rw [encodeWithin_plain transforms levels plain, encodeWithin_plain transforms levels plain]
    exact alike_builtin ih plain discreet

/-! ## Operands and deltas -/

theorem alike_toJson (discreet : Discreet look v) :
    Alike look SameForm (v.toJson transforms) (v.redacted.toJson transforms) :=
  alike_redacted look transforms _ {} v ⟨rfl, rfl⟩ discreet

theorem alike_ofValue (field : FieldPath) (op : Comparator) (discreet : Discreet look v) :
    Alike look (fun _ _ => True) (Comparison.ofValue transforms field op v)
      (Comparison.ofValue transforms field op v.redacted) := by
  rw [Comparison.ofValue, Comparison.ofValue]
  refine (alike_toJson discreet).bind fun j j' same => ?_
  cases op with
  | scalar op => trivial
  | membership negated =>
    cases j with
    | array items =>
      cases j' with
      | array items' =>
        cases items with
        | nil =>
          cases items' with
          | nil => rfl
          | cons => cases same
        | cons =>
          cases items' with
          | nil => cases same
          | cons => trivial
      | null | bool | number | string | object => cases same
    | null | bool | number | string | object =>
      cases j' with
      | array => cases same
      | null | bool | number | string | object => rfl

theorem alike_ofValues (field : FieldPath) (op : Comparator) {vs : List Value}
    (discreet : ∀ v ∈ vs, Discreet look v) :
    Alike look (fun _ _ => True) (Comparison.ofValues transforms field op vs)
      (Comparison.ofValues transforms field op (vs.map redacted)) := by
  rw [Comparison.ofValues, Comparison.ofValues]
  refine (Alike.mapM (S := SameForm) (forall₂_map fun v mem => ?_)).bind fun js js' same => ?_
  · exact alike_toJson (discreet v mem)
  · cases same with
    | nil => cases op <;> rfl
    | cons => cases op <;> trivial

theorem alike_ofIncrement (field : FieldPath) (discreet : Discreet Error.unquoted v) :
    Alike Error.unquoted (fun _ _ => True) (UpdateOp.ofIncrement transforms field v)
      (UpdateOp.ofIncrement transforms field v.redacted) := by
  rw [UpdateOp.ofIncrement, UpdateOp.ofIncrement]
  refine (alike_toJson discreet).bind fun j j' same => ?_
  cases j with
  | number n =>
    cases j' with
    | number n' => trivial
    | null | bool | string | array | object => cases same
  | null | bool | string | array | object =>
    cases j' with
    | number n' => cases same
    -- The error quotes the delta, so no more than its kind agrees.
    | null | bool | string | array | object => rfl

end Encoding

/-! ## Two values -/

/-- Whether two values without custom encoders differ only in the texts of secrets. -/
structure Twins (v w : Value) : Prop where
  bare : v.Bare
  bare' : w.Bare
  same : v.redacted = w.redacted

theorem Bare.discreet {v : Value} (h : v.Bare) : Discreet Error.unquoted v where
  bare := h
  keys _ _ _ _ := .inr (.inr fun _ _ _ => rfl)

theorem KeysShowNone.discreet {v : Value} (h : v.KeysShowNone) (bare : v.Bare) :
    Discreet id v where
  bare := bare
  keys entries part entry mem := by
    rcases h entries part entry mem with plain | none
    · exact .inl plain
    · exact .inr (.inl (redacted_eq_self entry.1 none))

theorem map_redacted_eq {vs ws : List Value} (h : List.Forall₂ Twins vs ws) :
    vs.map redacted = ws.map redacted := by
  induction h with
  | nil => rfl
  | cons first _ ih => rw [List.map_cons, List.map_cons, first.same, ih]

theorem failure_eq {ι α : Type} {R : α → α → Prop} {f : ι → Except Error α} {plain : ι → ι}
    {a b : ι} (look : Error → Error) (same : plain a = plain b)
    (ha : Alike look R (f a) (f (plain a))) (hb : Alike look R (f b) (f (plain b))) :
    (failure (f a)).map look = (failure (f b)).map look := by
  calc (failure (f a)).map look
      = (failure (f (plain a))).map look := ha.failure_eq
    _ = (failure (f (plain b))).map look := by rw [same]
    _ = (failure (f b)).map look := hb.failure_eq.symm

/-- Whether two outcomes are both failures, of one kind and with one text but for what it quotes, or
both none; on some condition the failures are the same. -/
structure FailAlike {α : Type} (x y : Except Error α) (unshown : Prop) : Prop where
  kind : (failure x).map Error.kindName = (failure y).map Error.kindName
  unquoted : (failure x).map Error.unquoted = (failure y).map Error.unquoted
  whole : unshown → failure x = failure y

theorem FailAlike.of_unquoted {α : Type} {x y : Except Error α} {unshown : Prop}
    (unquoted : (failure x).map Error.unquoted = (failure y).map Error.unquoted)
    (whole : unshown → failure x = failure y) : FailAlike x y unshown := by
  have kind_eq (e? : Option Error) :
      e?.map Error.kindName = (e?.map Error.unquoted).map Error.kindName := by
    rw [Option.map_map]
    exact congrFun (congrArg Option.map (funext fun e => e.kindName_unquoted.symm)) e?
  refine ⟨?_, unquoted, whole⟩
  rw [kind_eq, unquoted, ← kind_eq]

theorem FailAlike.of_alike {ι α : Type} {R : α → α → Prop} {f : ι → Except Error α}
    {plain : ι → ι} {P : (Error → Error) → ι → Prop} {a b : ι} {unshown : Prop}
    (alike : ∀ look i, P look i → Alike look R (f i) (f (plain i))) (same : plain a = plain b)
    (quoting : P Error.unquoted a ∧ P Error.unquoted b)
    (whole : unshown → P id a ∧ P id b) : FailAlike (f a) (f b) unshown := by
  apply FailAlike.of_unquoted
  · exact failure_eq Error.unquoted same (alike _ a quoting.1) (alike _ b quoting.2)
  · intro h
    have errors := failure_eq id same (alike _ a (whole h).1) (alike _ b (whole h).2)
    rwa [Option.map_id, id, id] at errors

/-- Values that differ only in the texts of secrets fail alike where they are encoded, compared with
or added; only what an error quotes may differ, and where no key of a map shows a secret, errors of
encoding and comparing do not differ at all. -/
theorem failure_twins (transforms : Transforms) :
    (∀ v w o, Plain o → Twins v w →
      FailAlike (v.encode transforms o) (w.encode transforms o)
        (v.KeysShowNone ∧ w.KeysShowNone)) ∧
    (∀ field v w, Twins v w →
      FailAlike (UpdateOp.ofIncrement transforms field v)
        (UpdateOp.ofIncrement transforms field w) (v = w)) ∧
    (∀ field op v w, Twins v w →
      FailAlike (Comparison.ofValue transforms field op v)
        (Comparison.ofValue transforms field op w) (v.KeysShowNone ∧ w.KeysShowNone)) ∧
    ∀ field op vs ws, List.Forall₂ Twins vs ws →
      FailAlike (Comparison.ofValues transforms field op vs)
        (Comparison.ofValues transforms field op ws)
        ((∀ v ∈ vs, v.KeysShowNone) ∧ ∀ w ∈ ws, w.KeysShowNone) := by
  refine ⟨?_, ?_, ?_, ?_⟩
  · intro v w o plain twins
    refine FailAlike.of_alike (fun look v => alike_redacted look transforms _ o v plain) twins.same
      ⟨twins.bare.discreet, twins.bare'.discreet⟩ ?_
    rintro ⟨hv, hw⟩
    exact ⟨hv.discreet twins.bare, hw.discreet twins.bare'⟩
  · intro field v w twins
    apply FailAlike.of_unquoted
    · exact failure_eq Error.unquoted twins.same (alike_ofIncrement field twins.bare.discreet)
        (alike_ofIncrement field twins.bare'.discreet)
    · rintro rfl
      rfl
  · intro field op v w twins
    refine FailAlike.of_alike (fun look v => alike_ofValue field op) twins.same
      ⟨twins.bare.discreet, twins.bare'.discreet⟩ ?_
    rintro ⟨hv, hw⟩
    exact ⟨hv.discreet twins.bare, hw.discreet twins.bare'⟩
  · intro field op vs ws twins
    have bare : ∀ v ∈ vs, v.Bare :=
      ((List.forall₂_and_left vs ws).mp (twins.imp fun _ _ t => ⟨t.bare, t⟩)).1
    have bare' : ∀ w ∈ ws, w.Bare :=
      ((List.forall₂_and_left ws vs).mp (twins.flip.imp fun _ _ t => ⟨t.bare', t⟩)).1
    refine FailAlike.of_alike (P := fun look vs => ∀ v ∈ vs, Discreet look v)
      (fun look vs => alike_ofValues field op) (map_redacted_eq twins)
      ⟨fun v mem => (bare v mem).discreet, fun w mem => (bare' w mem).discreet⟩ ?_
    rintro ⟨hv, hw⟩
    exact ⟨fun v mem => (hv v mem).discreet (bare v mem),
      fun w mem => (hw w mem).discreet (bare' w mem)⟩

def purse (s : String) : Value := list [map [(secret s, foreign "Money" 1)]]

theorem Part.of_purse {part : Value} {s : String} (h : Part part (purse s)) :
    part = purse s ∨ part = map [(secret s, foreign "Money" 1)] ∨ part = secret s ∨
      part = foreign "Money" 1 := by
  cases h with
  | self => exact .inl rfl
  | item mem h =>
    cases List.mem_singleton.mp mem
    cases h with
    | self => exact .inr (.inl rfl)
    | key mem h =>
      cases List.mem_singleton.mp mem
      cases h with
      | self => exact .inr (.inr (.inl rfl))
    | entry mem h =>
      cases List.mem_singleton.mp mem
      cases h with
      | self => exact .inr (.inr (.inr rfl))

theorem bare_purse (s : String) : (purse s).Bare := by
  refine bare_list (List.forall_mem_singleton.mpr (bare_map (List.forall_mem_singleton.mpr ?_)))
  exact ⟨nofun, nofun⟩

theorem keysShowNone_purse (s : String) : (purse s).KeysShowNone := by
  intro entries h
  rcases h.of_purse with h | h | h | h
  · cases h
  · cases h
    intro entry mem
    cases List.mem_singleton.mp mem
    exact .inl ⟨s, rfl⟩
  · cases h
  · cases h

theorem twins_purse (s s' : String) : Twins (purse s) (purse s') :=
  ⟨bare_purse s, bare_purse s', rfl⟩

theorem failure_twins_hunter2 :
    Outcome.failure ((purse "hunter2").encode noTransforms {}) =
      some (.unencodable "Money" .noEncoder) ∧
    Outcome.failure ((purse "hunter2").encode noTransforms {}) =
      Outcome.failure ((purse "swordfish").encode noTransforms {}) ∧
    FailAlike (UpdateOp.ofIncrement noTransforms ⟨"a"⟩ (purse "hunter2"))
      (UpdateOp.ofIncrement noTransforms ⟨"a"⟩ (purse "swordfish"))
      (purse "hunter2" = purse "swordfish") ∧
    Outcome.failure (Comparison.ofValue noTransforms ⟨"a"⟩ (.scalar .eq) (purse "hunter2")) =
      Outcome.failure (Comparison.ofValue noTransforms ⟨"a"⟩ (.scalar .eq) (purse "swordfish")) ∧
    Outcome.failure (Comparison.ofValues noTransforms ⟨"a"⟩ (.membership false)
        [purse "hunter2", null]) =
      Outcome.failure (Comparison.ofValues noTransforms ⟨"a"⟩ (.membership false)
        [purse "swordfish", null]) := by
  obtain ⟨encoded, added, compared, listed⟩ := failure_twins noTransforms
  have twins := twins_purse "hunter2" "swordfish"
  have nothing : Twins null null := ⟨nofun, nofun, rfl⟩
  have unshown : KeysShowNone null := nofun
  refine ⟨rfl, ?_, added _ _ _ twins, ?_, ?_⟩
  · exact (encoded _ _ {} ⟨rfl, rfl⟩ twins).whole ⟨keysShowNone_purse _, keysShowNone_purse _⟩
  · exact (compared _ _ _ _ twins).whole ⟨keysShowNone_purse _, keysShowNone_purse _⟩
  · apply (listed ⟨"a"⟩ (.membership false) _ _ (.cons twins (.cons nothing .nil))).whole
    constructor <;> simp [keysShowNone_purse, unshown]

def keyed (s : String) : Value := map [(list [secret s], null)]

theorem bare_keyed (s : String) : (keyed s).Bare := by
  refine bare_map (List.forall_mem_singleton.mpr ⟨bare_list ?_, nofun⟩)
  exact List.forall_mem_singleton.mpr nofun

/-- The error of a key that is a list quotes the secret in it, and that of a delta the delta. -/
theorem failure_twins_quoting :
    (Twins (keyed "hunter2") (keyed "swordfish") ∧
      (Outcome.failure ((keyed "hunter2").encode noTransforms {})).map Error.message =
        some "Cannot encode value of type List: mapping key encodes to non-scalar [\"hunter2\"]" ∧
      (Outcome.failure ((keyed "swordfish").encode noTransforms {})).map Error.message =
        some "Cannot encode value of type List: mapping key encodes to non-scalar [\"swordfish\"]") ∧
    Twins (secret "hunter2") (secret "swordfish") ∧
      (Outcome.failure (UpdateOp.ofIncrement noTransforms ⟨"a"⟩ (secret "hunter2"))).map
        Error.message = some "Increment delta must be numeric, got \"hunter2\"" ∧
      (Outcome.failure (UpdateOp.ofIncrement noTransforms ⟨"a"⟩ (secret "swordfish"))).map
        Error.message = some "Increment delta must be numeric, got \"swordfish\"" := by
  refine ⟨⟨⟨bare_keyed _, bare_keyed _, rfl⟩, ?_, ?_⟩, ⟨nofun, nofun, rfl⟩, ?_, ?_⟩
  all_goals decide +kernel

end Value
end DocStore
