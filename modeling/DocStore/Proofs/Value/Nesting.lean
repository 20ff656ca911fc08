import DocStore.Proofs.Value.FixedPoint
import DocStore.Proofs.Value.Neutral
import DocStore.Proofs.Value.Secrecy

/-! # How deep a value may nest

Every list, map, record and enumerated wrapper is a layer around what stands in it. A value that can
fail in no other way encodes exactly if nothing in it stands under more than 100 layers. One kind of
layer does not count: the wrappers around the key of a map are taken off before the key is encoded,
however many they are. -/
set_option autoImplicit false

namespace DocStore

/-! ## Outcomes with one reason to fail -/

namespace Outcome

variable {ε α β : Type} {e : ε} {p q : Prop}

/-- Whether an outcome is a value if a condition holds and a given error if it does not. -/
def OkIff (e : ε) (p : Prop) (x : Except ε α) : Prop :=
  p ∧ (∃ a, x = .ok a) ∨ ¬p ∧ x = .error e

theorem OkIff.congr {x : Except ε α} (h : OkIff e p x) (same : p ↔ q) : OkIff e q x :=
  propext same ▸ h

theorem OkIff.ok (a : α) : OkIff e True (.ok a) := .inl ⟨trivial, a, rfl⟩

theorem OkIff.bind {x : Except ε α} {f : α → Except ε β} (h : OkIff e p x)
    (next : ∀ a, x = .ok a → OkIff e q (f a)) : OkIff e (p ∧ q) (x >>= f) := by
  rcases h with ⟨holds, a, rfl⟩ | ⟨fails, rfl⟩
  · exact (next a rfl).congr (and_iff_right holds).symm
  · exact .inr ⟨fun both => fails both.1, rfl⟩

theorem OkIff.map {x : Except ε α} (h : OkIff e p x) (f : α → β) :
    OkIff e p (do let a ← x; pure (f a)) :=
  (h.bind fun a _ => .ok (f a)).congr (iff_of_eq (and_true p))

theorem OkIff.mapM {p : α → Prop} {f : α → Except ε β} {l : List α}
    (each : ∀ a ∈ l, OkIff e (p a) (f a)) : OkIff e (∀ a ∈ l, p a) (l.mapM f) := by
  induction l with
  | nil => exact (OkIff.ok []).congr (iff_of_true trivial nofun)
  | cons a l ih =>
    obtain ⟨first, others⟩ := List.forall_mem_cons.mp each
    rw [List.mapM_cons]
    refine (first.bind fun b _ => (ih others).map (b :: ·)).congr ?_
    exact List.forall_mem_cons.symm

end Outcome

open Outcome (OkIff)

namespace Value

/-! ## Layers -/

/-- Whether a value is encoded one level below another. -/
inductive OneBelow : Value → Value → Prop where
  | inner {c v : Value} (h : Inner c v) : OneBelow c v
  | field {typeName : String} {fields : List (RecordField Value)} {encoders : EncoderTable}
    {f : RecordField Value} (mem : f ∈ fields) : OneBelow f.value (record typeName fields encoders)

/-- A part of a value under a number of layers, where it is given what stands in one layer. -/
inductive Under (Layer : Value → Value → Prop) : Nat → Value → Value → Prop where
  | self {v : Value} : Under Layer 0 v v
  | step {depth : Nat} {part c v : Value} (layer : Layer c v) (inner : Under Layer depth part c) :
    Under Layer (depth + 1) part v

/-- Whether less than a number of levels is needed above each part of a value. -/
def FitsWithin (levels : Nat) (v : Value) : Prop :=
  ∀ depth part, Under OneBelow depth part v → depth < levels

theorem not_fitsWithin_zero (v : Value) : ¬FitsWithin 0 v :=
  fun fits => Nat.not_lt_zero 0 (fits 0 v .self)

theorem fitsWithin_succ_iff {levels : Nat} {v : Value} :
    FitsWithin (levels + 1) v ↔ ∀ c, OneBelow c v → FitsWithin levels c := by
  constructor
  · intro fits c layer depth part inner
    exact Nat.lt_of_succ_lt_succ (fits (depth + 1) part (.step layer inner))
  · intro each depth part h
    cases h with
    | self => exact Nat.succ_pos levels
    | step layer inner => exact Nat.succ_lt_succ (each _ layer _ _ inner)

theorem fitsWithin_enumerated {levels : Nat} {typeName variant : String} {v : Value} :
    FitsWithin (levels + 1) (enumerated typeName variant v) ↔ FitsWithin levels v := by
  refine fitsWithin_succ_iff.trans ⟨fun all => all v (.inner .enumerated), fun fits c layer => ?_⟩
  cases layer with
  | inner h =>
    cases h
    exact fits

theorem fitsWithin_record {levels : Nat} {typeName : String} {fields : List (RecordField Value)}
    {encoders : EncoderTable} :
    FitsWithin (levels + 1) (record typeName fields encoders) ↔
      ∀ f ∈ fields, FitsWithin levels f.value := by
  refine fitsWithin_succ_iff.trans ⟨fun all f mem => all _ (.field mem), fun fits c layer => ?_⟩
  cases layer with
  | inner h => cases h
  | field mem => exact fits _ mem

theorem fitsWithin_map {levels : Nat} {entries : List (Value × Value)} :
    FitsWithin (levels + 1) (map entries) ↔
      ∀ entry ∈ entries, FitsWithin levels entry.1.unwrapped ∧ FitsWithin levels entry.2 := by
  refine fitsWithin_succ_iff.trans ⟨fun all entry mem => ?_, fun fits c layer => ?_⟩
  · exact ⟨all _ (.inner (.key mem)), all _ (.inner (.entry mem))⟩
  · cases layer with
    | inner h =>
      cases h with
      | key mem => exact (fits _ mem).1
      | entry mem => exact (fits _ mem).2

theorem fitsWithin_list {levels : Nat} {items : List Value} :
    FitsWithin (levels + 1) (list items) ↔ ∀ v ∈ items, FitsWithin levels v := by
  refine fitsWithin_succ_iff.trans ⟨fun all v mem => all v (.inner (.item mem)),
    fun fits c layer => ?_⟩
  cases layer with
  | inner h =>
    cases h with
    | item mem => exact fits _ mem

theorem OneBelow.exists_child {c v : Value} (h : OneBelow c v) : ∃ c', Child c' v := by
  cases h with
  | field mem => exact ⟨_, .field mem⟩
  | inner h =>
    cases h with
    | enumerated => exact ⟨_, .enumerated⟩
    | key mem => exact ⟨_, .key mem⟩
    | entry mem => exact ⟨_, .entry mem⟩
    | item mem => exact ⟨_, .item mem⟩

theorem kind_unwrapped_ne (v : Value) : v.unwrapped.kind ≠ .enumerated := by
  induction v using wrapper_induction with
  | wrapper typeName variant v ih => exact ih
  | other v kind => rwa [unwrapped_eq_self kind]

/-- Whether a value brings no custom encoders and can fail by its nesting only: each of its leaves
encodes, and what is under the wrappers of a key is no record, map or list. -/
structure Sound (transforms : Transforms) (v : Value) : Prop where
  bare : v.Bare
  leaves : ∀ leaf, Part leaf v → (∀ c, ¬Child c leaf) → ∃ j, leaf.toJson transforms = .ok j
  keys : ∀ entries, Part (map entries) v → ∀ entry ∈ entries,
    entry.1.unwrapped.kind ∉ [.record, .map, .list]

theorem Sound.part {transforms : Transforms} {v w : Value} (h : Sound transforms v)
    (inside : ∀ p, Part p w → Part p v) : Sound transforms w where
  bare typeName fields encoders part := h.bare typeName fields encoders (inside _ part)
  leaves leaf part := h.leaves leaf (inside _ part)
  keys entries part := h.keys entries (inside _ part)

/-! ## One level -/

section

variable {transforms : Transforms} {levels : Nat} {o : EncodeOptions} {v : Value}

theorem keyText_of_float {typeName : String} {x : Binary64} {j : Json}
    (h : encodeFloat typeName x = .ok j) : ∃ s, keyText? j = some s := by
  unfold encodeFloat at h
  split at h
  · cases h
    exact ⟨_, rfl⟩
  · cases h

theorem keyText_of_encodeWithin (plain : Plain o) (scalar : v.kind ∉ [.record, .map, .list])
    (bare : v.kind ≠ .enumerated) {j : Json} (h : encodeWithin transforms levels o v = .ok j) :
    ∃ s, keyText? j = some s := by
  cases levels with
  | zero => cases h
  | succ levels =>
    rw [encodeWithin_plain transforms levels plain] at h
    cases v with
    | record => simp [kind] at scalar
    | map => simp [kind] at scalar
    | list => simp [kind] at scalar
    | enumerated => exact absurd rfl bare
    | foreign => cases h
    | float x => exact keyText_of_float h
    | timestamp t =>
      rw [encodeBuiltin] at h
      exact keyText_of_float h
    | duration d =>
      rw [encodeBuiltin] at h
      exact keyText_of_float h
    | bytes bs =>
      rw [encodeBuiltin, encodeBytes] at h
      split at h <;> cases h
      exact ⟨_, rfl⟩
    | path bs =>
      rw [encodeBuiltin, encodePath] at h
      split at h <;> cases h
      exact ⟨_, rfl⟩
    | bool b =>
      cases h
      cases b <;> exact ⟨_, rfl⟩
    | null | int | uint | string | date | uuid | ipAddr | socketAddr | secret =>
      cases h
      exact ⟨_, rfl⟩

/-- A leaf comes to the same on every level. -/
theorem Sound.okIff_leaf {below : Below} (sound : Sound transforms v) (leaf : ∀ c, ¬Child c v)
    (same : encodeBuiltin below o v = encodeBuiltin (encodeWithin transforms maxNesting) {} v) :
    OkIff tooDeep (FitsWithin (levels + 1) v) (encodeBuiltin below o v) := by
  obtain ⟨j, encoded⟩ := sound.leaves v .self leaf
  rw [toJson, encode, encodeWithin_plain transforms maxNesting ⟨rfl, rfl⟩] at encoded
  have fits : FitsWithin (levels + 1) v := fitsWithin_succ_iff.mpr fun c layer =>
    absurd layer.exists_child (not_exists.mpr leaf)
  rw [same, encoded]
  exact (OkIff.ok j).congr (iff_of_true trivial fits)

theorem okIff_encodeEntry (plain : Plain o) {entry : Value × Value}
    (scalar : entry.1.unwrapped.kind ∉ [.record, .map, .list])
    (key : OkIff tooDeep (FitsWithin levels entry.1.unwrapped)
      (encodeWithin transforms levels o.nested entry.1.unwrapped))
    (value : OkIff tooDeep (FitsWithin levels entry.2)
      (encodeWithin transforms levels o.nested entry.2)) :
    OkIff tooDeep (FitsWithin levels entry.1.unwrapped ∧ FitsWithin levels entry.2)
      (encodeEntry (encodeWithin transforms levels) o entry) := by
  have keyed : OkIff tooDeep (FitsWithin levels entry.1.unwrapped)
      (encodeKey (encodeWithin transforms levels) o entry.1) := by
    refine (key.bind fun j encoded => ?_).congr (iff_of_eq (and_true _))
    obtain ⟨s, text⟩ := keyText_of_encodeWithin plain.nested scalar (kind_unwrapped_ne _) encoded
    rw [text]
    exact .ok s
  refine keyed.bind fun s _ => ?_
  rw [plain.excludes, if_neg Bool.false_ne_true]
  exact value.map _

theorem okIff_encodeField (plain : Plain o) (keeps : o.keepNulls = true) {f : RecordField Value}
    (value : OkIff tooDeep (FitsWithin levels f.value)
      (encodeWithin transforms levels (fieldOptions o []) f.value)) :
    OkIff tooDeep (FitsWithin levels f.value)
      (encodeField (encodeWithin transforms levels) o [] f) := by
  rw [encodeField, plain.excludes, plain.excludes, keeps, Bool.not_true, Bool.and_false,
    Bool.or_false, if_neg Bool.false_ne_true, if_neg Bool.false_ne_true]
  rw [fieldOptions, keeps] at value
  exact value.map _

/-- The value fails where one of its parts is out of levels, and nowhere else. -/
theorem Sound.okIff (sound : Sound transforms v) (plain : Plain o) (keeps : o.keepNulls = true) :
    OkIff tooDeep (FitsWithin levels v) (encodeWithin transforms levels o v) := by
  induction levels generalizing o v with
  | zero => exact .inr ⟨not_fitsWithin_zero v, rfl⟩
  | succ levels ih =>
  rw [encodeWithin_plain transforms levels plain]
  cases v with
  | enumerated typeName variant v =>
    have inner := ih (sound.part fun p => .enumerated) plain.nested keeps
    exact inner.congr fitsWithin_enumerated.symm
  | record typeName fields encoders =>
    obtain rfl := sound.bare _ _ _ .self
    have each (f) (mem : f ∈ fields) := okIff_encodeField plain keeps
      (ih (sound.part fun p => .field mem) (o := fieldOptions o []) ⟨rfl, rfl⟩ keeps)
    exact ((OkIff.mapM each).map _).congr fitsWithin_record.symm
  | map entries =>
    have each (entry) (mem : entry ∈ entries) :=
      okIff_encodeEntry plain (sound.keys entries .self entry mem)
        (ih (sound.part fun p inside => .key mem inside.of_unwrapped) plain.nested keeps)
        (ih (sound.part fun p => .entry mem) plain.nested keeps)
    exact ((OkIff.mapM each).map _).congr fitsWithin_map.symm
  | list items =>
    have each (v) (mem : v ∈ items) := ih (sound.part fun p => .item mem) plain.nested keeps
    exact ((OkIff.mapM each).map _).congr fitsWithin_list.symm
  | null | bool | int | uint | float | string | bytes | timestamp | date | duration | uuid
  | ipAddr | socketAddr | path | secret | foreign => exact sound.okIff_leaf nofun rfl

end

/-! ## Wrappers around keys -/

/-- Whether no key of a map in a value is an enumerated wrapper. -/
def KeysUnwrapped (v : Value) : Prop :=
  ∀ entries, Part (map entries) v → ∀ entry ∈ entries, entry.1.kind ≠ .enumerated

theorem KeysUnwrapped.child_iff {c v : Value} (h : KeysUnwrapped v) : Child c v ↔ OneBelow c v := by
  constructor
  · intro layer
    cases layer with
    | enumerated => exact .inner .enumerated
    | field mem => exact .field mem
    | @key entries entry mem =>
      have below : OneBelow entry.1.unwrapped (map entries) := .inner (.key mem)
      rwa [unwrapped_eq_self (h entries .self entry mem)] at below
    | entry mem => exact .inner (.entry mem)
    | item mem => exact .inner (.item mem)
  · intro layer
    cases layer with
    | field mem => exact .field mem
    | inner layer =>
      cases layer with
      | enumerated => exact .enumerated
      | @key entries entry mem =>
        rw [unwrapped_eq_self (h entries .self entry mem)]
        exact .key mem
      | entry mem => exact .entry mem
      | item mem => exact .item mem

theorem KeysUnwrapped.under_iff {depth : Nat} {part v : Value} (h : KeysUnwrapped v) :
    Under Child depth part v ↔ Under OneBelow depth part v := by
  constructor
  · intro under
    induction under with
    | self => exact .self
    | step layer _ ih =>
      exact .step (h.child_iff.mp layer) (ih fun entries part => h entries (layer.part part))
  · intro under
    induction under with
    | self => exact .self
    | step layer _ ih =>
      have child := h.child_iff.mpr layer
      exact .step child (ih fun entries part => h entries (child.part part))

/-! ## The limit -/

/-- A value that can fail by its nesting only encodes exactly if no part of it stands under more
than 100 lists, maps, records and enumerated wrappers, those around keys of maps not counted; every
other one is nested too deep. Where no key is a wrapper, all that stand around a part count. -/
theorem toJson_nesting (transforms : Transforms) {v : Value} (sound : Sound transforms v) :
    ((∃ j, v.toJson transforms = .ok j) ↔ ∀ depth part, Under OneBelow depth part v → depth ≤ 100) ∧
    ((∃ depth part, Under OneBelow depth part v ∧ 100 < depth) →
      v.toJson transforms = .error (.nestingTooDeep 101 100)) ∧
    (KeysUnwrapped v → ∀ depth part, Under Child depth part v ↔ Under OneBelow depth part v) := by
  have fits_iff : FitsWithin 101 v ↔ ∀ depth part, Under OneBelow depth part v → depth ≤ 100 := by
    simp only [FitsWithin, Nat.lt_succ_iff]
  have outcome : OkIff tooDeep (FitsWithin 101 v) (v.toJson transforms) :=
    sound.okIff (o := {}) ⟨rfl, rfl⟩ rfl
  refine ⟨?_, ?_, fun bare depth part => bare.under_iff⟩
  · rw [← fits_iff]
    rcases outcome with ⟨fits, encoded⟩ | ⟨deep, failed⟩
    · exact iff_of_true encoded fits
    · rw [failed]
      exact iff_of_false nofun deep
  · rintro ⟨depth, part, under, deep⟩
    rcases outcome with ⟨fits, -⟩ | ⟨-, failed⟩
    · exact absurd (fits depth part under) (Nat.not_lt_of_ge deep)
    · exact failed

/-! ## Values at the limit and beyond it -/

section

variable {transforms : Transforms}

theorem sound_atom {v : Value} (parts : ∀ p, Part p v → p = v) (atom : v.kind ∉ [.record, .map])
    {j : Json} (encoded : v.toJson transforms = .ok j) : Sound transforms v where
  bare typeName fields encoders part := by
    simp [← parts _ part, kind] at atom
  leaves leaf part _ := ⟨j, parts leaf part ▸ encoded⟩
  keys entries part := by
    simp [← parts _ part, kind] at atom

theorem sound_string (s : String) : Sound transforms (string s) :=
  sound_atom (fun p part => by cases part; rfl) (by simp [kind]) rfl

theorem sound_null : Sound transforms null :=
  sound_atom (fun p part => by cases part; rfl) (by simp [kind]) rfl

theorem sound_enumerated {typeName variant : String} {v : Value} (h : Sound transforms v) :
    Sound transforms (enumerated typeName variant v) where
  bare := bare_enumerated h.bare
  leaves leaf part childless := by
    cases part with
    | self => exact absurd .enumerated (childless v)
    | enumerated part => exact h.leaves leaf part childless
  keys entries part := by
    cases part with
    | enumerated part => exact h.keys entries part

theorem sound_entry {key v : Value} (hk : Sound transforms key) (hv : Sound transforms v)
    (scalar : key.unwrapped.kind ∉ [.record, .map, .list]) : Sound transforms (map [(key, v)]) where
  bare := bare_map (List.forall_mem_singleton.mpr ⟨hk.bare, hv.bare⟩)
  leaves leaf part childless := by
    cases part with
    | self => exact absurd (.entry (List.mem_singleton_self (key, v))) (childless v)
    | key mem part =>
      obtain rfl := List.mem_singleton.mp mem
      exact hk.leaves leaf part childless
    | entry mem part =>
      obtain rfl := List.mem_singleton.mp mem
      exact hv.leaves leaf part childless
  keys entries part := by
    cases part with
    | self => exact List.forall_mem_singleton.mpr scalar
    | key mem part =>
      obtain rfl := List.mem_singleton.mp mem
      exact hk.keys entries part
    | entry mem part =>
      obtain rfl := List.mem_singleton.mp mem
      exact hv.keys entries part

end

/-- Maps in one another, each under one key. -/
def shelves (key : Value) : Nat → Value
  | 0 => null
  | n + 1 => map [(key, shelves key n)]

theorem sound_shelves {transforms : Transforms} {key : Value} (hk : Sound transforms key)
    (scalar : key.unwrapped.kind ∉ [.record, .map, .list]) (n : Nat) :
    Sound transforms (shelves key n) := by
  induction n with
  | zero => exact sound_null
  | succ n ih => exact sound_entry hk ih scalar

theorem under_shelves (key : Value) (n : Nat) : Under OneBelow n null (shelves key n) := by
  induction n with
  | zero => exact .self
  | succ n ih => exact .step (.inner (.entry (List.mem_singleton_self (key, _)))) ih

theorem le_of_under_shelves {key : Value} (atom : ∀ c, ¬OneBelow c key.unwrapped) {n depth : Nat}
    {part : Value} (h : Under OneBelow depth part (shelves key n)) : depth ≤ n := by
  induction n generalizing depth with
  | zero =>
    cases h with
    | self => exact Nat.le_refl 0
    | step layer inner => exact absurd layer.exists_child (not_exists.mpr nofun)
  | succ n ih =>
    cases h with
    | self => exact Nat.zero_le _
    | step layer inner =>
      cases layer with
      | inner layer =>
        cases layer with
        | key mem =>
          obtain rfl := List.mem_singleton.mp mem
          cases inner with
          | self => exact Nat.succ_le_succ (Nat.zero_le n)
          | step layer _ => exact absurd layer (atom _)
        | entry mem =>
          obtain rfl := List.mem_singleton.mp mem
          exact Nat.succ_le_succ (ih inner)

/-- A text in a number of enumerated wrappers. -/
def wrapped : Nat → Value
  | 0 => string "k"
  | n + 1 => enumerated "Coat" "Warm" (wrapped n)

theorem unwrapped_wrapped (n : Nat) : (wrapped n).unwrapped = string "k" := by
  induction n with
  | zero => rfl
  | succ n ih => exact ih

theorem sound_wrapped {transforms : Transforms} (n : Nat) : Sound transforms (wrapped n) := by
  induction n with
  | zero => exact sound_string "k"
  | succ n ih => exact sound_enumerated ih

theorem under_wrapped (n : Nat) : Under Child n (string "k") (wrapped n) := by
  induction n with
  | zero => exact .self
  | succ n ih => exact .step .enumerated ih

/-- Maps whose keys are wrapped reach the limit with 100 of them, but not with their keys. -/
theorem toJson_nesting_shelves :
    (Sound noTransforms (shelves (wrapped 1) 100) ∧
      ∃ j, (shelves (wrapped 1) 100).toJson noTransforms = .ok j) ∧
    (Sound noTransforms (shelves (wrapped 1) 101) ∧
      (shelves (wrapped 1) 101).toJson noTransforms = .error (.nestingTooDeep 101 100)) ∧
    Sound noTransforms (shelves (wrapped 0) 1) ∧ KeysUnwrapped (shelves (wrapped 0) 1) ∧
      (Under Child 1 (string "k") (shelves (wrapped 0) 1) ↔
        Under OneBelow 1 (string "k") (shelves (wrapped 0) 1)) := by
  have sound (m n : Nat) : Sound noTransforms (shelves (wrapped m) n) := by
    refine sound_shelves (sound_wrapped m) ?_ n
    simp [unwrapped_wrapped, kind]
  have atom (c : Value) : ¬OneBelow c (wrapped 1).unwrapped :=
    fun layer => absurd layer.exists_child (not_exists.mpr nofun)
  have unwrapped : KeysUnwrapped (shelves (wrapped 0) 1) := by
    intro entries part
    cases part with
    | self => exact List.forall_mem_singleton.mpr nofun
    | key mem part =>
      obtain rfl := List.mem_singleton.mp mem
      cases part
    | entry mem part =>
      obtain rfl := List.mem_singleton.mp mem
      cases part
  refine ⟨⟨sound 1 100, ?_⟩, ⟨sound 1 101, ?_⟩, sound 0 1, unwrapped, ?_⟩
  · exact (toJson_nesting noTransforms (sound 1 100)).1.mpr fun _ _ => le_of_under_shelves atom
  · exact (toJson_nesting noTransforms (sound 1 101)).2.1
      ⟨101, null, under_shelves (wrapped 1) 101, Nat.lt_succ_self 100⟩
  · exact (toJson_nesting noTransforms (sound 0 1)).2.2 unwrapped 1 _

/-- A key under 201 layers encodes, as 200 of them are wrappers around it. -/
theorem toJson_nesting_wrapped :
    Sound noTransforms (map [(wrapped 200, null)]) ∧
    Under Child 201 (string "k") (map [(wrapped 200, null)]) ∧
    (map [(wrapped 200, null)]).toJson noTransforms = .ok (.object [("k", .null)]) := by
  refine ⟨?_, ?_, ?_⟩
  · refine sound_entry (sound_wrapped 200) sound_null ?_
    simp [unwrapped_wrapped, kind]
  · exact .step (.key (List.mem_singleton_self (wrapped 200, null))) (under_wrapped 200)
  · rfl

end Value
end DocStore
