import DocStore.Proofs.Value.FixedPoint
import DocStore.Proofs.Value.Replacement

/-! # Encoders that return their input

An encoder that matches everything and returns its input, tried after all others, makes no
difference where its output counts as the input returned. It does count for every float and for
every value without a NaN in it. A value that is not a float and has a NaN somewhere in it does not
count as returned: it is encoded in its own place again and again, until the levels are used up. -/
set_option autoImplicit false

namespace DocStore

/-! ## Outcomes that differ in one way only -/

namespace Outcome

variable {ε α β : Type} {e : ε} {bad : Prop}

/-- Whether two outcomes are the same, or the first is a given error and there is a reason. -/
def SameUnless (e : ε) (bad : Prop) (x' x : Except ε α) : Prop :=
  x' = x ∨ x' = .error e ∧ bad

theorem SameUnless.imp {bad' : Prop} {x' x : Except ε α} (h : SameUnless e bad x' x)
    (reason : bad → bad') : SameUnless e bad' x' x :=
  Or.imp id (And.imp id reason) h

theorem SameUnless.bind {x' x : Except ε α} {f' f : α → Except ε β} (h : SameUnless e bad x' x)
    (next : ∀ a, SameUnless e bad (f' a) (f a)) : SameUnless e bad (x' >>= f') (x >>= f) := by
  rcases h with rfl | ⟨rfl, reason⟩
  · cases x' with
    | ok a => exact next a
    | error e' => exact .inl rfl
  · exact .inr ⟨rfl, reason⟩

theorem SameUnless.mapM {f' f : α → Except ε β} {l : List α}
    (each : ∀ a ∈ l, SameUnless e bad (f' a) (f a)) :
    SameUnless e bad (l.mapM f') (l.mapM f) := by
  induction l with
  | nil => exact .inl rfl
  | cons a l ih =>
    obtain ⟨first, others⟩ := List.forall_mem_cons.mp each
    rw [List.mapM_cons, List.mapM_cons]
    refine first.bind fun b => ?_
    exact (ih others).bind fun bs => .inl rfl

end Outcome

open Outcome (SameUnless)

namespace EncodeOptions

/-- The options with one more encoder, tried after all others. -/
def also (o : EncodeOptions) (e : EncoderRef) : EncodeOptions :=
  { o with encoders := o.encoders ++ [e] }

theorem also_apply_of_some {transforms : Transforms} {o : EncodeOptions} {e : EncoderRef}
    {v w : Value} (h : o.encoders.apply transforms v = some w) :
    (o.also e).encoders.apply transforms v = some w := by
  unfold EncoderTable.apply at h
  simp [EncoderTable.apply, also, h]

theorem also_apply_of_none {transforms : Transforms} {o : EncodeOptions} {e : EncoderRef}
    {v : Value} (h : o.encoders.apply transforms v = none) :
    (o.also e).encoders.apply transforms v = transforms e.code v := by
  unfold EncoderTable.apply at h
  rw [EncoderTable.apply, also, List.findSome?_append, h, Option.none_or, List.findSome?_cons]
  cases transforms e.code v <;> rfl

end EncodeOptions

namespace Value

/-! ## What counts as returned by everything -/

/-- Whether a value counts as returned if it is returned. -/
def Recognized (v : Value) : Prop :=
  (∃ x, v = float x) ∨ ∀ x, Part (float x) v → x.isNaN = false

theorem countsAsReturned_self_iff {v : Value} : CountsAsReturned v v ↔ Recognized v := by
  constructor
  · intro h
    cases h with
    | float x => exact .inl ⟨x, rfl⟩
    | data _ alike =>
      exact .inr fun x inside => sameNumber_self_iff.mp (floats_of_resembles_self inside alike)
  · rintro (⟨x, rfl⟩ | finite)
    · exact .float x
    · by_cases scalar : ∃ x, v = float x
      · obtain ⟨x, rfl⟩ := scalar
        exact .float x
      · have samePath (p : List UInt8) : SamePath p p := rfl
        refine .data (fun x same => scalar ⟨x, same⟩) (resembles_self samePath v ?_)
        exact fun x inside => sameNumber_self_iff.mpr (finite x inside)

/-! ## What an encoding meets -/

/-- Whether a value is encoded with the same encoders as the one that it stands in, at once below
it. The fields of records are not: they are encoded with the encoders of their record. -/
inductive Inner : Value → Value → Prop where
  | enumerated {typeName variant : String} {v : Value} : Inner v (enumerated typeName variant v)
  | key {entries : List (Value × Value)} {entry : Value × Value} (mem : entry ∈ entries) :
    Inner entry.1.unwrapped (map entries)
  | entry {entries : List (Value × Value)} {entry : Value × Value} (mem : entry ∈ entries) :
    Inner entry.2 (map entries)
  | item {items : List Value} {v : Value} (mem : v ∈ items) : Inner v (list items)

section

variable (transforms : Transforms) (encoders : EncoderTable)

/-- Whether the built-in rules encode a value. -/
def FallsThrough (v : Value) : Prop :=
  ∀ w, encoders.apply transforms v = some w → CountsAsReturned w v

/-- Whether the encoding of a value comes to encode another with the same encoders. -/
inductive Meets : Value → Value → Prop where
  | self {v : Value} : Meets v v
  | output {u v w : Value} (first : encoders.apply transforms v = some w)
    (replaces : ¬CountsAsReturned w v) (next : Meets w u) : Meets v u
  | inner {c u v : Value} (falls : FallsThrough transforms encoders v) (inside : Inner c v)
    (next : Meets c u) : Meets v u

/-- Whether the encoding of a value meets one that no encoder matches and that would not count as
returned. -/
def MeetsUnrecognized (v : Value) : Prop :=
  ∃ u, Meets transforms encoders v u ∧ encoders.apply transforms u = none ∧ ¬Recognized u

end

theorem Inner.part {part c v : Value} (h : Inner c v) (inside : Part part c) : Part part v := by
  cases h with
  | enumerated => exact .enumerated inside
  | key mem => exact .key mem inside.of_unwrapped
  | entry mem => exact .entry mem inside
  | item mem => exact .item mem inside

/-- Where no output has a NaN in it, the encoding of a value without one meets no other. -/
theorem Meets.finite {transforms : Transforms} {encoders : EncoderTable} {u v : Value}
    (outputs : ∀ v w, encoders.apply transforms v = some w →
      ∀ x, Part (float x) w → x.isNaN = false)
    (h : Meets transforms encoders v u) (start : ∀ x, Part (float x) v → x.isNaN = false) :
    ∀ x, Part (float x) u → x.isNaN = false := by
  induction h with
  | self => exact start
  | output first _ _ ih => exact ih (outputs _ _ first)
  | inner _ inside _ ih => exact ih fun x part => start x (inside.part part)

/-! ## One level -/

section

variable {below : Below} {o : EncodeOptions} {e : EncoderRef} {bad : Prop}

theorem encodeKey_also {key : Value}
    (h : SameUnless tooDeep bad (below (o.nested.also e) key.unwrapped)
      (below o.nested key.unwrapped)) :
    SameUnless tooDeep bad (encodeKey below (o.also e) key) (encodeKey below o key) :=
  h.bind fun _ => .inl rfl

theorem encodeEntry_also {entry : Value × Value}
    (key : SameUnless tooDeep bad (below (o.nested.also e) entry.1.unwrapped)
      (below o.nested entry.1.unwrapped))
    (value : SameUnless tooDeep bad (below (o.nested.also e) entry.2) (below o.nested entry.2)) :
    SameUnless tooDeep bad (encodeEntry below (o.also e) entry) (encodeEntry below o entry) := by
  refine (encodeKey_also key).bind fun text => ?_
  have same : (o.also e).excludes text = o.excludes text := rfl
  rw [same]
  split
  · exact .inl rfl
  · exact value.bind fun _ => .inl rfl

theorem encodeBuiltin_also {v : Value}
    (inner : ∀ c, Inner c v →
      SameUnless tooDeep bad (below (o.nested.also e) c) (below o.nested c)) :
    SameUnless tooDeep bad (encodeBuiltin below (o.also e) v) (encodeBuiltin below o v) := by
  cases v with
  | enumerated typeName variant v => exact inner v .enumerated
  | map entries =>
    have each (entry) (mem : entry ∈ entries) :
        SameUnless tooDeep bad (encodeEntry below (o.also e) entry) (encodeEntry below o entry) :=
      encodeEntry_also (inner _ (.key mem)) (inner _ (.entry mem))
    exact (SameUnless.mapM each).bind fun _ => .inl rfl
  | list items =>
    have each (v) (mem : v ∈ items) :
        SameUnless tooDeep bad (below (o.nested.also e) v) (below o.nested v) :=
      inner v (.item mem)
    exact (SameUnless.mapM each).bind fun _ => .inl rfl
  | record | null | bool | int | uint | float | string | bytes | timestamp | date | duration
  | uuid | ipAddr | socketAddr | path | secret | foreign => exact .inl rfl

end

/-! ## All levels -/

section

variable {transforms : Transforms} {identity : EncoderRef}

theorem encodeWithin_unrecognized (returns : ∀ v, transforms identity.code v = some v)
    {o : EncodeOptions} {v : Value} (unmatched : o.encoders.apply transforms v = none)
    (h : ¬Recognized v) (levels : Nat) :
    encodeWithin transforms levels (o.also identity) v = .error tooDeep := by
  have first : (o.also identity).encoders.apply transforms v = some v := by
    rw [EncodeOptions.also_apply_of_none unmatched, returns]
  induction levels with
  | zero => rfl
  | succ levels ih =>
    rw [encodeWithin_output first fun same => h (countsAsReturned_self_iff.mp same)]
    exact ih

theorem encodeWithin_also (returns : ∀ v, transforms identity.code v = some v) (levels : Nat) :
    ∀ (o : EncodeOptions) (v : Value),
      SameUnless tooDeep (MeetsUnrecognized transforms o.encoders v)
        (encodeWithin transforms levels (o.also identity) v)
        (encodeWithin transforms levels o v) := by
  -- Values below and outputs are encoded with one level less, the former with other options.
  induction levels with
  | zero => exact fun o v => .inl rfl
  | succ levels ih =>
  intro o v
  have builtin (falls : FallsThrough transforms o.encoders v) :
      SameUnless tooDeep (MeetsUnrecognized transforms o.encoders v)
        (encodeBuiltin (encodeWithin transforms levels) (o.also identity) v)
        (encodeBuiltin (encodeWithin transforms levels) o v) := by
    apply encodeBuiltin_also
    intro c inside
    refine (ih o.nested c).imp ?_
    rintro ⟨u, meets, unmatched, h⟩
    exact ⟨u, .inner falls inside meets, unmatched, h⟩
  cases first : o.encoders.apply transforms v with
  | some w =>
    have first' := EncodeOptions.also_apply_of_some (e := identity) first
    by_cases returned : CountsAsReturned w v
    · rw [encodeWithin_returned first returned, encodeWithin_returned first' returned]
      apply builtin
      intro w' same
      rwa [← Option.some.inj (first.symm.trans same)]
    · rw [encodeWithin_output first returned, encodeWithin_output first' returned]
      refine (ih o w).imp ?_
      rintro ⟨u, meets, unmatched, h⟩
      exact ⟨u, .output first returned meets, unmatched, h⟩
  | none =>
    by_cases recognized : Recognized v
    · have first' : (o.also identity).encoders.apply transforms v = some v := by
        rw [EncodeOptions.also_apply_of_none first, returns]
      rw [encodeWithin_unmatched first,
        encodeWithin_returned first' (countsAsReturned_self_iff.mpr recognized)]
      apply builtin
      intro w same
      rw [first] at same
      cases same
    · exact .inr ⟨encodeWithin_unrecognized returns first recognized _, v, .self, first, recognized⟩

end

/-- With an encoder after all others that matches everything and returns its input, a value encodes
as without it, or nests too deep. It encodes as without it where every value met that no encoder
matches is a float or has no NaN in it, and nests too deep if it is not such a value itself. -/
theorem encode_also_identity (transforms : Transforms) (o : EncodeOptions) (identity : EncoderRef)
    (returns : ∀ v, transforms identity.code v = some v) (v : Value) :
    (v.encode transforms (o.also identity) = v.encode transforms o ∨
      v.encode transforms (o.also identity) = .error tooDeep) ∧
    ((∀ u, Meets transforms o.encoders v u → o.encoders.apply transforms u = none →
        Recognized u) →
      v.encode transforms (o.also identity) = v.encode transforms o) ∧
    (o.encoders.apply transforms v = none → ¬Recognized v →
      v.encode transforms (o.also identity) = .error tooDeep) := by
  have same := encodeWithin_also returns (maxNesting + 1) o v
  refine ⟨Or.imp id And.left same, ?_, ?_⟩
  · intro recognized
    rcases same with same | ⟨-, u, meets, unmatched, unrecognized⟩
    · exact same
    · exact absurd (recognized u meets unmatched) unrecognized
  · intro unmatched unrecognized
    exact encodeWithin_unrecognized returns unmatched unrecognized _

/-- An encoder that masks texts, and one that returns its input. -/
def echoing : Transforms
  | 0, .string _ => some (.string "***")
  | 1, v => some v
  | _, _ => none

theorem not_recognized_nan : ¬Recognized (list [float .nan]) := by
  rintro (⟨x, same⟩ | finite)
  · cases same
  · exact absurd (finite .nan (.item (List.mem_cons_self ..) .self)) (by decide)

theorem encode_also_identity_masked :
    (list [string "hunter2", float (.ofRank true 0)]).encode echoing
        (EncodeOptions.also { encoders := [⟨"mask", 0⟩] } ⟨"echo", 1⟩) =
      (list [string "hunter2", float (.ofRank true 0)]).encode echoing
        { encoders := [⟨"mask", 0⟩] } ∧
    (list [float .nan]).encode echoing
        (EncodeOptions.also { encoders := [⟨"mask", 0⟩] } ⟨"echo", 1⟩) = .error tooDeep := by
  have returns (v : Value) : echoing 1 v = some v := rfl
  have outputs (v w : Value) (first : EncoderTable.apply echoing [⟨"mask", 0⟩] v = some w) :
      ∀ x, Part (float x) w → x.isNaN = false := by
    intro x inside
    cases v with
    | string s =>
      cases first
      cases inside
    | null | bool | int | uint | float | bytes | timestamp | date | duration | uuid | ipAddr
    | socketAddr | path | secret | enumerated | record | map | list | foreign => cases first
  constructor
  · refine (encode_also_identity echoing { encoders := [⟨"mask", 0⟩] } ⟨"echo", 1⟩ returns _).2.1 ?_
    intro u meets _
    refine .inr (meets.finite outputs ?_)
    intro x inside
    cases inside with
    | item mem inside =>
      simp only [List.mem_cons, List.not_mem_nil, or_false] at mem
      rcases mem with rfl | rfl
      · cases inside
      · cases inside
        decide
  · exact (encode_also_identity echoing { encoders := [⟨"mask", 0⟩] } ⟨"echo", 1⟩ returns _).2.2
      rfl not_recognized_nan

/-- Without the encoder that returns its input, a NaN in a list is found by the check for finite
numbers; with it the list never gets there. -/
theorem encode_also_identity_nan :
    (∀ v, echoing 1 v = some v) ∧
    (list [float .nan]).encode echoing {} = .error (.unencodable "Float" (.notFinite .nan)) ∧
    (list [float .nan]).encode echoing (EncodeOptions.also {} ⟨"echo", 1⟩) = .error tooDeep :=
  ⟨fun _ => rfl, rfl, encodeWithin_unrecognized (fun _ => rfl) rfl not_recognized_nan _⟩

end Value
end DocStore
