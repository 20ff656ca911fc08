import DocStore.Proofs.Value.Canonical

/-! # JSON encodes to itself

A canonical JSON value that fits the budget of levels is its own encoding; one that does not fit
runs out of levels at some part, and out of levels is the only way in which it can fail. A list of
steps of which some fail comes to one error if that error is the only one there is, so where the
value is too deep does not matter. -/
set_option autoImplicit false

namespace DocStore

/-! ## Canonical values by their parts -/

namespace Json

/-- Whether every object in a value has its members in the order of their keys. -/
def Canonical (j : Json) : Prop :=
  ∀ depth members, PartAt depth (.object members) j → Sorted members

theorem Canonical.item {items : List Json} (h : Canonical (.array items)) {item : Json}
    (mem : item ∈ items) : Canonical item :=
  fun depth members part => h (depth + 1) members (.item mem part)

theorem Canonical.member {members : List (String × Json)} (h : Canonical (.object members))
    {m : String × Json} (mem : m ∈ members) : Canonical m.2 :=
  fun depth inner part => h (depth + 1) inner (.member mem part)

/-- A canonical value fits the levels that its parts need. -/
theorem Canonical.fits {n : Nat} {j : Json} (h : Canonical j)
    (shallow : ∀ depth part, PartAt depth part j → depth < n) : Fits n j := by
  induction n generalizing j with
  | zero => exact absurd (shallow 0 j (.self j)) (Nat.not_lt_zero 0)
  | succ n ih =>
    cases j with
    | null => trivial
    | bool b => trivial
    | number k => trivial
    | string s => trivial
    | array items =>
      intro item mem
      refine ih (h.item mem) fun depth part inner => ?_
      have := shallow (depth + 1) part (.item mem inner)
      omega
    | object members =>
      refine ⟨h 0 members (.self _), fun m mem => ?_⟩
      refine ih (h.member mem) fun depth part inner => ?_
      have := shallow (depth + 1) part (.member mem inner)
      omega

end Json

namespace Value

open Json (Canonical Fits PartAt)

/-! ## Out of levels -/

/-- The error of a value that is nested too deep to be encoded. -/
def tooDeep : Error := .nestingTooDeep (maxNesting + 1) maxNesting

/-- The member of an entry is out of levels with its key or with its value. -/
theorem encodeEntry_tooDeep {transforms : Transforms} {levels : Nat} {o : EncodeOptions}
    (plain : Plain o) (key : String) {v : Value}
    (h : encodeWithin transforms levels o.nested v = .error tooDeep) :
    encodeEntry (encodeWithin transforms levels) o (.string key, v) = .error tooDeep := by
  rw [encodeEntry_plain plain, h, Outcome.error_bind]

/-- A canonical value that does not fit the budget fails, and in no other way than that. -/
theorem encodeWithin_tooDeep (transforms : Transforms) {levels : Nat} {o : EncodeOptions}
    (plain : Plain o) {j : Json} (canonical : Canonical j) (deep : ¬Fits levels j) :
    encodeWithin transforms levels o (ofJson j) = .error tooDeep := by
  induction levels generalizing o j with
  | zero => rfl
  | succ levels ih =>
    rw [encodeWithin_plain transforms levels plain]
    cases j with
    | null => exact absurd trivial deep
    | bool b => exact absurd trivial deep
    | number n => exact absurd trivial deep
    | string s => exact absurd trivial deep
    | array items =>
      obtain ⟨item, mem, below⟩ : ∃ item ∈ items, ¬Fits levels item := by
        by_contra none
        exact deep fun item mem => by_contra fun below => none ⟨item, mem, below⟩
      have failed : ((items.map ofJson).mapM (encodeWithin transforms levels o.nested)) =
          .error tooDeep := by
        refine Outcome.mapM_map_eq_error (fun item mem => ?_)
          ⟨item, mem, ih plain.nested (canonical.item mem) below⟩
        by_cases fits : Fits levels item
        · exact .inl ⟨item, encodeWithin_ofJson transforms plain.nested fits⟩
        · exact .inr (ih plain.nested (canonical.item mem) fits)
      rw [ofJson, ofItems_eq_map, encodeBuiltin, failed]
      rfl
    | object members =>
      obtain ⟨m, mem, below⟩ : ∃ m ∈ members, ¬Fits levels m.2 := by
        by_contra none
        exact deep ⟨canonical 0 members (.self _),
          fun m mem => by_contra fun below => none ⟨m, mem, below⟩⟩
      have entry (m : String × Json) (mem : m ∈ members) (below : ¬Fits levels m.2) :=
        encodeEntry_tooDeep plain m.1 (ih plain.nested (canonical.member mem) below)
      have failed : (members.map fun m => (Value.string m.1, ofJson m.2)).mapM
          (encodeEntry (encodeWithin transforms levels) o) = .error tooDeep := by
        refine Outcome.mapM_map_eq_error (fun m mem => ?_) ⟨m, mem, entry m mem below⟩
        by_cases fits : Fits levels m.2
        · have same := encodeWithin_ofJson transforms plain.nested fits
          exact .inl ⟨some m, encodeEntry_string plain m.1 same⟩
        · exact .inr (entry m mem fits)
      rw [ofJson, ofMembers_eq_map, encodeBuiltin, failed]
      rfl

/-! ## The limit -/

/-- A canonical value none of whose parts stands under more than 100 arrays and objects is its own
encoding, with the same numbers and members; every other one is nested too deep. -/
theorem toJson_ofJson (transforms : Transforms) {j : Json} (canonical : Canonical j) :
    ((∀ depth part, PartAt depth part j → depth ≤ 100) → (ofJson j).toJson transforms = .ok j) ∧
      ((∃ depth part, PartAt depth part j ∧ 100 < depth) →
        (ofJson j).toJson transforms = .error (.nestingTooDeep 101 100)) := by
  have plain : Plain ({} : EncodeOptions) := ⟨rfl, rfl⟩
  refine ⟨fun shallow => ?_, fun ⟨depth, part, inner, below⟩ => ?_⟩
  · have fits : Fits 101 j :=
      canonical.fits fun depth part inner => Nat.lt_succ_of_le (shallow depth part inner)
    exact encodeWithin_ofJson transforms plain fits
  · have deep : ¬Fits 101 j := fun fits => by
      have := Fits.lt_of_partAt inner fits
      omega
    exact encodeWithin_tooDeep transforms plain canonical deep

/-- A tower of objects, each the only member of the one around it. -/
def tower : Nat → Json
  | 0 => .null
  | n + 1 => .object [("a", tower n)]

theorem canonical_tower (n : Nat) : Canonical (tower n) := by
  induction n with
  | zero =>
    rintro depth members ⟨⟩
  | succ n ih =>
    intro depth members part
    cases part with
    | self => exact List.pairwise_singleton ..
    | member mem inner =>
      obtain rfl := List.mem_singleton.mp mem
      exact ih _ members inner

theorem le_of_partAt_tower {n depth : Nat} {part : Json} (h : PartAt depth part (tower n)) :
    depth ≤ n := by
  induction n generalizing depth with
  | zero =>
    cases h
    exact Nat.le_refl 0
  | succ n ih =>
    cases h with
    | self => omega
    | member mem inner =>
      obtain rfl := List.mem_singleton.mp mem
      exact Nat.succ_le_succ (ih inner)

theorem partAt_tower (n : Nat) : PartAt n .null (tower n) := by
  induction n with
  | zero => exact .self _
  | succ n ih => exact .member (List.mem_singleton.mpr rfl) ih

theorem toJson_ofJson_tower :
    (ofJson (tower 100)).toJson noTransforms = .ok (tower 100) ∧
      (ofJson (tower 101)).toJson noTransforms = .error (.nestingTooDeep 101 100) := by
  refine ⟨(toJson_ofJson noTransforms (canonical_tower 100)).1 fun _ _ => le_of_partAt_tower, ?_⟩
  exact (toJson_ofJson noTransforms (canonical_tower 101)).2
    ⟨101, .null, partAt_tower 101, Nat.lt_succ_self 100⟩

end Value

end DocStore
