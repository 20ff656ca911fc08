import DocStore.Json.Basic
import Mathlib.Data.List.Induction
import Mathlib.Data.String.Basic

/-! # Canonical JSON values

A canonical value has the members of each of its objects in the order of their keys, which makes the
keys of an object distinct. What is put into sorted members leaves them sorted, and sorting them
again changes nothing. Canonical values are counted by levels: a value of `n` levels has no part
under `n` or more arrays and objects. -/
set_option autoImplicit false

namespace DocStore.Json

/-! ## Sorted members -/

/-- Whether members stand in the order of their keys. -/
def Sorted (members : List (String × Json)) : Prop := members.Pairwise fun m n => m.1 < n.1

theorem mem_of_mem_insertMember {key : String} {value : Json} {m : String × Json}
    {members : List (String × Json)} (h : m ∈ insertMember key value members) :
    m = (key, value) ∨ m ∈ members := by
  induction members with
  | nil => exact .inl (List.mem_singleton.mp h)
  | cons n members ih =>
    rw [insertMember] at h
    split at h
    · exact List.mem_cons.mp h
    · split at h
      · exact (List.mem_cons.mp h).imp_right (List.mem_cons_of_mem n)
      · rcases List.mem_cons.mp h with rfl | h
        · exact .inr (List.mem_cons_self ..)
        · exact (ih h).imp_right (List.mem_cons_of_mem n)

theorem Sorted.insertMember {members : List (String × Json)} (h : Sorted members) (key : String)
    (value : Json) : Sorted (insertMember key value members) := by
  induction members with
  | nil => exact List.pairwise_singleton ..
  | cons n members ih =>
    obtain ⟨first, rest⟩ := List.pairwise_cons.mp h
    rw [Json.insertMember]
    by_cases below : key < n.1
    · rw [if_pos below]
      refine List.pairwise_cons.mpr ⟨fun m hm => ?_, h⟩
      rcases List.mem_cons.mp hm with rfl | hm
      · exact below
      · exact lt_trans below (first m hm)
    · rw [if_neg below]
      by_cases same : key = n.1
      · rw [if_pos same]
        exact List.pairwise_cons.mpr ⟨fun m hm => same ▸ first m hm, rest⟩
      · rw [if_neg same]
        have above : n.1 < key := lt_of_le_of_ne (not_lt.mp below) (Ne.symm same)
        refine List.pairwise_cons.mpr ⟨fun m hm => ?_, ih rest⟩
        rcases mem_of_mem_insertMember hm with rfl | hm
        · exact above
        · exact first m hm

theorem mem_insertMember_iff {key : String} {value : Json} {m : String × Json}
    {members : List (String × Json)} (h : Sorted members) :
    m ∈ Json.insertMember key value members ↔ m = (key, value) ∨ m ∈ members ∧ m.1 ≠ key := by
  induction members with
  | nil => simp [Json.insertMember]
  | cons n members ih =>
    obtain ⟨first, rest⟩ := List.pairwise_cons.mp h
    rw [Json.insertMember]
    by_cases below : key < n.1
    · have other : ∀ m ∈ n :: members, m.1 ≠ key := by
        intro m hm
        rcases List.mem_cons.mp hm with rfl | hm
        · exact ne_of_gt below
        · exact ne_of_gt (lt_trans below (first m hm))
      rw [if_pos below, List.mem_cons, and_iff_left_of_imp (other m)]
    · rw [if_neg below]
      by_cases same : key = n.1
      · have other : ∀ m ∈ members, m.1 ≠ key := fun m hm => same ▸ ne_of_gt (first m hm)
        rw [if_pos same, List.mem_cons, List.mem_cons, or_and_right, and_iff_left_of_imp (other m)]
        refine or_congr_right (Iff.symm (or_iff_right ?_))
        rintro ⟨rfl, differs⟩
        exact differs same.symm
      · have kept : m = n → m.1 ≠ key := by
          rintro rfl
          exact Ne.symm same
        rw [if_neg same, List.mem_cons, List.mem_cons, ih rest, or_and_right,
          and_iff_left_of_imp kept]
        exact or_left_comm

theorem insertMember_of_greatest {key : String} (value : Json) {members : List (String × Json)}
    (h : ∀ m ∈ members, m.1 < key) :
    Json.insertMember key value members = members ++ [(key, value)] := by
  induction members with
  | nil => rfl
  | cons n members ih =>
    have above : n.1 < key := h n (List.mem_cons_self ..)
    rw [Json.insertMember, if_neg (not_lt_of_gt above), if_neg (ne_of_gt above),
      ih fun m hm => h m (List.mem_cons_of_mem n hm)]
    rfl

/-! ## Sorting -/

theorem sortMembers_append (members : List (String × Json)) (m : String × Json) :
    sortMembers (members ++ [m]) = Json.insertMember m.1 m.2 (sortMembers members) := by
  rw [sortMembers, List.foldl_append]
  rfl

theorem sorted_sortMembers (members : List (String × Json)) : Sorted (sortMembers members) := by
  induction members using List.reverseRecOn with
  | nil => exact List.Pairwise.nil
  | append_singleton members m ih =>
    rw [sortMembers_append]
    exact ih.insertMember m.1 m.2

theorem mem_of_mem_sortMembers {members : List (String × Json)} {m : String × Json}
    (h : m ∈ sortMembers members) : m ∈ members := by
  induction members using List.reverseRecOn with
  | nil => exact h
  | append_singleton members n ih =>
    rw [sortMembers_append] at h
    rcases mem_of_mem_insertMember h with rfl | h
    · exact List.mem_append_right _ (List.mem_singleton.mpr rfl)
    · exact List.mem_append_left _ (ih h)

/-- Of the members with a key the last one is kept. -/
theorem mem_sortMembers_iff {members : List (String × Json)} {m : String × Json} :
    m ∈ sortMembers members ↔
      ∃ before after, members = before ++ m :: after ∧ ∀ n ∈ after, n.1 ≠ m.1 := by
  induction members using List.reverseRecOn with
  | nil => simp [sortMembers]
  | append_singleton members n ih =>
    rw [sortMembers_append, mem_insertMember_iff (sorted_sortMembers members), ih]
    constructor
    · rintro (rfl | ⟨⟨before, after, rfl, others⟩, differs⟩)
      · exact ⟨members, [], rfl, nofun⟩
      · refine ⟨before, after ++ [n], by simp, fun l hl => ?_⟩
        rcases List.mem_append.mp hl with hl | hl
        · exact others l hl
        · obtain rfl := List.mem_singleton.mp hl
          exact Ne.symm differs
    · rintro ⟨before, after, split, others⟩
      rcases List.eq_nil_or_concat after with rfl | ⟨after, l, rfl⟩
      · obtain ⟨-, same⟩ := List.append_inj' split rfl
        exact .inl (List.singleton_inj.mp same).symm
      · rw [List.concat_eq_append, ← List.cons_append, ← List.append_assoc] at split
        obtain ⟨rfl, same⟩ := List.append_inj' split rfl
        obtain rfl := List.singleton_inj.mp same
        rw [List.concat_eq_append] at others
        obtain ⟨others, last⟩ := List.forall_mem_append.mp others
        exact .inr ⟨⟨before, after, rfl, others⟩, (last n (List.mem_singleton_self n)).symm⟩

theorem mem_keys_sortMembers_iff {members : List (String × Json)} {key : String} :
    key ∈ (sortMembers members).map Prod.fst ↔ key ∈ members.map Prod.fst := by
  induction members using List.reverseRecOn with
  | nil => rfl
  | append_singleton members n ih =>
    rw [List.map_append, List.mem_append, ← ih, sortMembers_append, List.mem_map, List.mem_map]
    simp only [mem_insertMember_iff (sorted_sortMembers members), List.map_cons, List.map_nil,
      List.mem_singleton]
    constructor
    · rintro ⟨m, rfl | ⟨mem, -⟩, rfl⟩
      · exact .inr rfl
      · exact .inl ⟨m, mem, rfl⟩
    · rintro (⟨m, mem, rfl⟩ | rfl)
      · by_cases same : m.1 = n.1
        · exact ⟨n, .inl rfl, same.symm⟩
        · exact ⟨m, .inr ⟨mem, same⟩, rfl⟩
      · exact ⟨n, .inl rfl, rfl⟩

theorem Sorted.sortMembers_eq {members : List (String × Json)} (h : Sorted members) :
    sortMembers members = members := by
  induction members using List.reverseRecOn with
  | nil => rfl
  | append_singleton members n ih =>
    obtain ⟨front, -, greatest⟩ := List.pairwise_append.mp h
    rw [sortMembers_append, ih front]
    exact insertMember_of_greatest n.2 fun m hm => greatest m hm n (List.mem_singleton.mpr rfl)

/-! ## Distinct keys -/

theorem insertMember_perm {key : String} (value : Json) {members : List (String × Json)}
    (h : ∀ m ∈ members, m.1 ≠ key) :
    (Json.insertMember key value members).Perm ((key, value) :: members) := by
  induction members with
  | nil => exact .refl _
  | cons n members ih =>
    obtain ⟨first, rest⟩ := List.forall_mem_cons.mp h
    rw [Json.insertMember, if_neg (Ne.symm first)]
    split
    · exact .refl _
    · exact ((ih rest).cons n).trans (.swap ..)

theorem sortMembers_perm {members : List (String × Json)} (h : (members.map Prod.fst).Nodup) :
    (sortMembers members).Perm members := by
  induction members using List.reverseRecOn with
  | nil => exact .refl _
  | append_singleton members n ih =>
    rw [List.map_append, List.nodup_append] at h
    obtain ⟨front, -, other⟩ := h
    have absent : ∀ m ∈ sortMembers members, m.1 ≠ n.1 := fun m hm =>
      other _ (List.mem_map_of_mem (mem_of_mem_sortMembers hm)) _ (List.mem_singleton.mpr rfl)
    rw [sortMembers_append]
    exact (insertMember_perm n.2 absent).trans
      (((ih front).cons n).trans (List.perm_append_singleton n members).symm)

theorem Sorted.nodup {members : List (String × Json)} (h : Sorted members) :
    (members.map Prod.fst).Nodup :=
  List.pairwise_map.mpr (h.imp fun lt => ne_of_lt lt)

/-- However distinct members are listed, they are the same once sorted. -/
theorem Sorted.sortMembers_eq_of_perm {members listed : List (String × Json)} (h : Sorted members)
    (same : listed.Perm members) : sortMembers listed = members := by
  have distinct : (listed.map Prod.fst).Nodup := (same.map Prod.fst).nodup_iff.mpr h.nodup
  exact ((sortMembers_perm distinct).trans same).eq_of_pairwise
    (fun m n _ _ below above => absurd above (not_lt_of_gt below)) (sorted_sortMembers listed) h

theorem lookup?_of_mem {members : List (String × Json)} (h : (members.map Prod.fst).Nodup)
    {m : String × Json} (mem : m ∈ members) : lookup? m.1 members = some m.2 := by
  induction members with
  | nil => cases mem
  | cons n members ih =>
    obtain ⟨first, rest⟩ := List.nodup_cons.mp h
    rw [lookup?, List.find?_cons]
    rcases List.mem_cons.mp mem with rfl | mem
    · rw [beq_self_eq_true]
      rfl
    · have other : n.1 ≠ m.1 := fun same => first (same ▸ List.mem_map_of_mem mem)
      rw [beq_eq_false_iff_ne.mpr other]
      exact ih rest mem

theorem lookup?_eq_none {key : String} {members : List (String × Json)}
    (h : ∀ m ∈ members, m.1 ≠ key) : lookup? key members = none := by
  rw [lookup?, List.find?_eq_none.mpr fun m mem => by simpa using h m mem]
  rfl

/-! ## Levels -/

/-- Whether a value is canonical and has at most the given number of levels; a scalar has one. -/
def Fits : Nat → Json → Prop
  | 0, _ => False
  | n + 1, .array items => ∀ item ∈ items, Fits n item
  | n + 1, .object members => Sorted members ∧ ∀ m ∈ members, Fits n m.2
  | _ + 1, _ => True

/-- A part of a value under the given number of arrays and objects. -/
inductive PartAt : Nat → Json → Json → Prop where
  | self (j : Json) : PartAt 0 j j
  | item {depth : Nat} {part item : Json} {items : List Json} (mem : item ∈ items)
    (inner : PartAt depth part item) : PartAt (depth + 1) part (.array items)
  | member {depth : Nat} {part : Json} {m : String × Json} {members : List (String × Json)}
    (mem : m ∈ members) (inner : PartAt depth part m.2) : PartAt (depth + 1) part (.object members)

/-- Whether no part of a value is a float, the value itself included. -/
def FloatFree (j : Json) : Prop :=
  ∀ depth part, PartAt depth part j → ∀ x finite, part ≠ .number (.float x finite)

theorem FloatFree.ne_float {j : Json} (h : FloatFree j) (x : Binary64) (finite : x.IsFinite) :
    j ≠ .number (.float x finite) :=
  h 0 j (.self j) x finite

theorem floatFree_string (s : String) : FloatFree (.string s) := by
  rintro depth part p x finite rfl
  cases p

theorem Fits.pos {n : Nat} {j : Json} (h : Fits n j) : 0 < n := by
  cases n with
  | zero => exact h.elim
  | succ n => omega

theorem Fits.succ {n : Nat} {j : Json} (h : Fits n j) : Fits (n + 1) j := by
  induction n generalizing j with
  | zero => exact h.elim
  | succ n ih =>
    cases j with
    | array items => exact fun item mem => ih (h item mem)
    | object members => exact ⟨h.1, fun m mem => ih (h.2 m mem)⟩
    | null => trivial
    | bool b => trivial
    | number n => trivial
    | string s => trivial

theorem Fits.mono {n m : Nat} {j : Json} (h : Fits n j) (hm : n ≤ m) : Fits m j := by
  induction hm with
  | refl => exact h
  | step _ ih => exact ih.succ

theorem Fits.lt_of_partAt {n depth : Nat} {part j : Json} (p : PartAt depth part j)
    (h : Fits n j) : depth < n := by
  induction p generalizing n with
  | self => exact h.pos
  | item mem _ ih =>
    cases n with
    | zero => exact h.elim
    | succ n =>
      have := ih (h _ mem)
      omega
  | member mem _ ih =>
    cases n with
    | zero => exact h.elim
    | succ n =>
      have := ih (h.2 _ mem)
      omega

/-- The members of any list make a canonical object. -/
theorem fits_ofMembers {n : Nat} {members : List (String × Json)}
    (h : ∀ m ∈ members, Fits n m.2) : Fits (n + 1) (ofMembers members) :=
  ⟨sorted_sortMembers members, fun m hm => h m (mem_of_mem_sortMembers hm)⟩

end DocStore.Json
