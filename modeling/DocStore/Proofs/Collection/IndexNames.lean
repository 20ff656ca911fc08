import DocStore.Collection
import DocStore.Proofs.Sql.Scanning
import Mathlib.Tactic.SplitIfs

/-! # Catalog names of indexes

A catalog name strings the collection, the kind and the field together, with the character between
them that names may hold themselves. Two indexes have one name if they are of one collection and one
kind and their fields differ in dots and underscores only. There is no other way, unless the name of
one collection goes on after that of the other as the name of an index does (`indexName_eq_iff`). -/
set_option autoImplicit false

namespace DocStore

/-- The characters of a field as they stand in a derived name. -/
def FieldPath.flattened (f : FieldPath) : List Char :=
  f.text.toList.map fun c => if c = '.' then '_' else c

theorem FieldPath.flattened_inj {f g : FieldPath} (hf : '_' ∉ f.text.toList)
    (hg : '_' ∉ g.text.toList) (h : f.flattened = g.flattened) : f = g := by
  have back (e : FieldPath) (he : '_' ∉ e.text.toList) :
      e.flattened.map (fun c => if c = '_' then '.' else c) = e.text.toList := by
    rw [flattened, List.map_map]
    refine (List.map_congr_left fun c mem => ?_).trans (List.map_id _)
    have other : c ≠ '_' := fun same => he (same ▸ mem)
    by_cases dot : c = '.'
    · simp [dot]
    · simp [dot, other]
  have same := congrArg (List.map fun c => if c = '_' then '.' else c) h
  rw [back f hf, back g hg] at same
  exact congrArg FieldPath.mk (String.toList_inj.mp same)

theorem FieldPath.flattened_of_undotted {cs : List Char} (h : '.' ∉ cs) :
    flattened ⟨String.ofList cs⟩ = cs := by
  rw [flattened, String.toList_ofList]
  refine (List.map_congr_left fun c mem => if_neg ?_).trans (List.map_id _)
  rintro rfl
  exact h mem

theorem FieldPath.not_dot_mem_flattened (f : FieldPath) : '.' ∉ f.flattened := by
  intro mem
  obtain ⟨c, -, same⟩ := List.mem_map.mp mem
  split_ifs at same with dot
  · exact absurd same (by decide)
  · exact dot same

namespace Collection

/-- What stands between the name of a collection and that of a field, but for the last
underscore. -/
def indexMark (k : IndexKind) : List Char := "_idx_".toList ++ k.text.toList

theorem toList_indexName (c : Collection) (k : IndexKind) (f : FieldPath) :
    (c.indexName (.ofField k f)).toList =
      c.name.toList ++ (indexMark k ++ '_' :: f.flattened) := by
  simp [indexName, IndexDescriptor.ofField, IndexDescriptor.derivedName, indexMark,
    FieldPath.flattened]

/-- Whether the name of a collection goes on after that of another one as the names of indexes of the
other one do: it ends with the mark, or an underscore follows the mark. -/
def GoesOnAfter (c' c : Collection) : Prop :=
  ∃ k, c.name.toList ++ (indexMark k ++ ['_']) <+: c'.name.toList ++ ['_']

/-- Inside a mark no further mark begins. -/
theorem not_mark_inside (k : IndexKind) :
    ∀ n < (indexMark k).length, 0 < n → (indexMark k ++ ['_'])[n]? = some '_' →
      (indexMark k ++ ['_'])[n + 1]? ≠ some 'i' := by
  cases k <;> decide

theorem mark_overlap {k k' : IndexKind} {w w' s : List Char}
    (h : indexMark k ++ '_' :: w = s ++ (indexMark k' ++ '_' :: w')) :
    s = [] ∨ indexMark k ++ ['_'] <+: s ++ ['_'] := by
  by_cases empty : s.length = 0
  · exact .inl (List.length_eq_zero_iff.mp empty)
  by_cases short : s.length < (indexMark k).length
  · -- The second mark would begin inside the first one.
    exfalso
    have seen (n : Nat) (hn : n ≤ (indexMark k).length) :
        (indexMark k ++ '_' :: w)[n]? = (indexMark k ++ ['_'])[n]? := by
      have room : n < (indexMark k ++ ['_']).length := by simp; omega
      rw [← List.singleton_append, ← List.append_assoc, List.getElem?_append_left room]
    have inside (n : Nat) :
        (indexMark k ++ '_' :: w)[s.length + n]? = (indexMark k' ++ '_' :: w')[n]? := by
      rw [h, List.getElem?_append_right (Nat.le_add_right ..), Nat.add_sub_cancel_left]
    have first : (indexMark k ++ ['_'])[s.length]? = some '_' :=
      (seen _ (by omega)).symm.trans (inside 0)
    have second : (indexMark k ++ ['_'])[s.length + 1]? = some 'i' :=
      (seen _ (by omega)).symm.trans (inside 1)
    exact not_mark_inside k s.length short (Nat.pos_of_ne_zero empty) first second
  · have mark : indexMark k ++ ['_'] <+: indexMark k ++ '_' :: w := by simp
    have start : s ++ ['_'] <+: indexMark k ++ '_' :: w := by
      rw [h, List.prefix_append_right_inj]
      exact ⟨_, rfl⟩
    have longer : (indexMark k ++ ['_']).length ≤ (s ++ ['_']).length := by simp; omega
    exact .inr (List.prefix_of_prefix_length_le mark start longer)

theorem mark_inj {k k' : IndexKind} {w w' : List Char}
    (h : indexMark k ++ '_' :: w = indexMark k' ++ '_' :: w') : k = k' ∧ w = w' := by
  cases k <;> cases k' <;> simp_all [indexMark, IndexKind.text]

theorem goesOnAfter_or_eq {c c' : Collection} {k k' : IndexKind} {w w' s : List Char}
    (split : c'.name.toList = c.name.toList ++ s)
    (h : indexMark k ++ '_' :: w = s ++ (indexMark k' ++ '_' :: w')) :
    c'.GoesOnAfter c ∨ c.name = c'.name ∧ k = k' ∧ w = w' := by
  rcases mark_overlap h with rfl | goes_on
  · rw [List.append_nil] at split
    exact .inr ⟨String.toList_inj.mp split.symm, mark_inj h⟩
  · refine .inl ⟨k, ?_⟩
    rw [split, List.append_assoc, List.prefix_append_right_inj]
    exact goes_on

/-- Unless the name of one collection goes on after that of the other, catalog names are equal
exactly if the indexes are of one collection and one kind, and of fields that differ in dots and
underscores only: of one field if neither has underscores. -/
theorem indexName_eq_iff {c c' : Collection} (hc : ¬c'.GoesOnAfter c) (hc' : ¬c.GoesOnAfter c')
    (k k' : IndexKind) (f f' : FieldPath) :
    (c.indexName (.ofField k f) = c'.indexName (.ofField k' f') ↔
      c.name = c'.name ∧ k = k' ∧ f.flattened = f'.flattened) ∧
    ('_' ∉ f.text.toList → '_' ∉ f'.text.toList →
      (c.indexName (.ofField k f) = c'.indexName (.ofField k' f') ↔
        c.name = c'.name ∧ k = k' ∧ f = f')) := by
  have names : c.indexName (.ofField k f) = c'.indexName (.ofField k' f') ↔
      c.name = c'.name ∧ k = k' ∧ f.flattened = f'.flattened := by
    rw [← String.toList_inj, toList_indexName, toList_indexName]
    constructor
    · intro h
      rcases List.append_eq_append_iff.mp h with ⟨s, split, rest⟩ | ⟨s, split, rest⟩
      · exact (goesOnAfter_or_eq split rest).resolve_left hc
      · obtain ⟨name, kind, field⟩ := (goesOnAfter_or_eq split rest).resolve_left hc'
        exact ⟨name.symm, kind.symm, field.symm⟩
    · rintro ⟨name, rfl, field⟩
      rw [name, field]
  refine ⟨names, fun hf hf' => names.trans ?_⟩
  constructor
  · rintro ⟨name, kind, field⟩
    exact ⟨name, kind, FieldPath.flattened_inj hf hf' field⟩
  · rintro ⟨name, kind, rfl⟩
    exact ⟨name, kind, rfl⟩

theorem indexName_eq_iff_users :
    ¬GoesOnAfter ⟨"orders", .standard⟩ ⟨"users", .standard⟩ ∧
    ¬GoesOnAfter ⟨"users", .standard⟩ ⟨"orders", .standard⟩ ∧
    (⟨"users", .standard⟩ : Collection).indexName (.ofField .unique ⟨"id"⟩) ≠
      (⟨"orders", .standard⟩ : Collection).indexName (.ofField .unique ⟨"id"⟩) := by
  have orders : ¬GoesOnAfter ⟨"orders", .standard⟩ ⟨"users", .standard⟩ := by
    rintro ⟨_ | _, found⟩ <;> revert found <;> decide
  have users : ¬GoesOnAfter ⟨"users", .standard⟩ ⟨"orders", .standard⟩ := by
    rintro ⟨_ | _, found⟩ <;> revert found <;> decide
  refine ⟨orders, users, fun same => ?_⟩
  have names := (indexName_eq_iff orders users .unique .unique ⟨"id"⟩ ⟨"id"⟩).1.mp same
  exact absurd names.1 (by decide)

/-- The condition is needed: each index of a collection that goes on after another one has the name
of an index of the other one. -/
theorem GoesOnAfter.exists_indexName_eq {c c' : Collection} (h : c'.GoesOnAfter c)
    (plain : Sql.isPlainIdentifier c'.name = true) (k' : IndexKind) (f' : FieldPath) :
    ∃ k f, c.indexName (.ofField k f) = c'.indexName (.ofField k' f') := by
  obtain ⟨k, rest, split⟩ := h
  -- The rest of the name of the index is a field of the other collection.
  let rest' := rest ++ ("idx_".toList ++ k'.text.toList ++ '_' :: f'.flattened)
  have whole : c.name.toList ++ (indexMark k ++ '_' :: rest') =
      c'.name.toList ++ (indexMark k' ++ '_' :: f'.flattened) := by
    have more := congrArg (· ++ ("idx_".toList ++ k'.text.toList ++ '_' :: f'.flattened)) split
    simpa [rest', indexMark] using more
  have undotted : '.' ∉ rest' := by
    have name : '.' ∉ c'.name.toList := Sql.not_mem_of_plain plain (by decide)
    have more : '.' ∉ rest := fun mem => by
      have inside : '.' ∈ c'.name.toList ++ ['_'] := split ▸ List.mem_append_right _ mem
      simp [name] at inside
    have kind : '.' ∉ k'.text.toList := by cases k' <;> decide
    simp [rest', more, kind, f'.not_dot_mem_flattened]
  refine ⟨k, ⟨String.ofList rest'⟩, String.toList_inj.mp ?_⟩
  rw [toList_indexName, toList_indexName, FieldPath.flattened_of_undotted undotted, whole]

/-- Fields that differ in a dot and an underscore, and collections one of which goes on after the
other, have indexes of one name. -/
theorem indexName_collisions :
    (⟨"users", .standard⟩ : Collection).indexName (.ofField .unique ⟨"a.b"⟩) =
      (⟨"users", .standard⟩ : Collection).indexName (.ofField .unique ⟨"a_b"⟩) ∧
    Sql.isPlainIdentifier "a" = true ∧ Sql.isPlainIdentifier "a_idx_path" = true ∧
    (⟨"a", .standard⟩ : Collection).indexName (.ofField .path ⟨"idx_unique_id"⟩) =
      (⟨"a_idx_path", .standard⟩ : Collection).indexName (.ofField .unique ⟨"id"⟩) := by
  decide

end Collection
end DocStore
