import DocStore.Proofs.Engine.Execution
import DocStore.Proofs.Engine.Scalar
import Mathlib.Data.List.Pairwise

/-! # Unique indexes keep rows apart

The rows of a table have different keys, and no two of them collide in a unique index
(`Table.Separated`). Each way in which a table changes keeps this, and so it holds of every table of
every reachable storage. Names of tables, and names of the indexes of one table, stay apart as
well. -/
set_option autoImplicit false

namespace DocStore.Engine

theorem Scalar.collides_comm (a b : Scalar) : a.collides b = b.collides a := by
  rw [collides, collides, compare_beq_eq_comm]
  cases a <;> cases b <;> rfl

theorem sameName_comm (a b : String) : sameName a b = sameName b a := by
  rw [sameName, sameName, Bool.beq_comm]

/-- Where no two names are the same, a name tells what has it. -/
theorem eq_of_sameName {α : Type} {name : α → String} {l : List α}
    (apart : l.Pairwise fun a b => sameName (name a) (name b) = false) {a b : α} (ha : a ∈ l)
    (hb : b ∈ l) (same : sameName (name a) (name b) = true) : a = b := by
  have symm : Std.Symm fun a b : α => sameName (name a) (name b) = false :=
    ⟨fun a b h => (sameName_comm ..).trans h⟩
  by_contra differ
  rw [apart.forall ha hb differ] at same
  cases same

namespace Table

variable {t t' : Table} {ix : StoredIndex} {row r r' : Row}

/-! ## Two rows -/

/-- Whether the keys of two rows do not collide in an index. -/
def Apart (t : Table) (ix : StoredIndex) (r r' : Row) : Prop :=
  ∀ k k', ix.keyOf t r = .ok k → ix.keyOf t r' = .ok k' → k.collides k' = false

theorem Apart.symm (h : t.Apart ix r r') : t.Apart ix r' r := fun k k' hk hk' => by
  rw [Scalar.collides_comm]
  exact h k' k hk' hk

theorem apart_of_collidesWith {k : Scalar} (hk : ix.keyOf t r = .ok k)
    (h : ix.collidesWith t k r' = false) : t.Apart ix r r' := by
  intro a a' ha ha'
  obtain rfl := Except.ok.inj (hk.symm.trans ha)
  rwa [StoredIndex.collidesWith, ha'] at h

/-! ## All rows -/

/-- Whether the keys of rows differ and no two rows collide in a unique index. -/
structure Separated (t : Table) : Prop where
  keys : t.rows.Pairwise fun r r' => r.key ≠ r'.key
  unique : ∀ ix ∈ t.indexes, ix.isUnique = true → t.rows.Pairwise (t.Apart ix)

theorem lt_nextKey (mem : r ∈ t.rows) : r.key < t.nextKey := by
  have bound (rows : List Row) (n : Nat) :
      n ≤ rows.foldl (fun n row => max n row.key) n ∧
        ∀ r ∈ rows, r.key ≤ rows.foldl (fun n row => max n row.key) n := by
    induction rows generalizing n with
    | nil => exact ⟨Nat.le_refl n, fun r mem => by cases mem⟩
    | cons row rows ih =>
      obtain ⟨start, others⟩ := ih (max n row.key)
      obtain ⟨low, first⟩ := max_le_iff.mp start
      exact ⟨low, List.forall_mem_cons.mpr ⟨first, others⟩⟩
  exact Nat.lt_succ_of_le ((bound t.rows 0).2 r mem)

theorem Separated.insert {onConflict : OnConflict} {document : Node} (ht : t.Separated)
    (h : t.insert onConflict document = .ok (some t')) : t'.Separated := by
  obtain ⟨kept, rfl, from_rows, keys⟩ := insert_some h
  have last {R : Row → Row → Prop} (all : t.rows.Pairwise R)
      (new : ∀ r ∈ kept, R r (t.newRow document)) :
      (kept ++ [t.newRow document]).Pairwise R := by
    refine List.pairwise_append.mpr
      ⟨all.sublist from_rows, List.pairwise_singleton .., fun r mem r' mem' => ?_⟩
    rw [List.mem_singleton.mp mem']
    exact new r mem
  refine ⟨last ht.keys fun r mem => (lt_nextKey (from_rows.subset mem)).ne, ?_⟩
  intro ix mem unique
  obtain ⟨k, key, clear⟩ := keys ix mem
  exact last (ht.unique ix mem unique) fun r inside =>
    (apart_of_collidesWith key (clear unique r inside)).symm

theorem Separated.updateRow (ht : t.Separated) (h : t.updateRow row = .ok t') :
    t'.Separated := by
  obtain ⟨rfl, checked⟩ := updateRow_ok h
  have key (r : Row) : (if r.key = row.key then row else r).key = r.key := by
    split
    · rename_i same
      exact same.symm
    · rfl
  constructor
  · rw [List.pairwise_map]
    exact ht.keys.imp fun {r r'} differ => by rwa [key, key]
  · intro ix mem unique
    obtain ⟨k, new, clear⟩ := checked ix mem
    have apart (r : Row) (inside : r ∈ t.rows) (other : r.key ≠ row.key) : t.Apart ix row r :=
      apart_of_collidesWith new (clear unique r inside other)
    rw [List.pairwise_map]
    -- Keys differ, so at most one of two rows is the new one.
    refine (ht.keys.and (ht.unique ix mem unique)).imp_of_mem ?_
    intro r r' inside inside' ⟨differ, before⟩
    change t.Apart ix _ _
    split
    · rename_i same
      rw [if_neg fun same' => differ (same.trans same'.symm)]
      exact apart r' inside' fun same' => differ (same.trans same'.symm)
    · rename_i other
      split
      · exact (apart r inside other).symm
      · exact before

theorem Separated.updateRows {revise : Row → Except EngineCause Row} {rows : List Row}
    (ht : t.Separated) (h : t.updateRows revise rows = .ok t') : t'.Separated := by
  induction rows generalizing t with
  | nil =>
    cases h
    exact ht
  | cons row rows ih =>
    obtain ⟨new, -, h⟩ := Outcome.bind_eq_ok.mp h
    obtain ⟨u, first, h⟩ := Outcome.bind_eq_ok.mp h
    exact ih (ht.updateRow first) h

theorem Separated.change (ht : t.Separated) (h : t.Change t') : t'.Separated := by
  cases h with
  | insert h => exact ht.insert h
  | update h => exact ht.updateRows h
  | delete keys =>
    exact ⟨ht.keys.sublist List.filter_sublist,
      fun ix mem unique => (ht.unique ix mem unique).sublist List.filter_sublist⟩

theorem pairwise_of_hasCollision {ks : List Scalar} (h : hasCollision ks = false) :
    ks.Pairwise fun k k' => k.collides k' = false := by
  induction ks with
  | nil => exact .nil
  | cons k ks ih =>
    obtain ⟨first, others⟩ := Bool.or_eq_false_iff.mp h
    refine List.pairwise_cons.mpr ⟨fun k' mem => ?_, ih others⟩
    exact Bool.eq_false_iff.mpr (List.any_eq_false.mp first k' mem)

theorem Separated.addIndex (ht : t.Separated) (h : t.addIndex ix = .ok t') : t'.Separated := by
  obtain ⟨rfl, ks, keys, clear⟩ := addIndex_ok h
  refine ⟨ht.keys, List.forall_mem_cons.mpr ⟨fun unique => ?_, ht.unique⟩⟩
  exact Outcome.pairwise_of_mapM_eq_ok keys (pairwise_of_hasCollision (clear unique))

/-- Whether the values of a field in two documents do not collide. -/
def ApartIn (f : FieldPath) (m n : Node) : Prop :=
  ∃ a b, fieldOf f m = .ok a ∧ fieldOf f n = .ok b ∧ a.collides b = false

/-- A unique index of documents keeps them apart in its field. -/
theorem Separated.apartIn (ht : t.Separated) (keyed : t.Keyed) (mem : ix ∈ t.indexes)
    (unique : ix.isUnique = true) (own : t.column? ix.column = some .document) :
    (t.rows.map Row.document).Pairwise (ApartIn ix.descriptor.field) := by
  have key (r : Row) : ix.keyOf t r = fieldOf ix.descriptor.field r.document :=
    evalScalar_field own 0 r _
  rw [List.pairwise_map]
  refine (ht.unique ix mem unique).imp_of_mem fun {r r'} inside inside' apart => ?_
  obtain ⟨a, ha⟩ := keyed r inside ix mem
  obtain ⟨b, hb⟩ := keyed r' inside' ix mem
  exact ⟨a, b, (key r).symm.trans ha, (key r').symm.trans hb, apart a b ha hb⟩

/-- Whether no two indexes have one name. -/
def NamesApart (t : Table) : Prop :=
  t.indexes.Pairwise fun ix other => sameName ix.name other.name = false

end Table

/-! ## All tables -/

namespace Storage.Reachable

variable {st : Storage}

theorem separated (h : st.Reachable) : ∀ t ∈ st.tables, t.Separated := by
  refine h.table_invariant (P := Table.Separated)
    (fun _ _ => ⟨.nil, fun ix mem => by cases mem⟩) (fun changed ht => ht.change changed)
    (fun added _ ht => ht.addIndex added) ?_
  intro t keep ht
  exact ⟨ht.keys, fun ix mem => ht.unique ix (List.mem_filter.mp mem).1⟩

theorem namesApart (h : st.Reachable) : ∀ t ∈ st.tables, t.NamesApart := by
  refine h.table_invariant (P := Table.NamesApart) (fun _ _ => .nil) ?_ ?_ ?_
  · intro t t' changed apart
    rwa [Table.NamesApart, changed.frame.2.2]
  · intro t t' ix added free apart
    obtain ⟨rfl, -⟩ := Table.addIndex_ok added
    refine List.pairwise_cons.mpr ⟨fun other mem => ?_, apart⟩
    exact (sameName_comm ..).trans (free other mem)
  · exact fun t keep apart => apart.sublist List.filter_sublist

theorem tables_apart (h : st.Reachable) :
    st.tables.Pairwise fun t u => sameName t.name u.name = false := by
  refine h.invariant
    (P := fun st => st.tables.Pairwise fun t u => sameName t.name u.name = false) .nil ?_
  intro s st st' step apart
  have mapped (f : Table → Table)
      (kept : ∀ t, Text.lower (f t).name.toList = Text.lower t.name.toList) :
      (st.tables.map f).Pairwise fun t u => sameName t.name u.name = false := by
    rw [List.pairwise_map]
    refine apart.imp fun {t u} differ => ?_
    rwa [sameName, kept, kept]
  have replaced (t' : Table) : (st.replaceTable t').tables.Pairwise
      fun t u => sameName t.name u.name = false := by
    refine mapped _ fun u => ?_
    split
    · rename_i same
      exact (sameName_iff.mp same).symm
    · rfl
  cases step with
  | same s => exact apart
  | createTable column absent =>
    refine List.pairwise_append.mpr ⟨apart, List.pairwise_singleton .., fun t mem u new => ?_⟩
    rw [List.mem_singleton.mp new]
    exact Bool.eq_false_iff.mpr (List.find?_eq_none.mp absent t mem)
  | change found changed => exact replaced _
  | addIndex found added free => exact replaced _
  | dropTable name => exact apart.sublist List.filter_sublist
  | dropIndex name => exact mapped _ fun t => rfl

end Storage.Reachable

end DocStore.Engine
