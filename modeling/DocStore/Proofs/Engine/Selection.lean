import DocStore.Proofs.Engine.Uniqueness
import Mathlib.Data.List.Nodup

/-! # The first of the selected rows

The keys of a table's rows grow from one row to the next in every reachable storage
(`Table.Ordered`): new rows get a key beyond all others, and no change of a row touches its key. As
long as keys fit the integers of the engine and no column is called `rowid`, that name is the key, so
the first row that a filter selects is found by going through the rows, and no other row shares its
`rowid`. -/
set_option autoImplicit false

namespace DocStore

namespace Engine

/-! ## Numbers in order -/

namespace Scalar

end Scalar

namespace Table

/-! ## Rows in order -/

variable {t t' : Table} {row : Row}

/-- Whether the keys of the rows grow, and begin above zero. -/
structure Ordered (t : Table) : Prop where
  grow : (t.rows.map Row.key).Pairwise (· < ·)
  positive : ∀ row ∈ t.rows, 0 < row.key

theorem keys_updateRow (h : t.updateRow row = .ok t') :
    t'.rows.map Row.key = t.rows.map Row.key := by
  obtain ⟨rfl, -⟩ := updateRow_ok h
  rw [List.map_map]
  refine List.map_congr_left fun r _ => ?_
  rw [Function.comp_apply]
  split
  · rename_i same
    exact same.symm
  · rfl

theorem keys_updateRows {revise : Row → Except EngineCause Row} {rows : List Row}
    (h : t.updateRows revise rows = .ok t') : t'.rows.map Row.key = t.rows.map Row.key := by
  induction rows generalizing t with
  | nil =>
    cases h
    rfl
  | cons row rows ih =>
    obtain ⟨new, -, h⟩ := Outcome.bind_eq_ok.mp h
    obtain ⟨u, first, h⟩ := Outcome.bind_eq_ok.mp h
    exact (ih h).trans (keys_updateRow first)

theorem Ordered.of_keys (ht : t.Ordered) (same : t'.rows.map Row.key = t.rows.map Row.key) :
    t'.Ordered := by
  refine ⟨same ▸ ht.grow, fun row mem => ?_⟩
  have key : row.key ∈ t.rows.map Row.key := same ▸ List.mem_map_of_mem mem
  obtain ⟨r, inside, same⟩ := List.mem_map.mp key
  exact same ▸ ht.positive r inside

theorem Ordered.nodup (ht : t.Ordered) : (t.rows.map Row.key).Nodup :=
  ht.grow.imp Nat.ne_of_lt

theorem Ordered.of_sublist (ht : t.Ordered) (sub : t'.rows.Sublist t.rows) : t'.Ordered :=
  ⟨ht.grow.sublist (sub.map _), fun row mem => ht.positive row (sub.subset mem)⟩

theorem Ordered.change (ht : t.Ordered) (h : t.Change t') : t'.Ordered := by
  cases h with
  | @insert _ document _ h =>
    obtain ⟨kept, rfl, from_rows, -⟩ := insert_some h
    have before : ({ t with rows := kept } : Table).Ordered := ht.of_sublist from_rows
    constructor
    · rw [List.map_append]
      refine List.pairwise_append.mpr
        ⟨before.grow, List.pairwise_singleton .., fun k mem k' new => ?_⟩
      obtain ⟨r, inside, rfl⟩ := List.mem_map.mp mem
      rw [List.mem_singleton.mp new]
      exact lt_nextKey (from_rows.subset inside)
    · intro row mem
      rcases List.mem_append.mp mem with mem | mem
      · exact before.positive row mem
      · rw [List.mem_singleton.mp mem]
        exact Nat.succ_pos _
  | update h => exact ht.of_keys (keys_updateRows h)
  | delete keys => exact ht.of_sublist List.filter_sublist

end Table

theorem Storage.Reachable.ordered {st : Storage} (h : st.Reachable) :
    ∀ t ∈ st.tables, t.Ordered := by
  refine h.table_invariant (P := Table.Ordered) (fun _ _ => ⟨.nil, fun row mem => by cases mem⟩)
    (fun changed ht => ht.change changed) ?_ (fun t keep ht => ⟨ht.grow, ht.positive⟩)
  intro t t' ix added _ ht
  obtain ⟨rfl, -⟩ := Table.addIndex_ok added
  exact ⟨ht.grow, ht.positive⟩

namespace Table

variable {t : Table} {row : Row} {rows : List Row}

theorem column?_rowid (h : sameName "rowid" t.column = false) : t.column? "rowid" = some .key := by
  have own : t.ownColumn? "rowid" = none := by
    have other : ¬sameName "rowid" keyColumn = true := by decide
    rw [ownColumn?, h, if_neg Bool.false_ne_true, if_neg other]
  rw [column?, own]
  rfl

/-- What it takes for the least `rowid` to be the least key. -/
structure Plain (t : Table) : Prop where
  ordered : t.Ordered
  unhidden : sameName "rowid" t.column = false
  short : ∀ row ∈ t.rows, row.key < 2 ^ 63

theorem Plain.of_sublist {t' : Table} (ht : t.Plain) (sub : t'.rows.Sublist t.rows)
    (column : t'.column = t.column) : t'.Plain :=
  ⟨ht.ordered.of_sublist sub, column ▸ ht.unhidden, fun row mem => ht.short row (sub.subset mem)⟩

end Table

/-! ## Replacing tables -/

namespace Storage

variable {st : Storage} {t : Table} {name : String}

end Storage

end Engine
end DocStore
