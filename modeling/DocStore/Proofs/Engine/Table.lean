import DocStore.Engine.Table
import DocStore.Proofs.Outcome

/-! # What the changes of a table keep

The rows of a table change by an insertion, new forms of rows or a deletion (`Table.Change`). No
change touches the names or the indexes of the table. Each of them computes all index keys of the
rows that it lets in, and lets in no row whose key collides in a unique index. -/
set_option autoImplicit false

namespace DocStore.Engine

/-! ## Index keys -/

/-- The value of a field of a document, as conditions and indexes see it. -/
def fieldOf (f : FieldPath) (document : Node) : Except EngineCause Scalar := do
  let part ← jsonExtract (.json document) (.scalar (.text f.jsonPath))
  pure part.toScalar

/-- Whether a stored document can be read by the JSON functions. -/
def Legible (n : Node) : Prop := n.nesting ≤ Datum.maxDocumentNesting

instance (n : Node) : Decidable (Legible n) := inferInstanceAs (Decidable (_ ≤ _))

theorem Legible.document?_stored {n : Node} (h : Legible n) :
    (Datum.stored n).document? = .ok (some n) :=
  if_pos h

theorem document?_stored_error {n : Node} (h : ¬Legible n) :
    (Datum.stored n).document? = .error .malformedJson :=
  if_neg h

theorem Table.cell_scope {t : Table} {name : String} (h : t.column? name = some .document)
    (view : Node → Datum) (clock : Int) (row : Row) :
    (t.scope view clock row).cell? name = some (view row.document) := by
  show Option.map (Table.cell view row) (t.column? name) = _
  rw [h]
  rfl

theorem evalScalar_field {t : Table} {name : String} (h : t.column? name = some .document)
    (clock : Int) (row : Row) (f : FieldPath) :
    (Sql.Expr.field name f).evalScalar (t.scope .json clock row) = fieldOf f row.document := by
  simp only [Sql.Expr.evalScalar, Sql.Expr.field, Sql.Expr.eval, Table.cell_scope h,
    Outcome.ok_bind]
  rfl

/-- A stored document gives the value of a field that it gave when it came in, unless it cannot be
read. -/
theorem evalScalar_field_stored (t : Table) (name : String) (f : FieldPath) (clock : Int)
    (row : Row) :
    (Sql.Expr.field name f).evalScalar (t.scope .stored clock row) =
        (Sql.Expr.field name f).evalScalar (t.scope .json clock row) ∨
      ¬Legible row.document ∧
        (Sql.Expr.field name f).evalScalar (t.scope .stored clock row) =
          .error .malformedJson := by
  simp only [Sql.Expr.evalScalar, Sql.Expr.field, Sql.Expr.eval, Table.scope]
  cases t.column? name with
  | none => exact .inl rfl
  | some c =>
    cases c with
    | key => exact .inl rfl
    | document =>
      simp only [Option.map_some, Table.cell, Outcome.ok_bind, jsonExtract]
      by_cases legible : Legible row.document
      · rw [legible.document?_stored]
        exact .inl rfl
      · rw [document?_stored_error legible]
        exact .inr ⟨legible, rfl⟩

namespace StoredIndex

variable {t : Table} {ix : StoredIndex} {row : Row}

theorem keyOf_of_readKey {k : Scalar} (h : ix.readKey t row = .ok k) : ix.keyOf t row = .ok k := by
  rcases evalScalar_field_stored t ix.column ix.descriptor.field 0 row with same | ⟨-, failed⟩
  · exact same.symm.trans h
  · cases failed.symm.trans h

end StoredIndex

/-- The key that an index gives a row depends on the table only by the name of its column. -/
theorem StoredIndex.keyOf_congr {t u : Table} (h : t.column = u.column) (ix : StoredIndex)
    (row : Row) : ix.keyOf t row = ix.keyOf u row := by
  simp only [keyOf, Table.scope, Table.column?, Table.ownColumn?, h]

namespace Table

variable {t t' : Table} {row : Row}

/-- Whether every index has a key for a row. -/
def KeysRow (t : Table) (row : Row) : Prop := ∀ ix ∈ t.indexes, ∃ k, ix.keyOf t row = .ok k

def Keyed (t : Table) : Prop := ∀ row ∈ t.rows, t.KeysRow row

theorem KeysRow.congr (h : t.KeysRow row) (hc : t.column = t'.column)
    (hi : ∀ ix ∈ t'.indexes, ix ∈ t.indexes) : t'.KeysRow row := fun ix mem => by
  rw [← StoredIndex.keyOf_congr hc]
  exact h ix (hi ix mem)

/-! ## Insertion -/

/-- The rows that make room for a new one are rows of before, and none of them collides with it in
a unique index. -/
theorem accept_some {onConflict : OnConflict} {indexes : List StoredIndex} {rows kept : List Row}
    (h : t.accept onConflict row indexes rows = .ok (some kept)) :
    kept.Sublist rows ∧
      ∀ ix ∈ indexes, ∃ k, ix.keyOf t row = .ok k ∧
        (ix.isUnique = true → ∀ r ∈ kept, ix.collidesWith t k r = false) := by
  induction indexes generalizing rows with
  | nil =>
    cases h
    exact ⟨List.Sublist.refl _, fun ix mem => by cases mem⟩
  | cons ix indexes ih =>
    obtain ⟨k, hk, h⟩ := Outcome.bind_eq_ok.mp h
    by_cases clash : (ix.isUnique && rows.any (ix.collidesWith t k)) = true
    · rw [if_pos clash] at h
      cases onConflict with
      | raise => cases h
      | ignore => cases h
      | replace =>
        obtain ⟨_, -, h⟩ := Outcome.bind_eq_ok.mp h
        obtain ⟨kept_rows, others⟩ := ih h
        refine ⟨kept_rows.trans List.filter_sublist,
          List.forall_mem_cons.mpr ⟨⟨k, hk, fun _ r mem => ?_⟩, others⟩⟩
        simpa using (List.mem_filter.mp (kept_rows.subset mem)).2
    · rw [if_neg clash] at h
      obtain ⟨kept_rows, others⟩ := ih h
      refine ⟨kept_rows, List.forall_mem_cons.mpr ⟨⟨k, hk, fun unique r mem => ?_⟩, others⟩⟩
      rw [unique, Bool.true_and, List.any_eq_true] at clash
      exact Bool.eq_false_iff.mpr fun found => clash ⟨r, kept_rows.subset mem, found⟩

/-- Only an insertion that ignores conflicts skips its row. -/
theorem accept_ne_none {onConflict : OnConflict} (hc : onConflict ≠ .ignore)
    (indexes : List StoredIndex) (rows : List Row) :
    t.accept onConflict row indexes rows ≠ .ok none := by
  induction indexes generalizing rows with
  | nil => exact fun h => by cases h
  | cons ix indexes ih =>
    intro h
    obtain ⟨k, -, h⟩ := Outcome.bind_eq_ok.mp h
    split at h
    · cases onConflict with
      | raise => cases h
      | ignore => exact hc rfl
      | replace =>
        obtain ⟨_, -, h⟩ := Outcome.bind_eq_ok.mp h
        exact ih _ h
    · exact ih _ h

def newRow (t : Table) (document : Node) : Row := { key := t.nextKey, document }

theorem insert_some {onConflict : OnConflict} {document : Node}
    (h : t.insert onConflict document = .ok (some t')) :
    ∃ kept, t' = { t with rows := kept ++ [t.newRow document] } ∧ kept.Sublist t.rows ∧
      ∀ ix ∈ t.indexes, ∃ k, ix.keyOf t (t.newRow document) = .ok k ∧
        (ix.isUnique = true → ∀ r ∈ kept, ix.collidesWith t k r = false) := by
  obtain ⟨rows, accepted, h⟩ := Outcome.bind_eq_ok.mp h
  cases rows with
  | none => cases h
  | some kept =>
    cases h
    exact ⟨kept, rfl, accept_some accepted⟩

theorem insert_ne_none {onConflict : OnConflict} (hc : onConflict ≠ .ignore) (document : Node) :
    t.insert onConflict document ≠ .ok none := by
  intro h
  obtain ⟨rows, accepted, h⟩ := Outcome.bind_eq_ok.mp h
  cases rows with
  | none => exact accept_ne_none hc _ _ accepted
  | some kept => cases h

/-- An insertion that neither skips nor replaces leaves all rows in place. -/
theorem accept_raise {indexes : List StoredIndex} {rows kept : List Row}
    (h : t.accept .raise row indexes rows = .ok (some kept)) : kept = rows := by
  induction indexes with
  | nil =>
    cases h
    rfl
  | cons ix indexes ih =>
    obtain ⟨k, -, h⟩ := Outcome.bind_eq_ok.mp h
    split at h
    · cases h
    · exact ih h

theorem insert_raise {document : Node} (h : t.insert .raise document = .ok (some t')) :
    t'.rows = t.rows ++ [t.newRow document] := by
  obtain ⟨rows, accepted, h⟩ := Outcome.bind_eq_ok.mp h
  cases rows with
  | none => cases h
  | some kept =>
    cases h
    rw [accept_raise accepted]
    rfl

/-! ## New forms of rows -/

theorem checkUnique_ok {indexes : List StoredIndex} (h : t.checkUnique row indexes = .ok ()) :
    ∀ ix ∈ indexes, ∃ k, ix.keyOf t row = .ok k ∧
      (ix.isUnique = true → ∀ r ∈ t.rows, r.key ≠ row.key → ix.collidesWith t k r = false) := by
  induction indexes with
  | nil => exact fun ix mem => by cases mem
  | cons ix indexes ih =>
    obtain ⟨k, hk, h⟩ := Outcome.bind_eq_ok.mp h
    split at h
    · cases h
    · rename_i clear
      refine List.forall_mem_cons.mpr ⟨⟨k, hk, fun unique r mem other => ?_⟩, ih h⟩
      rw [unique, Bool.true_and, List.any_eq_true] at clear
      refine Bool.eq_false_iff.mpr fun found => clear ⟨r, mem, ?_⟩
      rw [bne_iff_ne.mpr other, found, Bool.true_and]

theorem updateRow_ok (h : t.updateRow row = .ok t') :
    t' = { t with rows := t.rows.map fun r => if r.key = row.key then row else r } ∧
      ∀ ix ∈ t.indexes, ∃ k, ix.keyOf t row = .ok k ∧
        (ix.isUnique = true → ∀ r ∈ t.rows, r.key ≠ row.key → ix.collidesWith t k r = false) := by
  obtain ⟨_, checked, h⟩ := Outcome.bind_eq_ok.mp h
  cases h
  exact ⟨rfl, checkUnique_ok checked⟩

/-- What holds of the new forms of rows and of all rows before holds of all rows afterwards. -/
theorem forall_rows_updateRows {revise : Row → Except EngineCause Row} {rows : List Row}
    (h : t.updateRows revise rows = .ok t') {P : Row → Prop} (old : ∀ r ∈ t.rows, P r)
    (new : ∀ r ∈ rows, ∀ r', revise r = .ok r' → t.KeysRow r' → P r') :
    (∀ r ∈ t'.rows, P r) ∧ t'.name = t.name ∧ t'.column = t.column ∧ t'.indexes = t.indexes := by
  induction rows generalizing t with
  | nil =>
    cases h
    exact ⟨old, rfl, rfl, rfl⟩
  | cons row rows ih =>
    obtain ⟨row', revised, h⟩ := Outcome.bind_eq_ok.mp h
    obtain ⟨u, updated, h⟩ := Outcome.bind_eq_ok.mp h
    obtain ⟨rfl, checked⟩ := updateRow_ok updated
    have keyed : t.KeysRow row' := fun ix mem => (checked ix mem).imp fun k found => found.1
    obtain ⟨first, others⟩ := List.forall_mem_cons.mp new
    have changed : ∀ r ∈ t.rows.map fun r => if r.key = row'.key then row' else r, P r := by
      intro r mem
      obtain ⟨before, found, rfl⟩ := List.mem_map.mp mem
      split
      · exact first row' revised keyed
      · exact old before found
    have after := ih h changed fun r mem r' revised keys =>
      others r mem r' revised (keys.congr rfl fun ix mem => mem)
    exact after

/-! ## All changes -/

/-- What a statement may make of the rows of a table. -/
inductive Change (t : Table) : Table → Prop where
  | insert {onConflict : OnConflict} {document : Node} {t' : Table}
    (h : t.insert onConflict document = .ok (some t')) : Change t t'
  | update {revise : Row → Except EngineCause Row} {rows : List Row} {t' : Table}
    (h : t.updateRows revise rows = .ok t') : Change t t'
  | delete (keys : List Nat) : Change t (t.deleteRows keys)

theorem Change.frame (h : t.Change t') :
    t'.name = t.name ∧ t'.column = t.column ∧ t'.indexes = t.indexes := by
  cases h with
  | insert h =>
    obtain ⟨kept, rfl, -⟩ := insert_some h
    exact ⟨rfl, rfl, rfl⟩
  | update h =>
    exact (forall_rows_updateRows h (P := fun _ => True) (fun _ _ => trivial)
      fun _ _ _ _ _ => trivial).2
  | delete keys => exact ⟨rfl, rfl, rfl⟩

theorem Keyed.change (hk : t.Keyed) (h : t.Change t') : t'.Keyed := by
  cases h with
  | @insert _ document _ h =>
    obtain ⟨kept, rfl, from_rows, keys⟩ := insert_some h
    intro row mem
    rcases List.mem_append.mp mem with mem | mem
    · exact (hk row (from_rows.subset mem)).congr rfl fun ix mem => mem
    · rw [List.mem_singleton.mp mem]
      exact fun ix mem => (keys ix mem).imp fun k found => found.1
  | update h =>
    obtain ⟨keys, -, column, indexes⟩ := forall_rows_updateRows h hk fun _ _ _ _ keys => keys
    exact fun row mem => (keys row mem).congr column.symm fun ix mem => indexes ▸ mem
  | delete keys =>
    exact fun row mem => (hk row (List.mem_filter.mp mem).1).congr rfl fun ix mem => mem

/-! ## One more index -/

theorem addIndex_ok {ix : StoredIndex} (h : t.addIndex ix = .ok t') :
    t' = { t with indexes := ix :: t.indexes } ∧ ∃ ks, t.rows.mapM (ix.keyOf t) = .ok ks ∧
      (ix.isUnique = true → hasCollision ks = false) := by
  obtain ⟨ks, read, h⟩ := Outcome.bind_eq_ok.mp h
  have keys : t.rows.mapM (ix.keyOf t) = .ok ks :=
    Outcome.mapM_eq_ok_iff.mpr
      ((Outcome.mapM_eq_ok_iff.mp read).imp fun _ _ => StoredIndex.keyOf_of_readKey)
  split at h
  · cases h
  · rename_i clear
    cases h
    refine ⟨rfl, ks, keys, fun unique => ?_⟩
    rw [unique, Bool.true_and] at clear
    exact Bool.eq_false_iff.mpr clear

theorem Keyed.addIndex {ix : StoredIndex} (hk : t.Keyed) (h : t.addIndex ix = .ok t') :
    t'.Keyed := by
  obtain ⟨rfl, ks, keys, -⟩ := addIndex_ok h
  exact fun row mem => List.forall_mem_cons.mpr ⟨Outcome.exists_of_mapM_eq_ok keys mem, hk row mem⟩

end Table
end DocStore.Engine
