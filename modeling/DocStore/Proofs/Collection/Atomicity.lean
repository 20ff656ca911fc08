import DocStore.Proofs.Collection.Calls
import DocStore.Proofs.Collection.Fetching
import DocStore.Proofs.Engine.Uniqueness

/-! # Calls that fail change nothing

A call that changes documents sends one statement or one batch that changes the storage, and an
insertion that has stored its document never fails on reading it back. So a call that answers with an
error leaves the storage as it was (`Collection.unchanged_of_error`). A batch with a value that makes
no document fails, and so does one that may ignore and replace nothing and has a document that
collides. -/
set_option autoImplicit false

namespace DocStore

open Engine (Storage Table Row StoredIndex Scalar)

namespace Collection

variable {c : Collection} {st st' : Storage} {clock : Int} {transforms : Transforms}
  {freshId : String} {v : Value} {onConflict : OnConflict} {d : Document} {e : Error}

/-! ## Single statements -/

/-- A call that sends one statement and answers from its output fails only where that does. -/
theorem send_error {α : Type} {s : Statement} {params : List Json} {answer : QueryOutput → α}
    (h : (Program.send s params >>= fun out => pure (answer out)).run (Engine.executor clock) st =
      (.error e, st')) : st' = st := by
  rcases Program.of_run_bind_error h with failed | ⟨out, between, -, done⟩
  · exact Engine.execute_error ((Program.run_send ..).symm.trans failed)
  · cases (Prod.mk.inj done).1

/-! ## Insertions -/

theorem run_insert_failed {cause : EngineCause}
    (made : Document.ofValue transforms freshId v = .ok d)
    (failed : Engine.perform clock (.insert c.name c.column.name onConflict true)
      [.string d.text] st = .error cause) :
    (c.insert transforms freshId v onConflict).run (Engine.executor clock) st =
      (.error (.engine cause), st) := by
  have sent : (Program.send (.insert c.name c.column.name onConflict true) [.string d.text]).run
      (Engine.executor clock) st = (.error (.engine cause), st) := by
    refine (Program.run_send ..).trans ?_
    change Engine.execute _ _ _ _ = _
    rw [Engine.execute, failed]
  rw [insert, made, Program.run_bind, Program.run_ofExcept]
  dsimp only
  rw [Program.run_bind, sent]

/-- An insertion whose statement is carried out stores the document and answers it, or stores nothing;
looking for the document that has the id changes nothing. -/
theorem run_insert_performed {o : Engine.Outcome}
    (made : Document.ofValue transforms freshId v = .ok d)
    (performed : Engine.perform clock (.insert c.name c.column.name onConflict true)
      [.string d.text] st = .ok o) :
    (o = .silent st ∧
      ((c.insert transforms freshId v onConflict).run (Engine.executor clock) st).2 = st ∧
      onConflict = .ignore) ∨
    ∃ t t', st.table? c.name = some t ∧
      t.insert onConflict (.ofJson (.object d)) = .ok (some t') ∧ o.output.affected = 1 ∧
      o.storage = st.replaceTable t' ∧
      (c.insert transforms freshId v onConflict).run (Engine.executor clock) st =
        (.ok d, st.replaceTable t') := by
  have sent : (Program.send (.insert c.name c.column.name onConflict true) [.string d.text]).run
      (Engine.executor clock) st = (.ok o.output, o.storage) := Engine.run_send_performed performed
  have fits := (Document.ofValue_ok made).1
  rw [insert, made, Program.run_bind, Program.run_ofExcept]
  dsimp only
  rw [Program.run_bind, sent]
  obtain ⟨t, found, -, ⟨skipped, rfl⟩ | ⟨t', inserted, rfl⟩⟩ := perform_insert_ok fits performed
  · refine .inl ⟨rfl, Engine.run_reads ?_, ?_⟩
    · exact .bind (sends_get (fun _ _ _ => trivial) _ _) fun _ => .done _
    · by_contra other
      exact Table.insert_ne_none other _ skipped
  · refine .inr ⟨t, t', found, inserted, rfl, rfl, ?_⟩
    -- The row that comes back has the text of a document that fits what reading accepts.
    change (Program.ofExcept (Document.ofCell (some (.string d.text)))).run _ _ = _
    rw [Document.ofCell_text fits (by decide), Program.run_ofExcept]

theorem insert_error
    (h : (c.insert transforms freshId v onConflict).run (Engine.executor clock) st =
      (.error e, st')) : st' = st := by
  cases made : Document.ofValue transforms freshId v with
  | error cause =>
    rw [insert, made] at h
    exact (Prod.mk.inj h).2.symm
  | ok d =>
    cases sent : Engine.perform clock (.insert c.name c.column.name onConflict true)
        [.string d.text] st with
    | error cause =>
      rw [run_insert_failed made sent] at h
      exact (Prod.mk.inj h).2.symm
    | ok o =>
      obtain ⟨-, left, -⟩ | ⟨t, t', -, -, -, -, answered⟩ := run_insert_performed made sent
      · rwa [h] at left
      · rw [answered] at h
        cases (Prod.mk.inj h).1

theorem run_insertMany {values : List (String × Value)} {ds : List Document}
    (made : documentsOf transforms values = .ok ds) :
    (c.insertMany transforms values onConflict).run (Engine.executor clock) st =
      Engine.executeMany clock (.insert c.name c.column.name onConflict false)
        (ds.map fun d => [.string d.text]) st := by
  rw [insertMany, made, Program.run_bind, Program.run_ofExcept]
  dsimp only
  cases ds with
  | nil => rfl
  | cons d ds =>
    rw [List.isEmpty_cons, if_neg Bool.false_ne_true, Program.sendMany, Program.run]
    split
    · rename_i sent
      exact sent.symm
    · rename_i sent
      exact sent.symm

theorem insertMany_error {values : List (String × Value)}
    (h : (c.insertMany transforms values onConflict).run (Engine.executor clock) st =
      (.error e, st')) : st' = st := by
  cases made : documentsOf transforms values with
  | error cause =>
    rw [insertMany, made] at h
    exact (Prod.mk.inj h).2.symm
  | ok ds =>
    rw [run_insertMany made] at h
    exact Engine.executeMany_error h

/-! ## Batches with a collision -/

/-- The documents of rows as they are stored. -/
def storedDocuments (ds : List Document) : List Node := ds.map fun d => .ofJson (.object d)

/-- A batch that neither ignores nor replaces stores all its documents if it is carried out. -/
theorem documents_of_executeEach {ds : List Document} {t : Table} {n : Nat}
    (fits : ∀ d ∈ ds, Json.Fits (maxNesting + 1) (.object d)) (found : st.table? c.name = some t)
    (h : executeEach (Engine.execute clock (.insert c.name c.column.name .raise false))
      (ds.map fun d => [.string d.text]) st = (.ok n, st')) :
    ∃ t', st'.table? c.name = some t' ∧ t'.column = t.column ∧ t'.indexes = t.indexes ∧
      t'.rows.map Row.document = t.rows.map Row.document ++ storedDocuments ds := by
  induction ds generalizing st t n with
  | nil =>
    cases h
    exact ⟨t, found, rfl, rfl, (List.append_nil _).symm⟩
  | cons d ds ih =>
    obtain ⟨first, others⟩ := List.forall_mem_cons.mp fits
    obtain ⟨out, between, m, sent, rest, -⟩ := Program.executeEach_cons_ok h
    obtain ⟨o, performed, -, rfl⟩ := Engine.execute_ok sent
    obtain ⟨t₀, found₀, -, ⟨skipped, -⟩ | ⟨u, inserted, rfl⟩⟩ := perform_insert_ok first performed
    · exact absurd skipped (Table.insert_ne_none (by decide) _)
    · obtain rfl : t = t₀ := Option.some.inj (found.symm.trans found₀)
      obtain ⟨name, column, indexes⟩ := (Table.Change.insert inserted).frame
      obtain ⟨t', found', column', indexes', documents⟩ :=
        ih others (Storage.table?_replaceTable_self found name) rest
      refine ⟨t', found', column'.trans column, indexes'.trans indexes, documents.trans ?_⟩
      rw [Table.insert_raise inserted, List.map_append, List.append_assoc]
      rfl

/-- Whether two of some documents collide in a unique index of a table. -/
def Collide (t : Table) (documents : List Node) : Prop :=
  ∃ ix ∈ t.indexes, ix.isUnique = true ∧ t.column? ix.column = some .document ∧
    ¬documents.Pairwise (Table.ApartIn ix.descriptor.field)

/-- A batch that neither ignores nor replaces fails if two of its documents and of those that are
there collide. -/
theorem insertMany_colliding {values : List (String × Value)} {ds : List Document} {t : Table}
    (reachable : st.Reachable) (made : documentsOf transforms values = .ok ds)
    (found : st.table? c.name = some t)
    (collide : Collide t (t.rows.map Row.document ++ storedDocuments ds)) :
    ∃ e, (c.insertMany transforms values .raise).run (Engine.executor clock) st =
      (.error e, st) := by
  have reached := reachable.run (c.insertMany transforms values .raise) clock
  cases run : (c.insertMany transforms values .raise).run (Engine.executor clock) st with
  | mk answer st' =>
    cases answer with
    | error e => exact ⟨e, by rw [insertMany_error run]⟩
    | ok n =>
      -- All documents would be in a table that keeps them apart.
      rw [run] at reached
      rw [run_insertMany made] at run
      have fits : ∀ d ∈ ds, Json.Fits (maxNesting + 1) (.object d) := by
        intro d mem
        obtain ⟨freshId, v, made⟩ := exists_value_of_documentsOf made d mem
        exact (Document.ofValue_ok made).1
      obtain ⟨t', found', column, indexes, documents⟩ :=
        documents_of_executeEach fits found (Engine.executeMany_ok run)
      obtain ⟨ix, mem, unique, own, together⟩ := collide
      have mem' := Storage.mem_of_table? found'
      have same : t'.column? = t.column? := by
        funext name
        rw [Table.column?, Table.column?, Table.ownColumn?, Table.ownColumn?, column]
      have apart := (reached.separated t' mem').apartIn (reached.keyed t' mem')
        (indexes ▸ mem) unique (same ▸ own)
      rw [documents] at apart
      exact absurd apart together

/-! ## All calls -/

/-- A call on documents, and the creation of an index, that answers with an error leaves the storage
as it was. Among them are a batch with a value that makes no document, and a batch that neither
ignores nor replaces and has a collision. -/
theorem unchanged_of_error (reachable : st.Reachable) (c : Collection) (clock : Int) :
    (∀ (edit : DocumentEdit) (e : Error) (st' : Storage),
      (edit.program c).run (Engine.executor clock) st = (.error e, st') → st' = st) ∧
    (∀ (index : IndexDescriptor) (e : Error) (st' : Storage),
      (c.createIndex index).run (Engine.executor clock) st = (.error e, st') → st' = st) ∧
    (∀ (transforms : Transforms) (onConflict : OnConflict) (values : List (String × Value)),
      (∃ v ∈ values, ∃ e, Document.ofValue transforms v.1 v.2 = .error e) →
        ∃ e, (c.insertMany transforms values onConflict).run (Engine.executor clock) st =
          (.error e, st)) ∧
    ∀ (transforms : Transforms) (values : List (String × Value)) (ds : List Document) (t : Table),
      documentsOf transforms values = .ok ds → st.table? c.name = some t →
      Collide t (t.rows.map Row.document ++ storedDocuments ds) →
        ∃ e, (c.insertMany transforms values .raise).run (Engine.executor clock) st =
          (.error e, st) := by
  refine ⟨fun edit e st' h => ?_, fun index e st' h => send_error h, ?_, ?_⟩
  · cases edit with
    | insert transforms freshId v onConflict => exact insert_error h
    | insertMany transforms values onConflict => exact insertMany_error h
    | update filter u | updateOne filter u | delete filter | deleteOne filter =>
      exact send_error h
  · rintro transforms onConflict values ⟨v, mem, e, failed⟩
    cases made : documentsOf transforms values with
    | error e => exact ⟨e, by rw [insertMany, made]; rfl⟩
    | ok ds =>
      obtain ⟨d, made⟩ := Outcome.exists_of_mapM_eq_ok made mem
      cases failed.symm.trans made
  · exact fun transforms values ds t made found collide =>
      insertMany_colliding reachable made found collide

theorem unchanged_of_error_users :
    ∃ e, (users.insertMany noTransforms [("1", .ofJson (.object (user (.string "b") "Bob"))),
        ("2", .ofJson (.object (user (.string "a") "Cid")))] .raise).run (Engine.executor 1)
        (usersStorage [usersIndex] [user (.string "a") "Ann"]) =
      (.error e, usersStorage [usersIndex] [user (.string "a") "Ann"]) := by
  have scalar (s : String) : Json.Fits 1 (.string s) := trivial
  have reachable := reachable_insert_users (ofValue_user (scalar "a") "Ann" "0")
    (insert_first_user "Ann") reachable_users
  have made : documentsOf noTransforms [("1", .ofJson (.object (user (.string "b") "Bob"))),
      ("2", .ofJson (.object (user (.string "a") "Cid")))] =
        .ok [user (.string "b") "Bob", user (.string "a") "Cid"] :=
    Outcome.mapM_cons_eq_ok.mpr ⟨_, _, ofValue_user (scalar "b") "Bob" "1",
      Outcome.mapM_cons_eq_ok.mpr ⟨_, _, ofValue_user (scalar "a") "Cid" "2", rfl, rfl⟩, rfl⟩
  refine (unchanged_of_error reachable.reachable users 1).2.2.2 _ _ _ _ made (table?_users ..) ?_
  refine ⟨usersIndex, List.mem_singleton.mpr rfl, rfl, column?_users .., fun apart => ?_⟩
  -- The stored document and the last one of the batch have one id.
  obtain ⟨together, -⟩ := List.pairwise_cons.mp apart
  obtain ⟨a, b, ha, hb, differ⟩ := together (.ofJson (.object (user (.string "a") "Cid")))
    (List.mem_cons_of_mem _ (List.mem_singleton.mpr rfl))
  cases ha.symm.trans (Engine.fieldOf_id rfl)
  cases hb.symm.trans (Engine.fieldOf_id rfl)
  exact absurd differ (by decide)

end Collection
end DocStore
