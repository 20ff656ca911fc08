import DocStore.Proofs.Collection.Atomicity

/-! # A batch inserts as single insertions do

A batch leaves what single insertions of its values leave, one after another, and answers the number
of rows that these write, as long as no single one fails at its own statement. If one does, the batch
fails and stores nothing (`Collection.insertMany_eq_insertions`). -/
set_option autoImplicit false

namespace DocStore

open Engine (Storage Table Row)

/-! ## Statements with and without an answer -/

/-- An insertion is carried out at any time, and whether it is asked for the document or not, if it
is once. -/
theorem Engine.perform_insert_returning {clock : Int} {st : Storage} {table column : String}
    {onConflict : OnConflict} {returning : Bool} {params : List Json} {o : Outcome}
    (h : perform clock (.insert table column onConflict returning) params st = .ok o)
    (clock' : Int) (asked : Bool) :
    ∃ o', perform clock' (.insert table column onConflict asked) params st = .ok o' ∧
      o'.output.affected = o.output.affected ∧ o'.storage = o.storage := by
  obtain ⟨o', done, same⟩ := insertDocument_returning (perform_insert h) asked
  obtain ⟨table_clean, column_clean⟩ := Statement.clean_names_of_insert (clean_of_perform h)
  exact ⟨o', perform_insert_of_clean (Statement.clean_insert table_clean column_clean) done, same⟩

namespace Collection

variable {c : Collection} {st : Storage} {clock clock' : Int} {transforms : Transforms}
  {freshId : String} {v : Value} {onConflict : OnConflict} {d : Document}

/-! ## Rows that are written -/

def rowKeys (c : Collection) (st : Storage) : List Nat :=
  ((st.table? c.name).map fun t => t.rows.map Row.key).getD []

/-- Whether a collection has a row that it had not before. -/
def hasNewRow (c : Collection) (before after : Storage) : Bool :=
  (c.rowKeys after).any fun k => !(c.rowKeys before).contains k

theorem hasNewRow_self (c : Collection) (st : Storage) : c.hasNewRow st st = false := by
  refine List.any_eq_false.mpr fun k mem => ?_
  simp [mem]

theorem hasNewRow_insert {t t' : Table} {document : Node} (found : st.table? c.name = some t)
    (inserted : t.insert onConflict document = .ok (some t')) :
    c.hasNewRow st (st.replaceTable t') = true := by
  have name := (Table.Change.insert inserted).frame.1
  obtain ⟨kept, rfl, -⟩ := Table.insert_some inserted
  have before : c.rowKeys st = t.rows.map Row.key := by rw [rowKeys, found]; rfl
  have after : c.rowKeys (st.replaceTable { t with rows := kept ++ [t.newRow document] }) =
      (kept ++ [t.newRow document]).map Row.key := by
    rw [rowKeys, Storage.table?_replaceTable_self found name]
    rfl
  rw [hasNewRow, before, after, List.any_eq_true]
  refine ⟨t.nextKey, List.mem_map.mpr ⟨t.newRow document, by simp, rfl⟩, ?_⟩
  have new : t.nextKey ∉ t.rows.map Row.key := by
    intro mem
    obtain ⟨r, inside, same⟩ := List.mem_map.mp mem
    exact absurd same (Table.lt_nextKey inside).ne
  simpa using new

/-! ## Insertions in turn -/

def insertions (transforms : Transforms) (onConflict : OnConflict)
    (values : List (Int × String × Value)) : List (Int × DocumentEdit) :=
  values.map fun (clock, freshId, v) => (clock, .insert transforms freshId v onConflict)

/-- The number of calls, one after another, that write a row. -/
def rowsWritten (c : Collection) : List (Int × DocumentEdit) → Storage → Nat
  | [], _ => 0
  | (clock, e) :: edits, st =>
    let after := ((e.program c).run (Engine.executor clock) st).2
    (if c.hasNewRow st after then 1 else 0) + c.rowsWritten edits after

/-- Whether each call, in the storage that it finds, is as it should be. -/
def EachTurn (c : Collection) (P : Int → DocumentEdit → Storage → Prop) :
    List (Int × DocumentEdit) → Storage → Prop
  | [], _ => True
  | (clock, e) :: edits, st =>
    P clock e st ∧ c.EachTurn P edits ((e.program c).run (Engine.executor clock) st).2

def Answers (c : Collection) (clock : Int) (e : DocumentEdit) (st : Storage) : Prop :=
  ((e.program c).run (Engine.executor clock) st).1.isOk = true

instance (c : Collection) (clock : Int) (e : DocumentEdit) (st : Storage) :
    Decidable (c.Answers clock e st) :=
  inferInstanceAs (Decidable (_ = true))

/-- Whether a call inserts a value and its statement is carried out, even if it then fails to look up
the document that has the id. -/
def Carried (c : Collection) (clock : Int) (e : DocumentEdit) (st : Storage) : Prop :=
  ∃ transforms freshId v onConflict d o, e = .insert transforms freshId v onConflict ∧
    Document.ofValue transforms freshId v = .ok d ∧
    Engine.perform clock (.insert c.name c.column.name onConflict true) [.string d.text] st = .ok o

theorem carried_iff (made : Document.ofValue transforms freshId v = .ok d) :
    c.Carried clock (.insert transforms freshId v onConflict) st ↔
      ∃ o, Engine.perform clock (.insert c.name c.column.name onConflict true)
        [.string d.text] st = .ok o := by
  constructor
  · rintro ⟨_, _, _, _, d', o, same, made', performed⟩
    cases same
    cases made.symm.trans made'
    exact ⟨o, performed⟩
  · rintro ⟨o, performed⟩
    exact ⟨_, _, _, _, d, o, rfl, made, performed⟩

theorem carried_iff_answers (hc : onConflict ≠ .ignore)
    (made : Document.ofValue transforms freshId v = .ok d) :
    c.Carried clock (.insert transforms freshId v onConflict) st ↔
      c.Answers clock (.insert transforms freshId v onConflict) st := by
  rw [carried_iff made, Answers]
  change _ ↔ ((c.insert transforms freshId v onConflict).run _ _).1.isOk = true
  cases sent : Engine.perform clock (.insert c.name c.column.name onConflict true)
      [.string d.text] st with
  | error cause =>
    rw [run_insert_failed made sent]
    exact iff_of_false (fun ⟨o, h⟩ => by cases h) Bool.false_ne_true
  | ok o =>
    obtain ⟨-, -, ignored⟩ | ⟨t, t', -, -, -, -, answered⟩ := run_insert_performed made sent
    · exact absurd ignored hc
    · rw [answered]
      exact iff_of_true ⟨o, rfl⟩ rfl

/-- The statement of a batch does what a single insertion does, at any time, and counts the row that
this writes; it fails where the statement of the single insertion fails. -/
theorem execute_turn (clock clock' : Int) (st : Storage) (onConflict : OnConflict)
    (made : Document.ofValue transforms freshId v = .ok d) :
    (c.Carried clock' (.insert transforms freshId v onConflict) st ∧ ∃ out,
      Engine.execute clock (.insert c.name c.column.name onConflict false) [.string d.text] st =
        (.ok out, ((c.insert transforms freshId v onConflict).run (Engine.executor clock') st).2) ∧
      out.affected = if c.hasNewRow st
        ((c.insert transforms freshId v onConflict).run (Engine.executor clock') st).2 then 1 else 0) ∨
    (¬c.Carried clock' (.insert transforms freshId v onConflict) st ∧ ∃ e,
      Engine.execute clock (.insert c.name c.column.name onConflict false) [.string d.text] st =
        (.error e, st)) := by
  rw [carried_iff made]
  cases sent : Engine.perform clock' (.insert c.name c.column.name onConflict true)
      [.string d.text] st with
  | error cause =>
    refine .inr ⟨fun ⟨o, h⟩ => (by cases h), ?_⟩
    cases batch : Engine.perform clock (.insert c.name c.column.name onConflict false)
        [.string d.text] st with
    | error cause => exact ⟨_, by rw [Engine.execute, batch]⟩
    | ok o =>
      -- What the batch could carry out, the single insertion could as well.
      obtain ⟨o', performed, -⟩ := Engine.perform_insert_returning batch clock' true
      cases sent.symm.trans performed
  | ok o =>
    obtain ⟨o', performed, affected, storage⟩ :=
      Engine.perform_insert_returning sent clock false
    refine .inl ⟨⟨o, rfl⟩, o'.output, ?_⟩
    have executed : Engine.execute clock (.insert c.name c.column.name onConflict false)
        [.string d.text] st = (.ok o'.output, o.storage) := by
      rw [Engine.execute, performed, ← storage]
    rw [executed, affected]
    obtain ⟨rfl, left, -⟩ | ⟨t, t', found, inserted, one, new, answered⟩ :=
      run_insert_performed made sent
    · rw [left, hasNewRow_self]
      exact ⟨rfl, rfl⟩
    · rw [answered, hasNewRow_insert found inserted, one, new]
      exact ⟨rfl, rfl⟩

/-- The statements of a batch do what single insertions in turn do, as far as these are carried
out. -/
theorem executeEach_insertions {values : List (Int × String × Value)} {ds : List Document}
    (made : documentsOf transforms (values.map Prod.snd) = .ok ds) (onConflict : OnConflict)
    (clock : Int) (st : Storage) :
    (c.EachTurn c.Carried (insertions transforms onConflict values) st →
      executeEach (Engine.execute clock (.insert c.name c.column.name onConflict false))
          (ds.map fun d => [.string d.text]) st =
        (.ok (c.rowsWritten (insertions transforms onConflict values) st),
          c.after (insertions transforms onConflict values) st)) ∧
    (¬c.EachTurn c.Carried (insertions transforms onConflict values) st →
      ∃ e st', executeEach (Engine.execute clock (.insert c.name c.column.name onConflict false))
        (ds.map fun d => [.string d.text]) st = (.error e, st')) := by
  -- For every storage, since the rest of the batch goes on from what the first value leaves.
  induction values generalizing ds st with
  | nil =>
    cases made
    exact ⟨fun _ => rfl, fun failed => absurd trivial failed⟩
  | cons value values ih =>
    obtain ⟨clock', freshId, v⟩ := value
    obtain ⟨d, ds, first, others, rfl⟩ := Outcome.mapM_cons_eq_ok.mp made
    rw [List.map_cons, executeEach]
    obtain ⟨carried, out, executed, affected⟩ | ⟨failed, e, executed⟩ :=
      execute_turn (c := c) clock clock' st onConflict first
    · obtain ⟨all, some_failed⟩ :=
        ih others ((c.insert transforms freshId v onConflict).run (Engine.executor clock') st).2
      rw [executed]
      dsimp only
      constructor
      · rintro ⟨-, rest⟩
        rw [all rest, affected]
        rfl
      · intro failed
        obtain ⟨e, st', rest⟩ := some_failed fun rest => failed ⟨carried, rest⟩
        rw [rest]
        exact ⟨e, st', rfl⟩
    · rw [executed]
      exact ⟨fun turns => absurd turns.1 failed, fun _ => ⟨e, st, rfl⟩⟩

theorem eachTurn_congr {P Q : Int → DocumentEdit → Storage → Prop} {edits : List (Int × DocumentEdit)}
    (h : ∀ edit ∈ edits, ∀ st, P edit.1 edit.2 st ↔ Q edit.1 edit.2 st) (st : Storage) :
    c.EachTurn P edits st ↔ c.EachTurn Q edits st := by
  induction edits generalizing st with
  | nil => exact Iff.rfl
  | cons edit edits ih =>
    obtain ⟨first, others⟩ := List.forall_mem_cons.mp h
    exact and_congr (first st) (ih others _)

/-- If the statements of single insertions, one after another, are all carried out, then the batch
answers the number of rows that they write and leaves what they leave; else it fails and stores
nothing. Unless conflicts are ignored, a statement is carried out exactly if its insertion answers. The
first value that makes no document decides the error, and then nothing is sent. -/
theorem insertMany_eq_insertions (c : Collection) (transforms : Transforms) (onConflict : OnConflict)
    (values : List (Int × String × Value)) (clock : Int) (st : Storage) :
    (∀ ds, documentsOf transforms (values.map Prod.snd) = .ok ds →
      (c.EachTurn c.Carried (insertions transforms onConflict values) st →
        (c.insertMany transforms (values.map Prod.snd) onConflict).run (Engine.executor clock) st =
          (.ok (c.rowsWritten (insertions transforms onConflict values) st),
            c.after (insertions transforms onConflict values) st)) ∧
      (¬c.EachTurn c.Carried (insertions transforms onConflict values) st →
        ∃ e, (c.insertMany transforms (values.map Prod.snd) onConflict).run
          (Engine.executor clock) st = (.error e, st)) ∧
      (onConflict ≠ .ignore →
        (c.EachTurn c.Carried (insertions transforms onConflict values) st ↔
          c.EachTurn c.Answers (insertions transforms onConflict values) st))) ∧
    ∀ (before rest : List (String × Value)) (freshId : String) (v : Value) (e : Error),
      values.map Prod.snd = before ++ (freshId, v) :: rest →
      (∀ w ∈ before, ∃ d, Document.ofValue transforms w.1 w.2 = .ok d) →
      Document.ofValue transforms freshId v = .error e →
        c.insertMany transforms (values.map Prod.snd) onConflict = .fail e := by
  refine ⟨fun ds made => ?_, fun before rest freshId v e split made failed => ?_⟩
  · obtain ⟨all, some_failed⟩ :=
      executeEach_insertions (c := c) made onConflict clock st
    rw [run_insertMany made, Engine.executeMany]
    refine ⟨fun carried => ?_, fun failed => ?_, fun hc => ?_⟩
    · rw [all carried]
    · obtain ⟨e, st', run⟩ := some_failed failed
      exact ⟨e, by rw [run]⟩
    · refine eachTurn_congr (fun edit mem st => ?_) st
      obtain ⟨⟨clock', freshId, v⟩, inside, rfl⟩ := List.mem_map.mp mem
      obtain ⟨d, first⟩ := Outcome.exists_of_mapM_eq_ok made (List.mem_map_of_mem inside)
      exact carried_iff_answers hc first
  · have first : documentsOf transforms (before ++ (freshId, v) :: rest) = .error e :=
      Outcome.mapM_append_error made failed
    rw [split, insertMany, first]
    rfl

/-! ## Two users -/

def annAndBob : List (Int × String × Value) :=
  [(1, "1", .ofJson (.object (user (.string "a") "Ann"))),
    (2, "2", .ofJson (.object (user (.string "b") "Bob")))]

theorem answers_annAndBob : users.EachTurn users.Answers (insertions noTransforms .raise annAndBob)
    (usersStorage [usersIndex] []) :=
  ⟨by decide +kernel, by decide +kernel, trivial⟩

theorem insertMany_eq_insertions_users :
    (users.insertMany noTransforms (annAndBob.map Prod.snd) .raise).run (Engine.executor 3)
        (usersStorage [usersIndex] []) =
      (.ok (users.rowsWritten (insertions noTransforms .raise annAndBob)
          (usersStorage [usersIndex] [])),
        users.after (insertions noTransforms .raise annAndBob) (usersStorage [usersIndex] [])) := by
  have scalar (s : String) : Json.Fits 1 (.string s) := trivial
  have made : documentsOf noTransforms (annAndBob.map Prod.snd) =
      .ok [user (.string "a") "Ann", user (.string "b") "Bob"] :=
    Outcome.mapM_cons_eq_ok.mpr ⟨_, _, ofValue_user (scalar "a") "Ann" "1",
      Outcome.mapM_cons_eq_ok.mpr ⟨_, _, ofValue_user (scalar "b") "Bob" "2", rfl, rfl⟩, rfl⟩
  obtain ⟨batches, -⟩ := insertMany_eq_insertions users noTransforms .raise annAndBob 3
    (usersStorage [usersIndex] [])
  obtain ⟨all, -, same⟩ := batches _ made
  exact all ((same (by decide)).mpr answers_annAndBob)

/-- Users with an index on a path that no array can be searched with. -/
def bracketed : Storage :=
  ((users.createIndex (.ofField .path ⟨"a["⟩)).run (Engine.executor 0)
    (usersStorage [usersIndex] [])).2

def annAndArray : List (Int × String × Value) :=
  [(0, "0", .ofJson (.object (user (.string "a") "Ann"))),
    (0, "1", .ofJson (.object [("a", .array []), ("id", .string "b")]))]

theorem insertMany_annAndArray :
    ((users.insertMany noTransforms (annAndArray.map Prod.snd) .ignore).run (Engine.executor 0)
      bracketed).1.isOk = false := by
  decide +kernel

theorem rowKeys_annAndArray :
    users.rowKeys bracketed = [] ∧
      users.rowKeys (users.after (insertions noTransforms .ignore annAndArray) bracketed) = [1] := by
  decide +kernel

/-- A batch that ignores conflicts fails as a whole at a document that cannot be indexed, where single
insertions store the document before it. -/
theorem insertMany_ignore_fails :
    ∃ st, Storage.Reachable st ∧
      (∃ e, (users.insertMany noTransforms (annAndArray.map Prod.snd) .ignore).run
        (Engine.executor 0) st = (.error e, st)) ∧
      users.after (insertions noTransforms .ignore annAndArray) st ≠ st := by
  refine ⟨bracketed, reachable_users.reachable.run _ 0, ?_, fun same => ?_⟩
  · have failed := insertMany_annAndArray
    cases run : (users.insertMany noTransforms (annAndArray.map Prod.snd) .ignore).run
        (Engine.executor 0) bracketed with
    | mk answer st' =>
      rw [run] at failed
      cases answer with
      | error e => exact ⟨e, by rw [insertMany_error run]⟩
      | ok n => cases failed
  · obtain ⟨none, one⟩ := rowKeys_annAndArray
    rw [same, none] at one
    cases one

end Collection
end DocStore
