import DocStore.Collection
import DocStore.Proofs.Engine.Execution
import DocStore.Proofs.Index.Difference
import DocStore.Proofs.Sql.Scanning

/-! # Calls on a collection

Calls are carried out one after another, each at a time of its own and whether the one before it
succeeded or failed. Runs begin where a collection has just been opened: its table is new and empty,
and the index on ids is in place unless its name was taken. -/
set_option autoImplicit false

namespace DocStore

open Engine (Storage Table StoredIndex)
open Sql (Column)

/-! ## Runs of calls -/

section Runs

variable {ι : Type} {Answer : ι → Type} {program : (i : ι) → Program (Answer i)}

/-- The storage after calls, each at a time of its own, whether they succeed or fail. -/
def afterEach (program : (i : ι) → Program (Answer i)) : List (Int × ι) → Storage → Storage
  | [], st => st
  | (clock, i) :: calls, st =>
    afterEach program calls ((program i).run (Engine.executor clock) st).2

theorem afterEach_keeps {P : Storage → Prop} {calls : List (Int × ι)} {st : Storage}
    (kept : ∀ call ∈ calls, ∀ st, P st →
      P ((program call.2).run (Engine.executor call.1) st).2) (h : P st) :
    P (afterEach program calls st) := by
  induction calls generalizing st with
  | nil => exact h
  | cons call calls ih =>
    obtain ⟨first, others⟩ := List.forall_mem_cons.mp kept
    exact ih others (first st h)

end Runs

/-- Whether a statement is no update, or one of fields without escapes in quotes. -/
def Statement.WritesUnescaped : Statement → Prop
  | .update _ column value _ _ => ∃ u : Update, value = u.expr column ∧ u.Unescaped
  | _ => True

/-! ## Calls that change documents -/

inductive DocumentEdit where
  | insert (transforms : Transforms) (freshId : String) (v : Value) (onConflict : OnConflict)
  | insertMany (transforms : Transforms) (values : List (String × Value)) (onConflict : OnConflict)
  | update (filter : Option Predicate) (u : Update)
  | updateOne (filter : Option Predicate) (u : Update)
  | delete (filter : Option Predicate)
  | deleteOne (filter : Option Predicate)

namespace DocumentEdit

def Answer : DocumentEdit → Type
  | insert .. => Document
  | _ => Nat

def program (c : Collection) : (e : DocumentEdit) → Program e.Answer
  | insert transforms freshId v onConflict => c.insert transforms freshId v onConflict
  | insertMany transforms values onConflict => c.insertMany transforms values onConflict
  | update filter u => c.update filter u
  | updateOne filter u => c.updateOne filter u
  | delete filter => c.delete filter
  | deleteOne filter => c.deleteOne filter

/-- The operations that a call carries out on documents. -/
def ops : DocumentEdit → List UpdateOp
  | update _ u => u.ops
  | updateOne _ u => u.ops
  | _ => []

end DocumentEdit

/-! ## Calls on documents and indexes -/

inductive Call where
  | edit (e : DocumentEdit)
  | createIndex (d : IndexDescriptor)
  | syncIndexes (desired : List IndexDescriptor)
  | dropAllIndexes

namespace Call

def Answer : Call → Type
  | edit e => e.Answer
  | createIndex _ => Unit
  | syncIndexes _ => IndexDiff
  | dropAllIndexes => Nat

def program (c : Collection) : (k : Call) → Program k.Answer
  | edit e => e.program c
  | createIndex d => c.createIndex d
  | syncIndexes desired => c.syncIndexes desired
  | dropAllIndexes => c.dropAllIndexes

end Call

namespace Collection

def after (c : Collection) : List (Int × DocumentEdit) → Storage → Storage :=
  afterEach (DocumentEdit.program c)

/-! ## Statements that calls send -/

/-- Whether a statement is one that calls on documents send: a search in the table of the collection,
a change of it, or the insertion of a document that a value makes. -/
inductive EditStatement (c : Collection) (ops : List UpdateOp) : Statement → List Json → Prop where
  | find (filter : Option Predicate) (options : FindOptions) (params : List Json) :
    EditStatement c ops (.find c.name c.column.name (c.conditionOf filter) options) params
  | insert {transforms : Transforms} {freshId : String} {v : Value} {d : Document}
    (made : Document.ofValue transforms freshId v = .ok d) (onConflict : OnConflict)
    (returning : Bool) :
    EditStatement c ops (.insert c.name c.column.name onConflict returning) [.string d.text]
  | update {u : Update} (h : u.ops = ops) (filter : Option Predicate) (onlyFirst : Bool)
    (more : List Json) :
    EditStatement c ops
      (.update c.name c.column.name (u.expr c.column.name) (c.conditionOf filter) onlyFirst)
      (u.params ++ more)
  | delete (filter : Option Predicate) (onlyFirst : Bool) (params : List Json) :
    EditStatement c ops (.delete c.name (c.conditionOf filter) onlyFirst) params

variable {c : Collection} {ops : List UpdateOp}

section Searching

variable {kind : Statement → List Json → Prop}
  (search : ∀ filter options params,
    kind (.find c.name c.column.name (c.conditionOf filter) options) params)
include search

theorem sends_find (filter : Option Predicate) (options : FindOptions) :
    (c.find filter options).Sends kind :=
  .bind (.execute (search _ _ _) fun o => .done o) fun _ => Program.sends_ofExcept _

theorem sends_get (transforms : Transforms) (id : Value) : (c.get transforms id).Sends kind :=
  .bind (Program.sends_ofExcept _) fun _ => .bind (sends_find search _ _) fun _ => .done _

end Searching

theorem sends_insert (transforms : Transforms) (freshId : String) (v : Value)
    (onConflict : OnConflict) :
    (c.insert transforms freshId v onConflict).Sends (c.EditStatement ops) := by
  refine Program.Sends.ofExcept_bind fun d made => ?_
  refine .bind (.execute (.insert made onConflict true) fun o => .done o) fun o => ?_
  split
  · exact Program.sends_ofExcept _
  · exact .bind (sends_get .find _ _) fun _ => .done _

theorem exists_value_of_documentsOf {transforms : Transforms} {values : List (String × Value)}
    {ds : List Document} (h : documentsOf transforms values = .ok ds) :
    ∀ d ∈ ds, ∃ freshId v, Document.ofValue transforms freshId v = .ok d := by
  intro d mem
  obtain ⟨⟨freshId, v⟩, -, made⟩ := (Outcome.mem_iff_of_mapM_eq_ok h).mp mem
  exact ⟨freshId, v, made⟩

theorem sends_insertMany (transforms : Transforms) (values : List (String × Value))
    (onConflict : OnConflict) :
    (c.insertMany transforms values onConflict).Sends (c.EditStatement ops) := by
  refine Program.Sends.ofExcept_bind fun ds made => ?_
  split
  · exact .done 0
  · refine .executeMany (fun params mem => ?_) fun n => .done n
    obtain ⟨d, inside, rfl⟩ := List.mem_map.mp mem
    obtain ⟨freshId, v, made⟩ := exists_value_of_documentsOf made d inside
    exact .insert made onConflict false

theorem sends_program (e : DocumentEdit) : (e.program c).Sends (c.EditStatement e.ops) := by
  cases e with
  | insert transforms freshId v onConflict => exact sends_insert transforms freshId v onConflict
  | insertMany transforms values onConflict => exact sends_insertMany transforms values onConflict
  | update filter u => exact .execute (.update rfl _ _ _) fun o => .done _
  | updateOne filter u => exact .execute (.update rfl _ _ _) fun o => .done _
  | delete filter => exact .execute (.delete _ _ _) fun o => .done _
  | deleteOne filter => exact .execute (.delete _ _ _) fun o => .done _

theorem EditStatement.writesUnescaped {s : Statement} {params : List Json}
    (h : c.EditStatement ops s params) (unescaped : ∀ op ∈ ops, op.field.Unescaped) :
    s.WritesUnescaped := by
  cases h with
  | find | insert | delete => trivial
  | update same =>
    subst same
    exact ⟨_, rfl, unescaped⟩

section Indexing

variable {kind : Statement → List Json → Prop} {table column : String}

theorem sends_list (h : kind .listIndexes [.string table]) : (IndexSync.list table).Sends kind :=
  .bind (.execute h fun o => .done o) fun _ => Program.sends_ofExcept _

theorem sends_create {d : IndexDescriptor} (h : kind (.createIndex d table column) []) :
    (IndexSync.create table column d).Sends kind :=
  .bind (.execute h fun o => .done o) fun _ => .done ()

theorem sends_createEach {ds : List IndexDescriptor}
    (h : ∀ d ∈ ds, kind (.createIndex d table column) []) :
    (IndexSync.createEach table column ds).Sends kind := by
  induction ds with
  | nil => exact .done ()
  | cons d ds ih =>
    obtain ⟨first, others⟩ := List.forall_mem_cons.mp h
    exact .bind (sends_create first) fun _ => ih others

theorem sends_dropByName {name : String} (h : kind (.dropIndex name) []) :
    (IndexSync.dropByName name).Sends kind :=
  .bind (.execute h fun o => .done o) fun _ => .done ()

theorem sends_dropEach {ds : List IndexDescriptor} (h : ∀ d ∈ ds, kind (.dropIndex d.name) []) :
    (IndexSync.dropEach ds).Sends kind := by
  induction ds with
  | nil => exact .done ()
  | cons d ds ih =>
    obtain ⟨first, others⟩ := List.forall_mem_cons.mp h
    exact .bind (sends_dropByName first) fun _ => ih others

end Indexing

/-- Whether a statement is one that calls on documents and indexes send. -/
inductive CallStatement (c : Collection) : Statement → List Json → Prop where
  | edit {ops : List UpdateOp} {s : Statement} {params : List Json}
    (h : c.EditStatement ops s params) : CallStatement c s params
  | listIndexes (params : List Json) : CallStatement c .listIndexes params
  | createIndex (d : IndexDescriptor) :
    CallStatement c (.createIndex (c.qualified d) c.name c.column.name) []
  | dropIndex (name : String) : CallStatement c (.dropIndex name) []

theorem qualified_of_mem_desiredIndexes {desired : List IndexDescriptor} {d : IndexDescriptor}
    (h : d ∈ c.desiredIndexes desired) : ∃ e, d = c.qualified e := by
  have named (mem : d ∈ desired.map c.qualified) : ∃ e, d = c.qualified e := by
    obtain ⟨e, -, rfl⟩ := List.mem_map.mp mem
    exact ⟨e, rfl⟩
  change d ∈ (if IndexDiff.covers (desired.map c.qualified) idIndex then
    desired.map c.qualified else c.qualified idIndex :: desired.map c.qualified) at h
  split at h
  · exact named h
  · rcases List.mem_cons.mp h with rfl | h
    · exact ⟨idIndex, rfl⟩
    · exact named h

theorem sends_call (k : Call) : (k.program c).Sends c.CallStatement := by
  cases k with
  | edit e => exact (sends_program e).mono fun _ _ sent => .edit sent
  | createIndex d => exact sends_create (.createIndex d)
  | syncIndexes desired =>
    refine .bind (sends_list (.listIndexes _)) fun existing => .bind (sends_createEach ?_) fun _ =>
      .bind (sends_dropEach fun d _ => .dropIndex d.name) fun _ => .done _
    intro d mem
    obtain ⟨e, rfl⟩ := qualified_of_mem_desiredIndexes (IndexDiff.of_mem_create mem).1
    exact .createIndex e
  | dropAllIndexes =>
    exact .bind (sends_list (.listIndexes _)) fun existing =>
      .bind (sends_dropEach fun d _ => .dropIndex d.name) fun _ => .done _

/-! ## Opening -/

theorem name_qualified (c : Collection) (d : IndexDescriptor) :
    (c.qualified d).name = c.indexName d := rfl

/-- The index on ids as the catalog keeps it. -/
def idEntry (c : Collection) : StoredIndex :=
  ⟨c.qualified idIndex, c.column.name, (c.qualified idIndex).catalogText c.name c.column.name⟩

variable {name : String} {column : Column} {start st : Storage} {clock : Int}

theorem sends_openNamed {kind : Statement → List Json → Prop}
    (table : kind (.createTable name column.name) [])
    (index : ∀ d, kind (.createIndex d name column.name) []) :
    (openNamed name column).Sends kind := by
  unfold openNamed
  split
  · exact .bind (.execute table fun o => .done o) fun _ =>
      .bind (sends_create (index _)) fun _ => .done _
  · exact .fail _

theorem of_run_createIndex {d : IndexDescriptor}
    (h : (c.createIndex d).run (Engine.executor clock) start = (.ok (), st)) :
    ∃ o, Engine.perform clock (.createIndex (c.qualified d) c.name c.column.name) [] start = .ok o ∧
      o.storage = st := by
  obtain ⟨out, between, sent, h⟩ := Program.of_run_bind_ok h
  obtain ⟨-, rfl⟩ := Prod.mk.inj h
  obtain ⟨o, performed, -, rfl⟩ := Engine.run_send_ok sent
  exact ⟨o, performed, rfl⟩

/-- Opening a collection creates its table and then the index on ids. -/
theorem of_run_openNamed
    (h : (openNamed name column).run (Engine.executor clock) start = (.ok c, st)) :
    c = ⟨name, column⟩ ∧ Sql.isPlainIdentifier name = true ∧
      ∃ between o, start.createTable name column.name = .ok between ∧
        Engine.perform clock (.createIndex (c.qualified idIndex) name column.name) [] between =
          .ok o ∧ o.storage = st := by
  unfold openNamed at h
  split at h
  · rename_i plain
    obtain ⟨out, between, created, h⟩ := Program.of_run_bind_ok h
    obtain ⟨⟨⟩, last, indexed, h⟩ := Program.of_run_bind_ok h
    obtain ⟨opened, rfl⟩ := Prod.mk.inj h
    obtain rfl := Except.ok.inj opened
    obtain ⟨o, performed, -, rfl⟩ := Engine.run_send_ok created
    obtain ⟨o', made, rfl⟩ := of_run_createIndex indexed
    exact ⟨rfl, plain, o.storage, o', Engine.perform_createTable performed, made, rfl⟩
  · cases (Prod.mk.inj h).1

/-- Opening a collection that is not there makes an empty table, and the index on ids if its name is
free. -/
theorem openNamed_ok (absent : start.table? name = none)
    (h : (openNamed name column).run (Engine.executor clock) start = (.ok c, st)) :
    c = ⟨name, column⟩ ∧ Sql.isPlainIdentifier name = true ∧
      ∃ t, st.table? name = some t ∧ t.name = name ∧ t.column = column.name ∧ t.rows = [] ∧
        t.indexes = if start.hasIndex (c.indexName idIndex) then [] else [c.idEntry] := by
  obtain ⟨rfl, plain, between, o, created, performed, rfl⟩ := of_run_openNamed h
  obtain rfl := Engine.createTable_new absent created
  have new := Storage.table?_append_new absent column.name
  obtain ⟨-, t, found, ⟨taken, same⟩ | ⟨free, t', added, replaced⟩⟩ :=
    Engine.createIndex_ok (Engine.perform_createIndex performed)
  · rw [name_qualified, Storage.hasIndex_append_new] at taken
    rw [same, if_pos taken]
    exact ⟨rfl, plain, _, new, rfl, rfl, rfl, rfl⟩
  · rw [name_qualified, Storage.hasIndex_append_new] at free
    obtain rfl := Option.some.inj (new.symm.trans found)
    obtain ⟨rfl, -⟩ := Table.addIndex_ok added
    rw [replaced, if_neg (Bool.eq_false_iff.mp free)]
    exact ⟨rfl, plain, _, Storage.table?_replaceTable_self found rfl, rfl, rfl, rfl, rfl⟩

end Collection
end DocStore
