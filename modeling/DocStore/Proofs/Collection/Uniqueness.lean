import DocStore.Proofs.Collection.Calls
import DocStore.Proofs.Collection.Fetching
import DocStore.Proofs.Engine.Uniqueness
import DocStore.Proofs.Index.Difference
import DocStore.Proofs.Index.Reading

/-! # Documents stay apart

Whatever calls change the documents and the indexes of a collection, and whether they succeed or
fail, no two documents collide in the field of a unique index that the catalog has
(`Collection.apart_after`). The index on ids is among them if opening the collection has made it: no
call drops it, because calls drop only what the catalog lists under another kind or field. -/
set_option autoImplicit false

namespace DocStore

open Engine (Storage Table Row StoredIndex Scalar)
open Sql (Column)

/-! ## Statements that spare a table -/

/-- Whether a statement drops no table, indexes one column only, and drops indexes only if they have
names of some kind. -/
def Statement.Spares (column : String) (dropped : String → Prop) : Statement → Prop
  | dropTable _ => False
  | createIndex _ _ indexed => indexed = column
  | dropIndex name => dropped name
  | _ => True

namespace Collection

variable {c : Collection} {st st' : Storage} {clock : Int} {dropped : String → Prop}

/-- Whether the table of a collection is in place and has a property. -/
def HasTable (c : Collection) (P : Table → Prop) (st : Storage) : Prop :=
  ∃ t, st.table? c.name = some t ∧ P t

/-- What the table keeps under each statement that spares it, it keeps under programs of those. -/
theorem HasTable.run {P : Table → Prop} {column : String} {α : Type} {p : Program α}
    (kept : ∀ {s : Statement} {t t' : Table}, s.Spares column dropped → t.Step s t' → P t → P t')
    (hp : p.Sends fun s _ => s.Spares column dropped) (h : c.HasTable P st) :
    c.HasTable P (p.run (Engine.executor clock) st).2 := by
  refine Engine.run_keeps (fun s params st spares h => ?_) hp h
  obtain ⟨t, found, ht⟩ := h
  have no_drop : ∀ other, s ≠ .dropTable other := fun other same => by
    subst same
    exact spares
  have whole : st.Step s (Engine.execute clock s params st).2 := Engine.execute_step s
  obtain ⟨t', found', step⟩ := whole.table no_drop found
  exact ⟨t', found', kept spares step ht⟩

theorem EditStatement.spares {ops : List UpdateOp} {column : String} {s : Statement}
    {params : List Json} (h : c.EditStatement ops s params) : s.Spares column dropped := by
  cases h <;> trivial

abbrev Sparing {α : Type} (c : Collection) (dropped : String → Prop) (p : Program α) : Prop :=
  p.Sends fun s _ => s.Spares c.column.name dropped

theorem sparing_edit (e : DocumentEdit) : c.Sparing dropped (e.program c) :=
  (sends_program e).mono fun _ _ sent => sent.spares

/-- No call drops a table or indexes another column. -/
theorem sparing_call (k : Call) : c.Sparing (fun _ => True) (k.program c) := by
  refine (sends_call k).mono fun s params sent => ?_
  cases sent with
  | edit h => exact h.spares
  | listIndexes | dropIndex => trivial
  | createIndex d => rfl

/-! ## The indexed column -/

/-- Whether a table and all its indexes have the column of a collection. -/
def Indexed (c : Collection) (t : Table) : Prop :=
  t.column = c.column.name ∧ ∀ ix ∈ t.indexes, ix.column = c.column.name

theorem Indexed.step {s : Statement} {t t' : Table} (spares : s.Spares c.column.name dropped)
    (step : t.Step s t') (h : c.Indexed t) : c.Indexed t' := by
  obtain ⟨column, indexes⟩ := h
  cases step with
  | same s => exact ⟨column, indexes⟩
  | change changed =>
    obtain ⟨-, same_column, same_indexes⟩ := changed.frame
    exact ⟨same_column.trans column, fun ix mem => indexes ix (same_indexes ▸ mem)⟩
  | addIndex added =>
    obtain ⟨rfl, -⟩ := Table.addIndex_ok added
    exact ⟨column, List.forall_mem_cons.mpr ⟨spares, indexes⟩⟩
  | dropIndex name => exact ⟨column, fun ix mem => indexes ix (List.mem_filter.mp mem).1⟩

/-! ## The index on ids -/

def OtherThanIds (c : Collection) (name : String) : Prop :=
  Engine.sameName (c.indexName idIndex) name = false

def ListsIds (c : Collection) (t : Table) : Prop := c.idEntry ∈ t.indexes

theorem ListsIds.step {s : Statement} {t t' : Table}
    (spares : s.Spares c.column.name c.OtherThanIds) (step : t.Step s t')
    (h : c.ListsIds t) : c.ListsIds t' := by
  cases step with
  | same s => exact h
  | change changed =>
    rw [ListsIds, changed.frame.2.2]
    exact h
  | addIndex added =>
    obtain ⟨rfl, -⟩ := Table.addIndex_ok added
    exact List.mem_cons_of_mem _ h
  | dropIndex name =>
    have other : Engine.sameName c.idEntry.name name = false := spares
    exact List.mem_filter.mpr ⟨h, by rw [other]; rfl⟩

theorem isUnique_idEntry (c : Collection) : c.idEntry.isUnique = true := rfl

theorem ofCatalog_idEntry (plain : Sql.isPlainIdentifier c.name = true) :
    IndexDescriptor.ofCatalog c.idEntry.name c.idEntry.definition = .ok (c.qualified idIndex) := by
  have unquoted : '\'' ∉ (c.qualified idIndex).name.toList := by
    rw [name_qualified, indexName, String.toList_append, String.toList_append]
    simp only [List.mem_append, not_or]
    exact ⟨⟨IndexDescriptor.unquoted_of_isPlainIdentifier plain, by decide⟩, by decide⟩
  have filled : (c.qualified idIndex).field.text ≠ "" := by
    change Document.idField ≠ ""
    decide
  exact IndexDescriptor.ofCatalog_statementText false filled
    (IndexDescriptor.not_opening_of_unquoted unquoted) plain c.column.isPlain

/-- What a listing answers is read from entries of tables of the given name. -/
theorem run_list_ok {name : String} {existing : List IndexDescriptor}
    (h : (IndexSync.list name).run (Engine.executor clock) st = (.ok existing, st')) :
    st' = st ∧ ∀ d ∈ existing, ∃ t ∈ st.tables, t.name = name ∧ ∃ ix ∈ t.indexes,
      IndexDescriptor.ofCatalog ix.name ix.definition = .ok d := by
  obtain ⟨out, between, sent, h⟩ := Program.of_run_bind_ok h
  obtain ⟨o, performed, rfl, rfl⟩ := Engine.run_send_ok sent
  rw [Program.run_ofExcept] at h
  obtain ⟨parsed, rfl⟩ := Prod.mk.inj h
  obtain ⟨only, given, same, rows⟩ := Engine.perform_listIndexes performed
  obtain rfl : name = only := Except.ok.inj given
  refine ⟨same, fun d mem => ?_⟩
  obtain ⟨row, inside, read⟩ := (Outcome.mem_iff_of_mapM_eq_ok parsed).mp mem
  rw [rows] at inside
  obtain ⟨⟨entry, sql⟩, listed, rfl⟩ := List.mem_map.mp inside
  obtain ⟨t, found, entries⟩ := List.mem_flatMap.mp (List.mem_mergeSort.mp listed)
  obtain ⟨ix, hix, same_entry⟩ := List.mem_map.mp entries
  cases same_entry
  obtain ⟨ht, named⟩ := List.mem_filter.mp found
  exact ⟨t, ht, eq_of_beq named, ix, hix, read⟩

/-- Only the index on ids has its name, so what is listed for another kind or field has another. -/
theorem otherThanIds_of_listed (reachable : st.Reachable)
    (plain : Sql.isPlainIdentifier c.name = true) (h : c.HasTable c.ListsIds st)
    {existing : List IndexDescriptor}
    (listed : (IndexSync.list c.name).run (Engine.executor clock) st = (.ok existing, st'))
    {d : IndexDescriptor} (mem : d ∈ existing) (other : d.identity ≠ idIndex.identity) :
    c.OtherThanIds d.name := by
  obtain ⟨t, found, inside⟩ := h
  obtain ⟨-, entries⟩ := run_list_ok listed
  obtain ⟨u, hu, name, ix, hix, parsed⟩ := entries d mem
  rw [OtherThanIds, IndexDescriptor.name_of_ofCatalog parsed, Bool.eq_false_iff]
  intro same
  -- The entry would be that of the index on ids, which is read as that index.
  have own : t = u := Engine.eq_of_sameName reachable.tables_apart (Storage.mem_of_table? found) hu
    (by rw [name]; exact Storage.sameName_of_table? found)
  subst own
  have entry : c.idEntry = ix := Engine.eq_of_sameName (reachable.namesApart t hu) inside hix same
  rw [← entry, ofCatalog_idEntry plain] at parsed
  cases parsed
  exact other rfl

theorem describes_desiredIndexes (c : Collection) (desired : List IndexDescriptor) :
    IndexDiff.Describes (c.desiredIndexes desired) idIndex.identity := by
  change IndexDiff.Describes (if IndexDiff.covers (desired.map c.qualified) idIndex then
    desired.map c.qualified else c.qualified idIndex :: desired.map c.qualified) _
  split
  · rename_i covered
    exact IndexDiff.covers_iff.mp covered
  · exact List.mem_cons_self ..

theorem ListsIds.call (reachable : st.Reachable) (plain : Sql.isPlainIdentifier c.name = true)
    (h : c.HasTable c.ListsIds st) (k : Call) :
    c.HasTable c.ListsIds ((k.program c).run (Engine.executor clock) st).2 := by
  have keeps {α : Type} {p : Program α} {st : Storage} (hp : c.Sparing c.OtherThanIds p)
      (h : c.HasTable c.ListsIds st) :
      c.HasTable c.ListsIds (p.run (Engine.executor clock) st).2 :=
    HasTable.run ListsIds.step hp h
  cases k with
  | edit e => exact keeps (sparing_edit e) h
  | createIndex d => exact keeps (sends_create rfl) h
  | syncIndexes desired =>
    refine Program.run_bind_keeps (keeps (sends_list trivial) h) fun existing st' listed h' => ?_
    -- What is dropped was listed and is not desired, and the index on ids always is.
    refine keeps (.bind (sends_createEach fun _ _ => rfl) fun _ => .bind (sends_dropEach ?_) fun _ =>
      .done _) h'
    intro d mem
    obtain ⟨mem, undesired⟩ := IndexDiff.mem_drop_iff.mp mem
    refine otherThanIds_of_listed reachable plain h listed mem fun same => undesired ?_
    rw [same]
    exact describes_desiredIndexes c desired
  | dropAllIndexes =>
    refine Program.run_bind_keeps (keeps (sends_list trivial) h) fun existing st' listed h' => ?_
    refine keeps (.bind (sends_dropEach ?_) fun _ => .done _) h'
    intro d mem
    obtain ⟨mem, other⟩ := List.mem_filter.mp mem
    refine otherThanIds_of_listed reachable plain h listed mem fun same => ?_
    have same_index : d.same idIndex = true := beq_of_eq same
    rw [same_index] at other
    cases other

/-! ## Whole runs -/

variable {name : String} {column : Column} {start : Storage}

/-- After any calls on a collection that has just been opened, no two documents collide in the field
of a unique index of its table. If the name of the index on ids was free, that index is there, and no
two documents collide in their ids. -/
theorem apart_after (reachable : start.Reachable) (absent : start.table? name = none)
    (h : (openNamed name column).run (Engine.executor clock) start = (.ok c, st))
    (calls : List (Int × Call)) :
    ∃ t, (afterEach (Call.program c) calls st).table? c.name = some t ∧
      (∀ ix ∈ t.indexes, ix.isUnique = true →
        (t.rows.map Row.document).Pairwise (Table.ApartIn ix.descriptor.field)) ∧
      (start.hasIndex (c.indexName idIndex) = false → c.idEntry ∈ t.indexes ∧
        (t.rows.map Row.document).Pairwise (Table.ApartIn ⟨Document.idField⟩)) := by
  have opened : st.Reachable := by
    have run := reachable.run (openNamed name column) clock
    rwa [h] at run
  obtain ⟨same, plain, t, found, -, columns, -, indexes⟩ := openNamed_ok absent h
  obtain rfl : c.name = name := congrArg Collection.name same
  obtain rfl : c.column = column := congrArg Collection.column same
  have reached : (afterEach (Call.program c) calls st).Reachable :=
    afterEach_keeps (fun call _ _ reached => reached.run _ call.1) opened
  have fresh : c.HasTable c.Indexed st := by
    refine ⟨t, found, columns, fun ix mem => ?_⟩
    rw [indexes] at mem
    split at mem
    · cases mem
    · rw [List.mem_singleton.mp mem]
      rfl
  obtain ⟨t', found', indexed⟩ : c.HasTable c.Indexed (afterEach (Call.program c) calls st) :=
    afterEach_keeps (fun call _ _ kept => HasTable.run Indexed.step (sparing_call call.2) kept) fresh
  have mem' := Storage.mem_of_table? found'
  have apart : ∀ ix ∈ t'.indexes, ix.isUnique = true →
      (t'.rows.map Row.document).Pairwise (Table.ApartIn ix.descriptor.field) := by
    intro ix mem unique
    have own : t'.column? ix.column = some .document :=
      column?_of_eq (indexed.1.trans (indexed.2 ix mem).symm)
    exact (reached.separated t' mem').apartIn (reached.keyed t' mem') mem unique own
  refine ⟨t', found', apart, fun free => ?_⟩
  have made : c.HasTable c.ListsIds st := by
    refine ⟨t, found, ?_⟩
    rw [ListsIds, indexes, if_neg (Bool.eq_false_iff.mp free)]
    exact List.mem_singleton.mpr rfl
  have listed : (afterEach (Call.program c) calls st).Reachable ∧
      c.HasTable c.ListsIds (afterEach (Call.program c) calls st) :=
    afterEach_keeps (P := fun st => st.Reachable ∧ c.HasTable c.ListsIds st)
      (fun call _ _ kept => ⟨kept.1.run _ call.1, ListsIds.call kept.1 plain kept.2 call.2⟩)
      ⟨opened, made⟩
  obtain ⟨-, t₀, found₀, inside⟩ := listed
  obtain rfl : t' = t₀ := Option.some.inj (found'.symm.trans found₀)
  exact ⟨inside, apart c.idEntry inside (isUnique_idEntry c)⟩

/-! ## Users and places -/

def userCalls : List (Int × Call) :=
  [(0, .edit (.insert noTransforms "0" (.ofJson (.object (user (.string "a") "Ann"))) .raise)),
    (1, .createIndex (.ofField .unique ⟨"name"⟩)),
    (2, .edit (.insertMany noTransforms
      [("1", .ofJson (.object (user (.string "b") "Bob"))),
        ("2", .ofJson (.object (user (.string "c") "Ann")))] .replace)),
    (3, .edit (.update none ⟨.set ⟨"id"⟩ (.string "d"), []⟩)),
    (4, .syncIndexes [.ofField .path ⟨"name"⟩]),
    (5, .dropAllIndexes)]

theorem apart_after_users :
    ∃ t, (afterEach (Call.program users) userCalls (usersStorage [usersIndex] [])).table? users.name =
        some t ∧
      users.idEntry ∈ t.indexes ∧
      (t.rows.map Row.document).Pairwise (Table.ApartIn ⟨Document.idField⟩) := by
  obtain ⟨t, found, -, ids⟩ := apart_after .empty rfl run_openNamed_users userCalls
  exact ⟨t, found, ids rfl⟩

/-- The users with an index that has the name of the index on ids of the paths of users. -/
def clashing : Storage :=
  ((users.createIndex (.ofField .path ⟨"idx_unique_id"⟩)).run (Engine.executor 0)
    (usersStorage [usersIndex] [])).2

def clashingCalls : List (Int × Call) :=
  [(0, .edit (.insert noTransforms "0" (.ofJson (.object (user (.string "a") "Ann"))) .raise)),
    (0, .edit (.insert noTransforms "0" (.ofJson (.object (user (.string "a") "Bob"))) .raise))]

def openClashing : Except Error Collection × Storage :=
  (openNamed "users_idx_path" .standard).run (Engine.executor 0) clashing

theorem clashing_absent : (clashing.table? "users_idx_path").isNone = true := by decide +kernel

theorem openClashing_isOk : openClashing.1.isOk = true := by decide +kernel

theorem ids_clashing :
    ((afterEach (Call.program ⟨"users_idx_path", .standard⟩) clashingCalls openClashing.2).table?
        "users_idx_path").map
      (fun t => t.rows.map fun r => (Engine.fieldOf ⟨Document.idField⟩ r.document).toOption) =
    some [some (.text "a"), some (.text "a")] := by
  decide +kernel

/-- A collection is opened without its index on ids if another collection has an index of that name,
and then takes in documents of one id. -/
theorem apart_after_clashing :
    ∃ start c st t, Storage.Reachable start ∧ start.table? "users_idx_path" = none ∧
      (openNamed "users_idx_path" .standard).run (Engine.executor 0) start = (.ok c, st) ∧
      (afterEach (Call.program c) clashingCalls st).table? c.name = some t ∧
      ¬(t.rows.map Row.document).Pairwise (Table.ApartIn ⟨Document.idField⟩) := by
  have absent := Option.isNone_iff_eq_none.mp clashing_absent
  obtain ⟨c, opened⟩ := Outcome.exists_of_isOk openClashing_isOk
  obtain ⟨rfl, -⟩ := openNamed_ok absent opened
  obtain ⟨t, found, ids⟩ := Option.map_eq_some_iff.mp ids_clashing
  refine ⟨clashing, _, openClashing.2, t, reachable_users.reachable.run _ 0, absent, opened, found, ?_⟩
  intro apart
  have pairs : (t.rows.map fun r =>
      (Engine.fieldOf ⟨Document.idField⟩ r.document).toOption).Pairwise
        fun x y => ∃ a b, x = some a ∧ y = some b ∧ a.collides b = false := by
    refine List.pairwise_map.mpr ((List.pairwise_map.mp apart).imp ?_)
    rintro r r' ⟨a, b, ha, hb, differ⟩
    exact ⟨a, b, by rw [ha]; rfl, by rw [hb]; rfl, differ⟩
  rw [ids] at pairs
  obtain ⟨a, b, ha, hb, differ⟩ := List.pairwise_pair.mp pairs
  cases ha
  cases hb
  exact absurd differ (by decide)

end Collection
end DocStore
