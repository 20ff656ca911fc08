import DocStore.Engine.Execution
import DocStore.Proofs.Engine.Table
import DocStore.Proofs.Statement.Running
import Mathlib.Tactic.SplitIfs

/-! # What statements do to a storage

A statement that is carried out leaves the storage as it is, creates or drops a table, drops an
index, or changes one table (`perform_step`). What each of these steps keeps, every run of every
program keeps, because a statement that fails and a batch that fails change nothing. -/
set_option autoImplicit false

namespace DocStore.Engine

/-! ## Finding tables -/

theorem sameName_iff {a b : String} :
    sameName a b = true ↔ Text.lower a.toList = Text.lower b.toList :=
  beq_iff_eq

namespace Storage

variable {st : Storage} {name : String} {t t' : Table}

theorem tableOf_eq_ok : st.tableOf name = .ok t ↔ st.table? name = some t := by
  unfold tableOf
  cases st.table? name with
  | none => simp
  | some u => simp

theorem mem_of_table? (h : st.table? name = some t) : t ∈ st.tables := List.mem_of_find?_eq_some h

theorem sameName_of_table? (h : st.table? name = some t) : sameName t.name name = true :=
  List.find?_some (p := fun t : Table => sameName t.name name) h

theorem table?_append_new (h : st.table? name = none) (column : String) :
    Storage.table? { tables := st.tables ++ [{ name, column }] } name = some { name, column } := by
  have own : sameName name name = true := sameName_iff.mpr rfl
  rw [table?] at h
  rw [table?, List.find?_append, h, Option.none_or]
  exact List.find?_cons_of_pos own

theorem hasIndex_append_new (st : Storage) (name column index : String) :
    Storage.hasIndex { tables := st.tables ++ [{ name, column }] } index = st.hasIndex index := by
  rw [hasIndex, hasIndex, List.any_append]
  exact Bool.or_false _

theorem table?_replaceTable (st : Storage) (t' : Table) (name : String) :
    (st.replaceTable t').table? name =
      (st.table? name).map fun u => if sameName u.name t'.name then t' else u := by
  have kept : ((fun u : Table => sameName u.name name) ∘
      fun u : Table => if sameName u.name t'.name then t' else u) =
        fun u => sameName u.name name := by
    funext u
    rw [Function.comp_apply]
    split
    · rename_i same
      rw [sameName, sameName, sameName_iff.mp same]
    · rfl
  rw [table?, replaceTable, List.find?_map, kept, table?]

theorem table?_replaceTable_self (h : st.table? name = some t) (hn : t'.name = t.name) :
    (st.replaceTable t').table? name = some t' := by
  have replaced : sameName t.name t'.name = true := sameName_iff.mpr (by rw [hn])
  rw [table?_replaceTable, h, Option.map_some, if_pos replaced]

theorem mem_replaceTable {u : Table} (h : u ∈ (st.replaceTable t').tables) :
    u = t' ∨ u ∈ st.tables := by
  obtain ⟨v, mem, rfl⟩ := List.mem_map.mp h
  split
  · exact .inl rfl
  · exact .inr mem

/-! ## Steps -/

/-- What a statement may make of a storage. -/
inductive Step (st : Storage) : Statement → Storage → Prop where
  | same (s : Statement) : Step st s st
  | createTable {name : String} (column : String) (h : st.table? name = none) :
    Step st (.createTable name column) { tables := st.tables ++ [{ name, column }] }
  | change {s : Statement} {name : String} {t t' : Table} (h : st.table? name = some t)
    (hc : t.Change t') : Step st s (st.replaceTable t')
  | addIndex {d : IndexDescriptor} {name column : String} {t t' : Table}
    (h : st.table? name = some t)
    (added : t.addIndex ⟨d, column, d.catalogText name column⟩ = .ok t')
    (free : ∀ other ∈ t.indexes, sameName other.name d.name = false) :
    Step st (.createIndex d name column) (st.replaceTable t')
  | dropTable (name : String) :
    Step st (.dropTable name) { tables := st.tables.filter fun t => !sameName t.name name }
  | dropIndex (name : String) : Step st (.dropIndex name) (st.dropIndex name)

end Storage

/-- What a statement may make of a table that it does not drop. -/
inductive Table.Step (t : Table) : Statement → Table → Prop where
  | same (s : Statement) : Step t s t
  | change {s : Statement} {t' : Table} (h : t.Change t') : Step t s t'
  | addIndex {d : IndexDescriptor} {name column : String} {t' : Table}
    (h : t.addIndex ⟨d, column, d.catalogText name column⟩ = .ok t') :
    Step t (.createIndex d name column) t'
  | dropIndex (name : String) :
    Step t (.dropIndex name)
      { t with indexes := t.indexes.filter fun ix => !sameName ix.name name }

theorem Storage.table?_replaceTable_step {st : Storage} {s : Statement} {name other : String}
    {t u u' : Table} (h : st.table? name = some t) (hu : st.table? other = some u)
    (hn : u'.name = u.name) (step : u.Step s u') :
    ∃ t', (st.replaceTable u').table? name = some t' ∧ t.Step s t' := by
  have found := sameName_iff.mp (sameName_of_table? h)
  have found' := sameName_iff.mp (sameName_of_table? hu)
  by_cases same : sameName t.name u.name = true
  · -- Both names find one table, the one that is replaced.
    have lookup : (fun v : Table => sameName v.name other) = fun v => sameName v.name name := by
      funext v
      rw [sameName, sameName, ← found, ← found', sameName_iff.mp same]
    rw [table?, lookup] at hu
    obtain rfl : t = u := Option.some.inj (h.symm.trans hu)
    exact ⟨u', table?_replaceTable_self h hn, step⟩
  · refine ⟨t, ?_, .same s⟩
    rw [table?_replaceTable, h, Option.map_some, if_neg (by rwa [hn])]

/-- What a statement that drops no table makes of the table of a name. -/
theorem Storage.Step.table {st st' : Storage} {s : Statement} {name : String} {t : Table}
    (step : st.Step s st') (kept : ∀ other, s ≠ .dropTable other)
    (h : st.table? name = some t) : ∃ t', st'.table? name = some t' ∧ t.Step s t' := by
  cases step with
  | same s => exact ⟨t, h, .same s⟩
  | createTable column absent =>
    refine ⟨t, ?_, .same _⟩
    rw [table?] at h
    rw [table?, List.find?_append, h, Option.some_or]
  | change found changed => exact table?_replaceTable_step h found changed.frame.1 (.change changed)
  | addIndex found added free =>
    obtain ⟨rfl, -⟩ := Table.addIndex_ok added
    exact table?_replaceTable_step h found rfl (.addIndex added)
  | dropTable other => exact absurd rfl (kept other)
  | dropIndex index =>
    refine ⟨_, ?_, .dropIndex index⟩
    rw [table?, Storage.dropIndex, List.find?_map]
    exact congrArg _ h

variable {st st' : Storage} {clock : Int} {table column : String} {filter : Option Sql.Condition}
  {params : List Json} {o : Outcome}

theorem createTable_ok (h : st.createTable table column = .ok st') :
    isReserved table = false ∧
      (st.hasTable table = true ∧ st' = st ∨
        st.table? table = none ∧ st' = { tables := st.tables ++ [{ name := table, column }] }) := by
  unfold Storage.createTable at h
  split_ifs at h with h1 h2 h3
  · cases h
    exact ⟨Bool.eq_false_iff.mpr h2, .inl ⟨h3, rfl⟩⟩
  · cases h
    exact ⟨Bool.eq_false_iff.mpr h2, .inr ⟨Option.not_isSome_iff_eq_none.mp h3, rfl⟩⟩

theorem createTable_new (absent : st.table? table = none)
    (h : st.createTable table column = .ok st') :
    st' = { tables := st.tables ++ [{ name := table, column }] } := by
  obtain ⟨-, ⟨present, -⟩ | ⟨-, made⟩⟩ := createTable_ok h
  · exact absurd absent (Option.isSome_iff_ne_none.mp present)
  · exact made

/-- An index is new only if no table has an index of its name. -/
theorem createIndex_ok {d : IndexDescriptor} (h : st.createIndex d table column = .ok st') :
    isReserved d.name = false ∧ ∃ t, st.table? table = some t ∧
      (st.hasIndex d.name = true ∧ st' = st ∨
        st.hasIndex d.name = false ∧
          ∃ t', t.addIndex ⟨d, column, d.catalogText table column⟩ = .ok t' ∧
            st' = st.replaceTable t') := by
  unfold Storage.createIndex at h
  obtain ⟨-, h⟩ := Outcome.of_guarded h
  obtain ⟨t, found, h⟩ := Outcome.bind_eq_ok.mp h
  obtain ⟨unreserved, h⟩ := Outcome.of_guarded h
  obtain ⟨-, h⟩ := Outcome.of_guarded h
  dsimp only at h
  refine ⟨Bool.eq_false_iff.mpr unreserved, t, Storage.tableOf_eq_ok.mp found, ?_⟩
  split_ifs at h with taken
  · cases h
    exact .inl ⟨taken, rfl⟩
  · obtain ⟨t', added, h⟩ := Outcome.bind_eq_ok.mp h
    cases h
    exact .inr ⟨Bool.eq_false_iff.mpr taken, t', added, rfl⟩

theorem free_of_not_hasIndex {t : Table} {name : String} (mem : t ∈ st.tables)
    (h : st.hasIndex name = false) : ∀ ix ∈ t.indexes, sameName ix.name name = false := by
  intro ix inside
  have none := List.any_eq_false.mp h t mem
  exact Bool.eq_false_iff.mpr fun same => none (List.any_eq_true.mpr ⟨ix, inside, same⟩)

theorem columnOf_eq_ok {t : Table} {name : String} {c : ColumnRef} :
    columnOf t name = .ok c ↔ t.column? name = some c := by
  unfold columnOf
  cases t.column? name with
  | none => simp
  | some d => simp

theorem insertDocument_ok {onConflict : OnConflict} {returning : Bool}
    (h : insertDocument st table column onConflict returning params = .ok o) :
    ∃ t p value document, st.table? table = some t ∧ t.column? column = some .document ∧
      params = [p] ∧ jsonOf (.scalar (.ofJson p)) = .ok value ∧
      storedDocument value = .ok document ∧
      (t.insert onConflict document = .ok none ∧ o = .silent st ∨
        ∃ t', t.insert onConflict document = .ok (some t') ∧
          o = { output := { rows := if returning then [[.string document.text]] else [],
                            affected := 1 },
                storage := st.replaceTable t' }) := by
  unfold insertDocument at h
  obtain ⟨t, found, h⟩ := Outcome.bind_eq_ok.mp h
  obtain ⟨c, resolved, h⟩ := Outcome.bind_eq_ok.mp h
  match params, h with
  | [p], h =>
    obtain ⟨value, read, h⟩ := Outcome.bind_eq_ok.mp h
    obtain ⟨own, h⟩ := Outcome.of_guarded h
    obtain ⟨document, stored, h⟩ := Outcome.bind_eq_ok.mp h
    obtain ⟨new, inserted, h⟩ := Outcome.bind_eq_ok.mp h
    have document_column : c = .document := by
      cases c with
      | key => exact absurd rfl own
      | document => rfl
    subst document_column
    refine ⟨t, p, value, document, Storage.tableOf_eq_ok.mp found, columnOf_eq_ok.mp resolved, rfl,
      read, stored, ?_⟩
    cases new with
    | none =>
      cases h
      exact .inl ⟨inserted, rfl⟩
    | some t' =>
      cases h
      exact .inr ⟨t', inserted, rfl⟩

/-- What an insertion of a document that can be stored comes to is up to its table. -/
theorem insertDocument_eq {t : Table} {p : Json} {value : Datum} {document : Node}
    (found : st.table? table = some t) (resolved : t.column? column = some .document)
    (read : jsonOf (.scalar (.ofJson p)) = .ok value)
    (stored : storedDocument value = .ok document) (onConflict : OnConflict) (returning : Bool) :
    insertDocument st table column onConflict returning [p] =
      (t.insert onConflict document).map fun
        | none => .silent st
        | some t' =>
          { output := { rows := if returning then [[.string document.text]] else [], affected := 1 },
            storage := st.replaceTable t' } := by
  unfold insertDocument
  simp only [Storage.tableOf_eq_ok.mpr found, columnOf_eq_ok.mpr resolved, read, stored,
    Outcome.ok_bind]
  rcases t.insert onConflict document with e | _ | t'
  · rfl
  · rfl
  · rfl

/-- An insertion does the same whether it is asked for the document or not. -/
theorem insertDocument_returning {onConflict : OnConflict} {returning : Bool}
    (h : insertDocument st table column onConflict returning params = .ok o) (asked : Bool) :
    ∃ o', insertDocument st table column onConflict asked params = .ok o' ∧
      o'.output.affected = o.output.affected ∧ o'.storage = o.storage := by
  obtain ⟨t, p, value, document, found, resolved, rfl, read, stored,
    ⟨skipped, rfl⟩ | ⟨t', inserted, rfl⟩⟩ := insertDocument_ok h
  · have done := insertDocument_eq found resolved read stored onConflict asked
    rw [skipped] at done
    exact ⟨_, done, rfl, rfl⟩
  · have done := insertDocument_eq found resolved read stored onConflict asked
    rw [inserted] at done
    exact ⟨_, done, rfl, rfl⟩

theorem updateDocuments_ok {value : Sql.Expr} {onlyFirst : Bool}
    (h : updateDocuments st clock table column value filter onlyFirst params = .ok o) :
    ∃ t c bound left condition targets t', st.table? table = some t ∧
      t.column? column = some c ∧ value.bind params = some (bound, left) ∧
      t.targets clock condition onlyFirst = .ok targets ∧
      t.updateRows (t.revised clock c bound) targets = .ok t' ∧
      o.storage = st.replaceTable t' := by
  unfold updateDocuments at h
  obtain ⟨t, found, h⟩ := Outcome.bind_eq_ok.mp h
  obtain ⟨c, resolved, h⟩ := Outcome.bind_eq_ok.mp h
  obtain ⟨⟨bound, left⟩, bind, h⟩ := Outcome.bind_eq_ok.mp h
  obtain ⟨condition, -, h⟩ := Outcome.bind_eq_ok.mp h
  obtain ⟨_, -, h⟩ := Outcome.bind_eq_ok.mp h
  obtain ⟨targets, chosen, h⟩ := Outcome.bind_eq_ok.mp h
  obtain ⟨t', updated, h⟩ := Outcome.bind_eq_ok.mp h
  cases h
  refine ⟨t, c, bound, left, condition, targets, t', Storage.tableOf_eq_ok.mp found,
    columnOf_eq_ok.mp resolved, ?_, chosen, updated, rfl⟩
  unfold bindValue at bind
  split at bind
  · cases bind
    assumption
  · cases bind

namespace Table

/-- Whether a test passes a row; a test that fails passes none. -/
def passes (test : Row → Except EngineCause Bool) (row : Row) : Bool :=
  match test row with
  | .ok answer => answer
  | .error _ => false

theorem passes_of_ok {test : Row → Except EngineCause Bool} {row : Row} {answer : Bool}
    (h : test row = .ok answer) : passes test row = answer := by
  rw [passes, h]

/-- A search comes to the rows that pass the test, unless the test fails for some row. -/
theorem filterRows_eq_ok {test : Row → Except EngineCause Bool} {rows found : List Row} :
    filterRows test rows = .ok found ↔
      (∀ row ∈ rows, test row = .ok (passes test row)) ∧ found = rows.filter (passes test) := by
  induction rows generalizing found with
  | nil => simp [filterRows, eq_comm]
  | cons row rows ih =>
    rw [filterRows, Outcome.bind_eq_ok, List.forall_mem_cons]
    constructor
    · rintro ⟨answer, first, h⟩
      obtain ⟨rest, others, h⟩ := Outcome.bind_eq_ok.mp h
      obtain ⟨tested, rfl⟩ := ih.mp others
      have pass := passes_of_ok first
      refine ⟨⟨first.trans (congrArg _ pass.symm), tested⟩, ?_⟩
      rw [List.filter_cons, pass]
      exact (Except.ok.inj h).symm
    · rintro ⟨⟨first, tested⟩, rfl⟩
      refine ⟨_, first, Outcome.bind_eq_ok.mpr ⟨_, ih.mpr ⟨tested, rfl⟩, ?_⟩⟩
      rw [List.filter_cons]
      rfl

variable {test : Row → Except EngineCause Bool} {before rows found : List Row} {row : Row}

/-- Rows that do not pass the test may be left out of a search. -/
theorem filterRows_append (none : ∀ r ∈ before, test r = .ok false) :
    filterRows test (before ++ rows) = filterRows test rows := by
  induction before with
  | nil => rfl
  | cons r before ih =>
    obtain ⟨first, others⟩ := List.forall_mem_cons.mp none
    rw [List.cons_append, filterRows, first, Outcome.ok_bind, ih others]
    exact bind_pure _

/-- The first row of a search, and the search from there. -/
theorem filterRows_eq_cons : filterRows test rows = .ok (row :: found) ↔
    ∃ before after, rows = before ++ row :: after ∧ (∀ r ∈ before, test r = .ok false) ∧
      test row = .ok true ∧ filterRows test after = .ok found := by
  constructor
  · intro h
    induction rows with
    | nil => cases h
    | cons r rows ih =>
      obtain ⟨answer, first, h⟩ := Outcome.bind_eq_ok.mp h
      obtain ⟨rest, others, h⟩ := Outcome.bind_eq_ok.mp h
      cases answer with
      | true =>
        cases h
        exact ⟨[], rows, rfl, nofun, first, others⟩
      | false =>
        cases h
        obtain ⟨before, after, rfl, none, passes, later⟩ := ih others
        exact ⟨r :: before, after, rfl, List.forall_mem_cons.mpr ⟨first, none⟩, passes, later⟩
  · rintro ⟨before, after, rfl, none, passes, later⟩
    rw [filterRows_append none, filterRows, passes, Outcome.ok_bind, later]
    rfl

/-- Where all rows can be tested, the first of those that pass are found. -/
theorem firstRows_of_filterRows (h : filterRows test rows = .ok found) (n : Nat) :
    firstRows test n rows = .ok (found.take n) := by
  induction rows generalizing found n with
  | nil =>
    cases h
    cases n <;> rfl
  | cons row rows ih =>
    obtain ⟨answer, first, h⟩ := Outcome.bind_eq_ok.mp h
    obtain ⟨rest, others, h⟩ := Outcome.bind_eq_ok.mp h
    cases h
    cases n with
    | zero => rfl
    | succ n =>
      rw [firstRows, first, Outcome.ok_bind]
      cases answer with
      | true =>
        rw [if_pos rfl, ih others n]
        rfl
      | false => exact ih others (n + 1)

/-- Where all rows can be tested, a search for the first of them comes to the first that are found. -/
theorem selected_limit {t : Table} {filter : Option Sql.Condition}
    (h : t.selected clock filter none = .ok rows) (limit : Option Nat) :
    t.selected clock filter limit = .ok (limit.elim rows fun n => rows.take n) := by
  obtain ⟨_, exist, found⟩ := Outcome.bind_eq_ok.mp h
  unfold selected
  rw [exist, Outcome.ok_bind]
  cases limit with
  | none => exact found
  | some n => exact firstRows_of_filterRows found n

end Table

theorem mem_of_targets {t : Table} {condition : Option Sql.Condition} {onlyFirst : Bool}
    {rows : List Row} (h : t.targets clock condition onlyFirst = .ok rows) :
    ∀ row ∈ rows, row ∈ t.rows := by
  unfold Table.targets at h
  cases onlyFirst with
  | true =>
    obtain ⟨found, -, h⟩ := Outcome.bind_eq_ok.mp h
    cases h
    intro row mem
    rw [Table.firstOf] at mem
    split at mem
    · cases mem
    · exact (List.mem_filter.mp mem).1
  | false =>
    obtain ⟨_, -, filtered⟩ := Outcome.bind_eq_ok.mp h
    rw [(Table.filterRows_eq_ok.mp filtered).2]
    exact fun row mem => (List.mem_filter.mp mem).1

/-- A row keeps its key, and its new document is the value of the expression over it. -/
theorem revised_ok {t : Table} {value : Sql.Expr} {row new : Row}
    (h : t.revised clock .document value row = .ok new) :
    new.key = row.key ∧ ∃ d, value.eval (t.scope .stored clock row) = .ok d ∧
      storedDocument d = .ok new.document := by
  obtain ⟨d, evaluated, h⟩ := Outcome.bind_eq_ok.mp h
  obtain ⟨document, stored, h⟩ := Outcome.bind_eq_ok.mp h
  cases h
  exact ⟨rfl, d, evaluated, stored⟩

theorem deleteDocuments_ok {onlyFirst : Bool}
    (h : deleteDocuments st clock table filter onlyFirst params = .ok o) :
    ∃ t keys, st.table? table = some t ∧ o.storage = st.replaceTable (t.deleteRows keys) := by
  unfold deleteDocuments at h
  obtain ⟨t, found, h⟩ := Outcome.bind_eq_ok.mp h
  obtain ⟨condition, -, h⟩ := Outcome.bind_eq_ok.mp h
  obtain ⟨rows, -, h⟩ := Outcome.bind_eq_ok.mp h
  obtain ⟨_, -, h⟩ := Outcome.bind_eq_ok.mp h
  cases h
  exact ⟨t, rows.map Row.key, Storage.tableOf_eq_ok.mp found, rfl⟩

/-! ## Carrying out a statement -/

/-- The text of a statement that is carried out has no NUL. -/
theorem clean_of_perform {s : Statement} (h : perform clock s params st = .ok o) :
    '\x00' ∉ s.text.toList := by
  unfold perform at h
  exact mt List.contains_iff_mem.mpr (Outcome.of_guarded h).1

/-- A text without NUL passes the check that comes before a statement is carried out. -/
theorem unrefused_of_clean {s : Statement} (clean : '\x00' ∉ s.text.toList) :
    ¬s.text.toList.contains '\x00' = true :=
  mt List.contains_iff_mem.mp clean

theorem perform_createTable (h : perform clock (.createTable table column) params st = .ok o) :
    st.createTable table column = .ok o.storage := by
  unfold perform at h
  obtain ⟨_, -, h⟩ := Outcome.bind_eq_ok.mp (Outcome.of_guarded h).2
  obtain ⟨st', created, h⟩ := Outcome.bind_eq_ok.mp h
  cases h
  exact created

theorem perform_createIndex {index : IndexDescriptor}
    (h : perform clock (.createIndex index table column) params st = .ok o) :
    st.createIndex index table column = .ok o.storage := by
  unfold perform at h
  obtain ⟨_, -, h⟩ := Outcome.bind_eq_ok.mp (Outcome.of_guarded h).2
  obtain ⟨st', created, h⟩ := Outcome.bind_eq_ok.mp h
  cases h
  exact created

theorem perform_insert {onConflict : OnConflict} {returning : Bool}
    (h : perform clock (.insert table column onConflict returning) params st = .ok o) :
    insertDocument st table column onConflict returning params = .ok o := by
  unfold perform at h
  exact (Outcome.of_guarded h).2

theorem perform_update {value : Sql.Expr} {onlyFirst : Bool}
    (h : perform clock (.update table column value filter onlyFirst) params st = .ok o) :
    updateDocuments st clock table column value filter onlyFirst params = .ok o := by
  unfold perform at h
  exact (Outcome.of_guarded h).2

theorem perform_delete {onlyFirst : Bool}
    (h : perform clock (.delete table filter onlyFirst) params st = .ok o) :
    deleteDocuments st clock table filter onlyFirst params = .ok o := by
  unfold perform at h
  exact (Outcome.of_guarded h).2

/-- Whether a statement only looks at the storage. -/
def Reads : Statement → Prop
  | .find .. | .count .. | .listIndexes | .listNames => True
  | _ => False

theorem perform_reads {s : Statement} (reads : Reads s) (h : perform clock s params st = .ok o) :
    o.storage = st := by
  unfold perform at h
  replace h := (Outcome.of_guarded h).2
  cases s with
  | find | count | listIndexes | listNames =>
    obtain ⟨_, -, h⟩ := Outcome.bind_eq_ok.mp h
    cases h
    rfl
  | createTable | createIndex | dropTable | dropIndex | insert | update | delete => cases reads

theorem perform_listIndexes (h : perform clock .listIndexes params st = .ok o) :
    ∃ name, onlyText params = .ok name ∧ o.storage = st ∧
      o.output.rows = (st.indexesOf name).map fun (name, sql) => [.string name, .string sql] := by
  unfold perform at h
  obtain ⟨name, only, h⟩ := Outcome.bind_eq_ok.mp (Outcome.of_guarded h).2
  cases h
  exact ⟨name, only, rfl, rfl⟩

theorem perform_step {s : Statement} (h : perform clock s params st = .ok o) :
    st.Step s o.storage := by
  unfold perform at h
  replace h := (Outcome.of_guarded h).2
  cases s with
  | createTable table column =>
    obtain ⟨_, -, h⟩ := Outcome.bind_eq_ok.mp h
    obtain ⟨st', created, h⟩ := Outcome.bind_eq_ok.mp h
    cases h
    obtain ⟨-, ⟨-, rfl⟩ | ⟨new, rfl⟩⟩ := createTable_ok created
    · exact .same _
    · exact .createTable column new
  | createIndex index table column =>
    obtain ⟨_, -, h⟩ := Outcome.bind_eq_ok.mp h
    obtain ⟨st', created, h⟩ := Outcome.bind_eq_ok.mp h
    cases h
    obtain ⟨-, t, found, ⟨-, rfl⟩ | ⟨free, t', added, rfl⟩⟩ := createIndex_ok created
    · exact .same _
    · exact .addIndex found added (free_of_not_hasIndex (Storage.mem_of_table? found) free)
  | dropTable table =>
    obtain ⟨_, -, h⟩ := Outcome.bind_eq_ok.mp h
    obtain ⟨st', dropped, h⟩ := Outcome.bind_eq_ok.mp h
    cases h
    unfold Storage.dropTable at dropped
    split at dropped
    · cases dropped
    · cases dropped
      exact .dropTable table
  | dropIndex name =>
    obtain ⟨_, -, h⟩ := Outcome.bind_eq_ok.mp h
    cases h
    exact .dropIndex name
  | insert table column onConflict returning =>
    obtain ⟨t, p, value, document, found, -, -, -, -, ⟨-, rfl⟩ | ⟨t', inserted, rfl⟩⟩ :=
      insertDocument_ok h
    · exact .same _
    · exact .change found (.insert inserted)
  | update table column value filter onlyFirst =>
    obtain ⟨t, c, bound, left, condition, targets, t', found, -, -, -, updated, storage⟩ :=
      updateDocuments_ok h
    rw [storage]
    exact .change found (.update updated)
  | delete table filter onlyFirst =>
    obtain ⟨t, keys, found, storage⟩ := deleteDocuments_ok h
    rw [storage]
    exact .change found (.delete keys)
  | listIndexes | listNames | find | count =>
    obtain ⟨_, -, h⟩ := Outcome.bind_eq_ok.mp h
    cases h
    exact .same _

theorem perform_find_of_clean {options : FindOptions}
    (clean : '\x00' ∉ (Statement.find table column filter options).text.toList) :
    perform clock (.find table column filter options) params st =
      (findDocuments st clock table column filter options params).map fun output =>
        { output, storage := st } := by
  unfold perform
  exact if_neg (unrefused_of_clean clean)

/-- A search whose text has no NUL answers with what it finds and leaves the storage. -/
theorem execute_find {options : FindOptions} {output : QueryOutput}
    (clean : '\x00' ∉ (Statement.find table column filter options).text.toList)
    (h : findDocuments st clock table column filter options params = .ok output) :
    execute clock (.find table column filter options) params st = (.ok output, st) := by
  rw [execute, perform_find_of_clean clean, h]
  rfl

theorem perform_insert_of_clean {onConflict : OnConflict} {returning : Bool}
    (clean : '\x00' ∉ (Statement.insert table column onConflict returning).text.toList)
    (h : insertDocument st table column onConflict returning params = .ok o) :
    perform clock (.insert table column onConflict returning) params st = .ok o := by
  unfold perform
  exact (if_neg (unrefused_of_clean clean)).trans h

theorem execute_ok {s : Statement} {output : QueryOutput}
    (h : execute clock s params st = (.ok output, st')) :
    ∃ o, perform clock s params st = .ok o ∧ o.output = output ∧ o.storage = st' := by
  unfold execute at h
  split at h
  · rename_i o performed
    obtain ⟨answer, left⟩ := Prod.mk.inj h
    exact ⟨o, performed, Except.ok.inj answer, left⟩
  · cases (Prod.mk.inj h).1

theorem execute_error {s : Statement} {e : Error} (h : execute clock s params st = (.error e, st')) :
    st' = st := by
  unfold execute at h
  split at h
  · cases (Prod.mk.inj h).1
  · exact (Prod.mk.inj h).2.symm

theorem executeMany_ok {s : Statement} {batch : List (List Json)} {n : Nat}
    (h : executeMany clock s batch st = (.ok n, st')) :
    executeEach (execute clock s) batch st = (.ok n, st') := by
  unfold executeMany at h
  split at h
  · rename_i done
    exact done.trans h
  · cases (Prod.mk.inj h).1

theorem executeMany_error {s : Statement} {batch : List (List Json)} {e : Error}
    (h : executeMany clock s batch st = (.error e, st')) : st' = st := by
  unfold executeMany at h
  split at h
  · cases (Prod.mk.inj h).1
  · exact (Prod.mk.inj h).2.symm

theorem run_send (clock : Int) (s : Statement) (params : List Json) (st : Storage) :
    (Program.send s params).run (executor clock) st = execute clock s params st :=
  Program.run_send ..

theorem run_send_ok {s : Statement} {output : QueryOutput}
    (h : (Program.send s params).run (executor clock) st = (.ok output, st')) :
    ∃ o, perform clock s params st = .ok o ∧ o.output = output ∧ o.storage = st' :=
  execute_ok ((run_send ..).symm.trans h)

theorem run_send_performed {s : Statement} (h : perform clock s params st = .ok o) :
    (Program.send s params).run (executor clock) st = (.ok o.output, o.storage) := by
  rw [run_send, execute, h]

variable {P : Storage → Prop} {kind : Statement → List Json → Prop}

/-- A statement that fails changes nothing, so what it keeps where it is carried out it always
keeps. -/
theorem execute_keeps {s : Statement} (h : P st)
    (done : ∀ o, perform clock s params st = .ok o → P o.storage) :
    P (execute clock s params st).2 := by
  unfold execute
  split
  · rename_i o performed
    exact done o performed
  · exact h

theorem execute_step (s : Statement) : st.Step s (execute clock s params st).2 :=
  execute_keeps (P := st.Step s) (.same s) fun _ => perform_step

theorem executeMany_keeps {s : Statement} {batch : List (List Json)}
    (single : ∀ params ∈ batch, ∀ st, P st → P (execute clock s params st).2) (h : P st) :
    P (executeMany clock s batch st).2 := by
  -- One after another, whether or not they are all carried out; then a failure undoes them.
  have whole := Program.executeEach_keeps single h
  unfold executeMany
  split
  · rename_i done
    rw [done] at whole
    exact whole
  · exact h

/-- What all statements of a kind keep, every run of a program that sends only those keeps. -/
theorem run_keeps {α : Type} (single : ∀ s params st, kind s params → P st →
      P (execute clock s params st).2)
    {p : Program α} (hp : p.Sends kind) (h : P st) : P (p.run (executor clock) st).2 :=
  hp.run_keeps single (fun s _ _ allowed => executeMany_keeps fun params mem st =>
    single s params st (allowed params mem)) h

theorem run_reads {α : Type} {p : Program α} (hp : p.Sends fun s _ => Reads s) :
    (p.run (executor clock) st).2 = st :=
  run_keeps (P := (· = st)) (fun _ _ _ reads same =>
    execute_keeps (P := (· = st)) same fun _ performed =>
      (perform_reads reads performed).trans same) hp rfl

/-- The storages that programs make of the empty one, one after another, each at a time of its
own. -/
inductive Storage.Reachable : Storage → Prop where
  | empty : Reachable {}
  | run {α : Type} {st : Storage} (h : Reachable st) (p : Program α) (clock : Int) :
    Reachable (p.run (executor clock) st).2

/-- The storages that are reached by programs whose statements are all of some kind. -/
inductive Storage.ReachableBy (kind : Statement → List Json → Prop) : Storage → Prop where
  | empty : ReachableBy kind {}
  | run {α : Type} {st : Storage} (h : ReachableBy kind st) {p : Program α} (sends : p.Sends kind)
    (clock : Int) : ReachableBy kind (p.run (executor clock) st).2

theorem Storage.ReachableBy.reachable {st : Storage} (h : st.ReachableBy kind) : st.Reachable := by
  induction h with
  | empty => exact .empty
  | run _ _ clock ih => exact ih.run _ clock

/-- What holds of the empty storage and is kept by every step holds of every reachable storage. -/
theorem Storage.Reachable.invariant (init : P {})
    (step : ∀ {s : Statement} {st st' : Storage}, st.Step s st' → P st → P st') {st : Storage}
    (h : st.Reachable) : P st := by
  induction h with
  | empty => exact init
  | run _ p clock ih =>
    exact run_keeps (fun s params st _ h => step (execute_step s) h) p.sends_any ih

/-- What holds of new tables, and is kept by changes of the rows, by one more index and by one index
less, holds of every table of a reachable storage. -/
theorem Storage.Reachable.table_invariant {P : Table → Prop}
    (new : ∀ name column, P { name, column })
    (change : ∀ {t t' : Table}, t.Change t' → P t → P t')
    (addIndex : ∀ {t t' : Table} {ix : StoredIndex}, t.addIndex ix = .ok t' →
      (∀ other ∈ t.indexes, sameName other.name ix.name = false) → P t → P t')
    (dropIndex : ∀ (t : Table) (keep : StoredIndex → Bool), P t →
      P { t with indexes := t.indexes.filter keep })
    (h : st.Reachable) : ∀ t ∈ st.tables, P t := by
  refine h.invariant (P := fun st => ∀ t ∈ st.tables, P t) (fun t mem => by cases mem) ?_
  intro s st st' step all t mem
  cases step with
  | same s => exact all t mem
  | createTable column absent =>
    rcases List.mem_append.mp mem with mem | mem
    · exact all t mem
    · rw [List.mem_singleton.mp mem]
      exact new _ column
  | change found changed =>
    rcases mem_replaceTable mem with rfl | mem
    · exact change changed (all _ (mem_of_table? found))
    · exact all t mem
  | addIndex found added free =>
    rcases mem_replaceTable mem with rfl | mem
    · exact addIndex added free (all _ (mem_of_table? found))
    · exact all t mem
  | dropTable name => exact all t (List.mem_filter.mp mem).1
  | dropIndex name =>
    obtain ⟨u, before, rfl⟩ := List.mem_map.mp mem
    exact dropIndex u _ (all u before)

theorem Storage.Reachable.keyed (h : st.Reachable) : ∀ t ∈ st.tables, t.Keyed := by
  refine h.table_invariant (P := Table.Keyed) (fun _ _ row mem => by cases mem)
    (fun changed keyed => keyed.change changed) (fun added _ keyed => keyed.addIndex added) ?_
  intro t keep keyed row mem
  exact (keyed row mem).congr rfl fun ix kept => (List.mem_filter.mp kept).1

end DocStore.Engine
