import DocStore.Proofs.Collection.Failing
import DocStore.Proofs.Collection.Fetching
import DocStore.Proofs.Config.Saving
import DocStore.Proofs.Database.Listing
import DocStore.Proofs.Engine.Selection
import DocStore.Proofs.Query.Selection
import DocStore.Proofs.Query.Update

/-! # The names of columns

The column of the documents has the name that is configured. Statements write it without quotes, and
beside it they name only `rowid`, by which they mean the key of a row (`Operation.names_only`). A
collection can be opened exactly if the engine takes the name for a column beside the key, in
expressions too (`Usable`). From then on the name stands for the documents in every statement, and
`rowid` stands for the key unless that is what the column is called (`Database.names_resolve`). -/
set_option autoImplicit false

namespace DocStore

open Engine (Storage Table StoredIndex ColumnRef sameName isReserved)
open Sql (Column Condition Expr)

/-! ## What statements name -/

/-- The name of a column in a statement, and the column that is meant by it. -/
structure Mention where
  name : String
  meant : ColumnRef

namespace Mention

def documents (column : String) : Mention := ⟨column, .document⟩

def rowKey : Mention := ⟨"rowid", .key⟩

end Mention

namespace Statement

def filterMentions (filter : Option Condition) : List Mention :=
  (Table.filterColumns filter).map .documents

def orderMentions (column : String) (o : FindOptions) : List Mention :=
  match o.orderBy with
  | none => []
  | some f => (Expr.field column f).columns.map .documents

def targetMentions (filter : Option Condition) (onlyFirst : Bool) : List Mention :=
  filterMentions filter ++ if onlyFirst then [.rowKey] else []

/-- The columns of the table of a collection that a statement declares, reads, orders by or writes,
by the names that it has for them. -/
def mentions : Statement → List Mention
  | createTable _ column => [.documents column]
  | createIndex index _ column => (Expr.field column index.field).columns.map .documents
  | insert _ column _ _ => [.documents column]
  | find _ column filter options =>
    .documents column :: (filterMentions filter ++ orderMentions column options)
  | count _ filter => filterMentions filter
  | update _ column value filter onlyFirst =>
    .documents column :: (value.columns.map .documents ++ targetMentions filter onlyFirst)
  | delete _ filter onlyFirst => targetMentions filter onlyFirst
  | dropTable _ | dropIndex _ | listIndexes | listNames => []

/-- Whether a statement names one column, for the documents, and the key of rows at most. -/
def NamesOnly (column : String) (s : Statement) : Prop :=
  ∀ m ∈ s.mentions, m = .documents column ∨ m = .rowKey

/-- Whether the names in a statement stand for the columns of a table that are meant. -/
def ResolvesIn (t : Table) (s : Statement) : Prop :=
  ∀ m ∈ s.mentions, t.column? m.name = some m.meant

/-- The same, where the documents are meant. -/
def ResolvesDocumentsIn (t : Table) (s : Statement) : Prop :=
  ∀ m ∈ s.mentions, m.meant = .document → t.column? m.name = some m.meant

variable {c : Collection} {filter : Option Predicate} {m : Mention}

theorem mem_filterMentions (h : m ∈ filterMentions (c.conditionOf filter)) :
    m = .documents c.column.name := by
  obtain ⟨name, mem, rfl⟩ := List.mem_map.mp h
  cases filter with
  | none => cases mem
  | some p =>
    change name ∈ (p.condition c.column.name).columns at mem
    rw [p.columns_condition] at mem
    rw [p.columns_filled mem]

theorem mem_orderMentions {column : String} {o : FindOptions} (h : m ∈ orderMentions column o) :
    m = .documents column := by
  unfold orderMentions at h
  split at h
  · cases h
  · exact List.mem_singleton.mp h

theorem mem_targetMentions {onlyFirst : Bool}
    (h : m ∈ targetMentions (c.conditionOf filter) onlyFirst) :
    m = .documents c.column.name ∨ m = .rowKey := by
  rcases List.mem_append.mp h with h | h
  · exact .inl (mem_filterMentions h)
  · cases onlyFirst with
    | false => cases h
    | true => exact .inr (List.mem_singleton.mp h)

end Statement

/-! ## What operations send -/

namespace Collection

variable {c : Collection} {s : Statement} {params : List Json}

theorem EditStatement.names_only {ops : List UpdateOp} (h : c.EditStatement ops s params) :
    s.NamesOnly c.column.name := by
  cases h with
  | find filter options =>
    refine List.forall_mem_cons.mpr ⟨.inl rfl, fun m mem => .inl ?_⟩
    rcases List.mem_append.mp mem with mem | mem
    · exact Statement.mem_filterMentions mem
    · exact Statement.mem_orderMentions mem
  | insert made onConflict returning => exact List.forall_mem_singleton.mpr (.inl rfl)
  | update same filter onlyFirst more =>
    refine List.forall_mem_cons.mpr ⟨.inl rfl, fun m mem => ?_⟩
    rcases List.mem_append.mp mem with mem | mem
    · obtain ⟨name, inside, rfl⟩ := List.mem_map.mp mem
      rw [Update.columns_expr inside]
      exact .inl rfl
    · exact Statement.mem_targetMentions mem
  | delete filter onlyFirst params => exact fun m mem => Statement.mem_targetMentions mem

theorem CallStatement.names_only (h : c.CallStatement s params) : s.NamesOnly c.column.name := by
  cases h with
  | edit h => exact h.names_only
  | listIndexes params => exact nofun
  | createIndex d => exact List.forall_mem_singleton.mpr (.inl rfl)
  | dropIndex name => exact nofun

theorem names_only_openNamed (name : String) (column : Column) :
    (openNamed name column).Sends fun s _ => s.NamesOnly column.name := by
  unfold openNamed
  split
  · exact .bind (.execute (List.forall_mem_singleton.mpr (.inl rfl)) fun o => .done o) fun _ =>
      .bind (sends_create (List.forall_mem_singleton.mpr (.inl rfl))) fun _ => .done _
  · exact .fail _

end Collection

namespace Operation

/-- Whether an operation opens no collection with another column. -/
def Uses (column : Column) : Operation → Prop
  | openNamed _ other => other = column
  | _ => True

theorem names_only (op : Operation) {c : Collection} (uses : op.Uses c.column) :
    (op.program c).Sends fun s _ => s.NamesOnly c.column.name := by
  have search (filter : Option Predicate) (options : FindOptions) (params : List Json) :
      (Statement.find c.name c.column.name (c.conditionOf filter) options).NamesOnly
        c.column.name := by
    have sent : c.EditStatement [] _ _ := .find filter options params
    exact sent.names_only
  cases op with
  | openNamed name column =>
    obtain rfl : column = c.column := uses
    exact Collection.names_only_openNamed name _
  | call k => exact (Collection.sends_call k).mono fun _ _ sent => sent.names_only
  | find filter options => exact Collection.sends_find search filter options
  | findOne filter options =>
    exact .bind (Collection.sends_find search filter _) fun _ => .done _
  | get transforms id => exact Collection.sends_get search transforms id
  | count filter =>
    exact .bind (.execute (fun m mem => .inl (Statement.mem_filterMentions mem)) fun o => .done o)
      fun _ => Program.sends_ofExcept _
  | indexes => exact Collection.sends_list nofun
  | dropIndex d =>
    refine .bind (Collection.sends_list nofun) fun existing => ?_
    split
    · exact .bind (Collection.sends_dropByName nofun) fun _ => .done _
    · exact .done _
  | dropIndexByName name => exact Collection.sends_dropByName nofun

end Operation

/-! ## Names in tables -/

namespace Engine

theorem column?_rowid_iff {t : Table} :
    t.column? "rowid" = some .key ↔ sameName "rowid" t.column = false := by
  refine ⟨fun key => Bool.eq_false_iff.mpr fun same => ?_, Table.column?_rowid⟩
  have hidden : t.column? "rowid" = some .document := by
    rw [Table.column?, Table.ownColumn?, if_pos same]
    rfl
  rw [hidden] at key
  cases key

/-- Whether the document column has one name in all tables. -/
def Storage.Uniform (column : String) (st : Storage) : Prop := ∀ t ∈ st.tables, t.column = column

theorem Storage.Uniform.replaceTable {column : String} {st : Storage} {t : Table}
    (h : st.Uniform column) (own : t.column = column) : (st.replaceTable t).Uniform column := by
  intro u mem
  rcases mem_replaceTable mem with rfl | mem
  · exact own
  · exact h u mem

/-- No statement renames the column of a table, and new tables get the one that the statement
names. -/
theorem Storage.Uniform.step {column : String} {s : Statement} {st st' : Storage}
    (names : s.NamesOnly column) (step : st.Step s st') (h : st.Uniform column) :
    st'.Uniform column := by
  cases step with
  | same s => exact h
  | @createTable name own absent =>
    have declared : own = column := by
      -- What the statement declares is meant for documents, so it is not the name of the key.
      rcases names _ (List.mem_singleton.mpr rfl) with same | same
      · exact congrArg Mention.name same
      · cases congrArg Mention.meant same
    exact List.forall_mem_append.mpr ⟨h, List.forall_mem_singleton.mpr declared⟩
  | change found changed =>
    exact h.replaceTable (changed.frame.2.1.trans (h _ (mem_of_table? found)))
  | addIndex found added free =>
    obtain ⟨rfl, -⟩ := Table.addIndex_ok added
    have own := h _ (mem_of_table? found)
    exact h.replaceTable own
  | dropTable name => exact fun u mem => h u (List.mem_filter.mp mem).1
  | dropIndex name =>
    intro u mem
    obtain ⟨v, inside, rfl⟩ := List.mem_map.mp mem
    exact h v inside

theorem Storage.Uniform.run {column : String} {st : Storage} {clock : Int} {α : Type}
    {p : Program α} (names : p.Sends fun s _ => s.NamesOnly column) (h : st.Uniform column) :
    (p.run (executor clock) st).2.Uniform column :=
  run_keeps (fun s _ _ only h => h.step only (execute_step s)) names h

end Engine

/-! ## Opening -/

/-- Whether the engine takes a name for the column of documents, beside the key. -/
structure Usable (column : String) : Prop where
  noKeyword : Engine.isKeyword column = false
  noExpression : Engine.expressionKeywords.any (sameName column) = false
  notKey : sameName column Engine.keyColumn = false

namespace Engine

variable {name column : String} {st : Storage}

theorem createTable_empty (h : Usable column) (unreserved : isReserved name = false) :
    Storage.createTable {} name column = .ok { tables := [{ name, column }] } := by
  rw [Storage.createTable, h.noKeyword, unreserved, h.notKey]
  rfl

theorem usable_of_createTable (h : Storage.createTable {} name column = .ok st) :
    isKeyword column = false ∧ sameName column keyColumn = false := by
  unfold Storage.createTable at h
  split_ifs at h with keyword reserved present taken key
  · cases present
  · exact ⟨Bool.eq_false_iff.mpr keyword, Bool.eq_false_iff.mpr key⟩

theorem noExpression_of_createIndex {d : IndexDescriptor} {st' : Storage}
    (h : st.createIndex d name column = .ok st') :
    expressionKeywords.any (sameName column) = false := by
  have free := (Outcome.of_guarded h).1
  rw [Bool.or_eq_true, not_or] at free
  exact Bool.eq_false_iff.mpr free.2

/-- A new table takes any index whose name is not its own. -/
theorem createIndex_fresh {d : IndexDescriptor} (h : Usable column)
    (unreserved : isReserved d.name = false) (apart : sameName name d.name = false) :
    Storage.createIndex { tables := [{ name, column }] } d name column =
      .ok { tables := [{ name, column, indexes := [⟨d, column, d.catalogText name column⟩] }] } := by
  have absent : Storage.table? {} name = none := rfl
  have found : Storage.table? { tables := [{ name, column }] } name = some { name, column } :=
    Storage.table?_append_new absent column
  have free : Storage.hasTable { tables := [{ name, column }] } d.name = false := by
    rw [Storage.hasTable, Storage.table?, List.find?_cons, apart]
    rfl
  have own : (Table.ownColumn? { name, column } column).isNone = false := by
    rw [Table.ownColumn?, if_pos (sameName_iff.mpr rfl)]
    rfl
  have added (ix : StoredIndex) :
      Table.addIndex { name, column } ix = .ok { name, column, indexes := [ix] } := by
    rw [Table.addIndex]
    cases ix.isUnique with
    | true => rfl
    | false => rfl
  have self : sameName name name = true := sameName_iff.mpr rfl
  rw [Storage.createIndex, h.noKeyword, h.noExpression, Storage.tableOf_eq_ok.mpr found, unreserved,
    free]
  change (if (Table.ownColumn? { name, column } column).isNone = true then throw _
    else Table.addIndex { name, column } _ >>= fun t => pure (Storage.replaceTable _ t)) = _
  rw [own, added, if_neg Bool.false_ne_true, Outcome.ok_bind, Storage.replaceTable, List.map_cons,
    if_pos self]
  rfl

end Engine

namespace Statement

variable {table column : String}

theorem text_createTable (table column : String) :
    (createTable table column).text =
      "CREATE TABLE IF NOT EXISTS " ++ Sql.quoteIdentifier table ++ " (id INTEGER PRIMARY KEY, " ++
        column ++ " JSON)" := rfl

theorem clean_createTable (ht : '\x00' ∉ table.toList) (hc : '\x00' ∉ column.toList) :
    '\x00' ∉ (createTable table column).text.toList := by
  have verb : '\x00' ∉ "CREATE TABLE IF NOT EXISTS ".toList := by decide
  have key : '\x00' ∉ " (id INTEGER PRIMARY KEY, ".toList := by decide
  have json : '\x00' ∉ " JSON)".toList := by decide
  rw [text_createTable]
  simp only [String.toList_append, List.mem_append, not_or]
  exact ⟨⟨⟨⟨verb, Sql.not_nul_quoteIdentifier_iff.mpr ht⟩, key⟩, hc⟩, json⟩

theorem clean_createIndex {d : IndexDescriptor} (hd : '\x00' ∉ d.name.toList)
    (hf : '\x00' ∉ (Sql.quoteLiteral d.field.jsonPath).toList) (ht : '\x00' ∉ table.toList)
    (hc : '\x00' ∉ column.toList) : '\x00' ∉ (createIndex d table column).text.toList := by
  have create : '\x00' ∉ "CREATE ".toList := by decide
  have unique : '\x00' ∉ (if d.isUnique then "UNIQUE " else "").toList := by
    split
    · decide
    · decide
  have index : '\x00' ∉ "INDEX IF NOT EXISTS ".toList := by decide
  have on : '\x00' ∉ " ON ".toList := by decide
  have «open» : '\x00' ∉ " (".toList := by decide
  have extract : '\x00' ∉ "json_extract(".toList := by decide
  have comma : '\x00' ∉ ", ".toList := by decide
  have close : '\x00' ∉ ")".toList := by decide
  have field : (Expr.field column d.field).text =
      "json_extract(" ++ column ++ ", " ++ Sql.quoteLiteral d.field.jsonPath ++ ")" := rfl
  rw [text_createIndex, IndexDescriptor.target, field]
  simp only [String.toList_append, List.mem_append, not_or]
  exact ⟨⟨⟨create, unique⟩, index⟩, ⟨⟨⟨⟨Sql.not_nul_quoteIdentifier_iff.mpr hd, on⟩,
    Sql.not_nul_quoteIdentifier_iff.mpr ht⟩, «open»⟩, ⟨⟨⟨extract, hc⟩, comma⟩, hf⟩, close⟩, close⟩

end Statement

namespace Engine

variable {st st' : Storage} {clock : Int} {name column : String}

theorem perform_createTable_clean (clean : '\x00' ∉ (Statement.createTable name column).text.toList)
    (h : st.createTable name column = .ok st') :
    perform clock (.createTable name column) [] st = .ok (.silent st') := by
  have performed : perform clock (.createTable name column) [] st =
      (st.createTable name column).map .silent := by
    unfold perform
    exact if_neg (unrefused_of_clean clean)
  rw [performed, h]
  rfl

theorem perform_createIndex_clean {d : IndexDescriptor}
    (clean : '\x00' ∉ (Statement.createIndex d name column).text.toList)
    (h : st.createIndex d name column = .ok st') :
    perform clock (.createIndex d name column) [] st = .ok (.silent st') := by
  have performed : perform clock (.createIndex d name column) [] st =
      (st.createIndex d name column).map .silent := by
    unfold perform
    exact if_neg (unrefused_of_clean clean)
  rw [performed, h]
  rfl

end Engine

theorem sameName_prefixed (table rest : String) : sameName table (table ++ "_" ++ rest) = false := by
  rw [Bool.eq_false_iff, ne_eq, Engine.sameName_iff, lower_prefixed]
  intro same
  cases List.self_eq_append_right.mp same

theorem Accepted.isReserved_prefixed {table : String} (h : Accepted table) (rest : String) :
    isReserved (table ++ "_" ++ rest) = false := by
  rw [Bool.eq_false_iff]
  intro reserved
  have hidden := Engine.isHidden_of_isReserved reserved
  rw [h.isHidden_prefixed, Engine.isHidden_iff] at hidden
  have whole : "sqlite_".toList <+: Text.lower table.toList ++ '_' :: Text.lower rest.toList := by
    rw [← lower_prefixed]
    exact List.isPrefixOf_iff_prefix.mp reserved
  have own : isReserved table = true :=
    List.isPrefixOf_iff_prefix.mpr
      (List.prefix_of_prefix_length_le whole (List.prefix_append ..) hidden.2)
  rw [h.unreserved] at own
  cases own

/-- In a database with nothing in it exactly the collections that have a name and a column that the
engine takes can be opened. -/
theorem Collection.exists_openNamed_iff {name : String} {column : Column} {clock : Int} :
    (∃ c st, (openNamed name column).run (Engine.executor clock) {} = (.ok c, st)) ↔
      Accepted name ∧ Usable column.name := by
  constructor
  · rintro ⟨c, st, opened⟩
    obtain ⟨-, -, between, o, created, performed, -⟩ := of_run_openNamed opened
    obtain ⟨noKeyword, notKey⟩ := Engine.usable_of_createTable created
    exact ⟨Database.accepted_of_opened opened, noKeyword,
      Engine.noExpression_of_createIndex (Engine.perform_createIndex performed), notKey⟩
  · rintro ⟨accepted, usable⟩
    let c : Collection := ⟨name, column⟩
    have named := Sql.not_nul_of_plain accepted.plain
    have plain := Sql.not_nul_of_plain column.isPlain
    have table : Engine.perform clock (.createTable name column.name) [] {} = .ok _ :=
      Engine.perform_createTable_clean (Statement.clean_createTable named plain)
        (Engine.createTable_empty usable accepted.unreserved)
    have indexed : '\x00' ∉ (c.indexName idIndex).toList := by
      have separator : '\x00' ∉ "_".toList := by decide
      have rest : '\x00' ∉ idIndex.name.toList := by decide
      rw [indexName, String.toList_append, String.toList_append, List.mem_append, List.mem_append,
        not_or, not_or]
      exact ⟨⟨named, separator⟩, rest⟩
    have literal : '\x00' ∉ (Sql.quoteLiteral idIndex.field.jsonPath).toList := by decide
    have index : Engine.perform clock (.createIndex (c.qualified idIndex) name column.name) [] _ =
        .ok _ :=
      Engine.perform_createIndex_clean (Statement.clean_createIndex indexed literal named plain)
        (Engine.createIndex_fresh usable (accepted.isReserved_prefixed _) (sameName_prefixed _ _))
    have created := Program.run_bind_ok (f := fun _ => pure ()) (Engine.run_send_performed index)
    rw [openNamed, if_pos accepted.plain]
    exact ⟨c, _, (Program.run_bind_ok (Engine.run_send_performed table)).trans
      (Program.run_bind_ok created)⟩

namespace Database

variable {config : StoreConfig} {path : Option String} {db : Database}

theorem column_of_openWith (h : openWith config path = .ok db) :
    db.column.name = config.documentColumn := by
  obtain ⟨_, -, h⟩ := Outcome.bind_eq_ok.mp h
  obtain ⟨column, named, h⟩ := Outcome.bind_eq_ok.mp h
  cases h
  unfold Sql.Column.ofName at named
  split at named
  · cases named
    rfl
  · cases named

theorem Run.uniform {calls : List DatabaseCall} {st : Storage} (run : db.Run calls st) :
    st.Uniform db.column.name := by
  induction run with
  | start => exact nofun
  | opened before name clock ok ih => exact ih.run (Collection.names_only_openNamed name db.column)
  | dropped before name clock ih =>
    refine ih.run ?_
    unfold dropCollection
    split
    · exact .bind (.execute nofun fun o => .done o) fun _ => .done ()
    · exact .fail _
  | called before name call clock ih =>
    exact ih.run ((Collection.sends_call call).mono fun _ _ sent => sent.names_only)

/-- A collection can be opened exactly if the engine takes its name and that of the column. In every
table of a database the name of the column then stands for the documents in all statements that
operations send, and all names in these statements stand for what is meant by them exactly if the
column does not take the name `rowid` from the key. -/
theorem names_resolve (accepted : openWith config path = .ok db) :
    (∀ name clock, (∃ c st, (db.collection name).run (Engine.executor clock) {} = (.ok c, st)) ↔
      Accepted name ∧ Usable config.documentColumn) ∧
    ∀ calls st, db.Run calls st → ∀ name t, st.table? name = some t →
      (∀ op : Operation, op.Uses db.column →
        (op.program ⟨name, db.column⟩).Sends fun s _ => s.ResolvesDocumentsIn t) ∧
      ((∀ op : Operation, op.Uses db.column →
        (op.program ⟨name, db.column⟩).Sends fun s _ => s.ResolvesIn t) ↔
        sameName "rowid" config.documentColumn = false) := by
  rw [← column_of_openWith accepted]
  refine ⟨fun name clock => Collection.exists_openNamed_iff, fun calls st run name t found => ?_⟩
  have own : t.column = db.column.name := run.uniform t (Engine.Storage.mem_of_table? found)
  have documents : t.column? db.column.name = some .document := Collection.column?_of_eq own
  refine ⟨fun op uses => ?_, fun resolves => ?_, fun visible op uses => ?_⟩
  · refine (op.names_only (c := ⟨name, db.column⟩) uses).mono fun s _ only m mem meant => ?_
    rcases only m mem with rfl | rfl
    · exact documents
    · cases meant
  · cases resolves (.call (.edit (.deleteOne none))) trivial with
    | execute first rest =>
      have key : t.column? "rowid" = some .key := first .rowKey (List.mem_singleton.mpr rfl)
      rw [← own]
      exact Engine.column?_rowid_iff.mp key
  · refine (op.names_only (c := ⟨name, db.column⟩) uses).mono fun s _ only m mem => ?_
    rcases only m mem with rfl | rfl
    · exact documents
    · exact Engine.column?_rowid_iff.mpr (own ▸ visible)

/-- Every plain identifier is accepted. -/
theorem openWith_column (column : Column) (path : Option String) :
    openWith { documentColumn := column.name } path =
      .ok ⟨{ documentColumn := column.name }, column, path⟩ := by
  have mode : JournalMode.ofText JournalMode.wal.text = .ok .wal := rfl
  have valid : StoreConfig.validate { documentColumn := column.name } = .ok () :=
    StoreConfig.validate_eq_ok.mpr ⟨⟨.wal, mode⟩, column.isPlain⟩
  have named : Column.ofName column.name = .ok column := dif_pos column.isPlain
  rw [openWith, valid, Outcome.ok_bind, named]
  rfl

/-- A column may take a further name of the key from it, as long as that is not `rowid`. -/
theorem names_resolve_alias :
    ∃ db st t, openWith { documentColumn := "_rowid_" } none = .ok db ∧
      db.Run [.opened "users"] st ∧ st.table? "users" = some t ∧
      t.column? "_rowid_" = some .document ∧ t.column? "rowid" = some .key ∧
      ∀ op : Operation, op.Uses db.column →
        (op.program ⟨"users", db.column⟩).Sends fun s _ => s.ResolvesIn t := by
  have accepted := openWith_column ⟨"_rowid_", by decide⟩ none
  obtain ⟨opens, resolves⟩ := names_resolve accepted
  obtain ⟨c, st, opened⟩ := (opens "users" 0).mpr
    ⟨⟨by decide, by decide, by decide⟩, ⟨by decide, by decide, by decide⟩⟩
  have run := Run.start.opened "users" 0 (congrArg (fun r => r.1.isOk) opened)
  rw [opened] at run
  obtain ⟨-, -, t, found, -, column, -⟩ := Collection.openNamed_ok rfl opened
  have visible : sameName "rowid" t.column = false := by
    rw [column]
    decide
  exact ⟨_, st, t, accepted, run, found, Collection.column?_of_eq column,
    Table.column?_rowid visible, (resolves _ st run "users" t found).2.mpr (by decide)⟩

/-- Columns that clash with the key or with the language are accepted, but then nothing opens. A
column called `rowid` leaves no name for the key. -/
theorem names_clash :
    (∀ column ∈ ["id", "Id", "order", "cast", "current_date"],
      ∃ db, openWith { documentColumn := column } none = .ok db ∧
        ¬∃ c st, (db.collection "users").run (Engine.executor 0) {} = (.ok c, st)) ∧
    ∃ db st t, openWith { documentColumn := "rowid" } none = .ok db ∧
      db.Run [.opened "users"] st ∧ st.table? "users" = some t ∧
      t.column? "rowid" = some .document ∧
      ¬Statement.ResolvesIn t (.delete "users" none true) := by
  have refused (column : Column) (h : ¬Usable column.name) :
      ∃ db, openWith { documentColumn := column.name } none = .ok db ∧
        ¬∃ c st, (db.collection "users").run (Engine.executor 0) {} = (.ok c, st) :=
    ⟨_, openWith_column column none, fun opened => h (Collection.exists_openNamed_iff.mp opened).2⟩
  constructor
  · simp only [List.forall_mem_cons]
    exact ⟨refused ⟨"id", by decide⟩ fun h => absurd h.notKey (by decide),
      refused ⟨"Id", by decide⟩ fun h => absurd h.notKey (by decide),
      refused ⟨"order", by decide⟩ fun h => absurd h.noKeyword (by decide),
      refused ⟨"cast", by decide⟩ fun h => absurd h.noExpression (by decide),
      refused ⟨"current_date", by decide⟩ fun h => absurd h.noExpression (by decide), nofun⟩
  · let db : Database := ⟨{ documentColumn := "rowid" }, ⟨"rowid", by decide⟩, none⟩
    obtain ⟨c, st, opened⟩ : ∃ c st,
        (db.collection "users").run (Engine.executor 0) {} = (.ok c, st) :=
      Collection.exists_openNamed_iff.mpr
        ⟨⟨by decide, by decide, by decide⟩, ⟨by decide, by decide, by decide⟩⟩
    have run := Run.start.opened "users" 0 (congrArg (fun r => r.1.isOk) opened)
    rw [opened] at run
    obtain ⟨-, -, t, found, -, column, -⟩ := Collection.openNamed_ok rfl opened
    have hidden : t.column? "rowid" = some .document := Collection.column?_of_eq column
    refine ⟨db, st, t, openWith_column db.column none, run, found, hidden, fun resolves => ?_⟩
    have key : t.column? "rowid" = some .key := resolves .rowKey (List.mem_singleton.mpr rfl)
    rw [hidden] at key
    cases key

end Database
end DocStore
