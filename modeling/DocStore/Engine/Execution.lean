import DocStore.Engine.Catalog
import DocStore.Statement.Program

/-! # Executing statements

The meaning of each statement over the storage. A statement that fails changes nothing, and a batch
is one transaction: it is carried out as a whole or not at all. -/
set_option autoImplicit false

namespace DocStore.Engine

structure Outcome where
  output : QueryOutput
  storage : Storage

/-! ## Searching by an index -/

/-- The expression that a condition looks up: what it compares with given values, other than by
being different from them. -/
def lookup? : Sql.Condition → Option Sql.Expr
  | .compare op left right => if op != .neq && right.columns.isEmpty then some left else none
  | .member negated left first rest =>
    if !negated && (first :: rest).all (·.columns.isEmpty) then some left else none
  | .group _ c [] => lookup? c
  | .group _ _ _ => none

/-- Whether a condition looks up the keys of an index. -/
def StoredIndex.answers (t : Table) (c : Sql.Condition) (ix : StoredIndex) : Bool :=
  match lookup? c with
  | some (.extract (.column name) (.literal path)) =>
    t.column? name == t.column? ix.column && path == ix.descriptor.field.jsonPath
  | _ => false

namespace Table

/-! ## Selecting rows -/

/-- Checks that all columns exist, before any row is looked at. -/
def checkColumns (t : Table) (names : List String) : Except EngineCause Unit :=
  if names.all fun name => (t.column? name).isSome then .ok () else .error .noSuchColumn

def filterColumns (filter : Option Sql.Condition) : List String :=
  (filter.map Sql.Condition.columns).getD []

/-- How a search looks at documents: it reads the stored texts, unless an index has the keys that it
looks up. -/
def viewFor (t : Table) (c : Sql.Condition) : Node → Datum :=
  if t.indexes.any (StoredIndex.answers t c) then .json else .stored

/-- Whether a filter, if there is one, selects a row. -/
def selects (t : Table) (clock : Int) (filter : Option Sql.Condition) (row : Row) :
    Except EngineCause Bool :=
  match filter with
  | none => .ok true
  | some c => c.holds (t.scope (t.viewFor c) clock row)

def filterRows (test : Row → Except EngineCause Bool) : List Row → Except EngineCause (List Row)
  | [] => .ok []
  | row :: rows => do
    let selected ← test row
    let rest ← filterRows test rows
    pure (if selected then row :: rest else rest)

/-- The first rows that pass a test, up to a number of them. No row after these is looked at. -/
def firstRows (test : Row → Except EngineCause Bool) : Nat → List Row → Except EngineCause (List Row)
  | 0, _ | _, [] => .ok []
  | n + 1, row :: rows => do
    if ← test row then
      let rest ← firstRows test n rows
      pure (row :: rest)
    else firstRows test (n + 1) rows

/-- The rows that a filter selects in the order of their keys, or the first of them if there is a
limit. The rows are taken to be gone through in this order. If a condition has several parts of which
an index answers one, only the rows that this part selects are looked at in fact, and the rows that
an index answers may come in the order of its keys. -/
def selected (t : Table) (clock : Int) (filter : Option Sql.Condition) (limit : Option Nat) :
    Except EngineCause (List Row) := do
  t.checkColumns (filterColumns filter)
  match limit with
  | none => filterRows (t.selects clock filter) t.rows
  | some n => firstRows (t.selects clock filter) n t.rows

def rowid (t : Table) (row : Row) : Scalar :=
  ((t.column? "rowid").map fun c => (cell .stored row c).toScalar).getD .null

def least : List Scalar → Option Scalar
  | [] => none
  | a :: rest =>
    match least rest with
    | none => some a
    | some b => if a.compare b == .gt then some b else some a

/-- The rows of the table that share the least `rowid` of some rows. -/
def firstOf (t : Table) (rows : List Row) : List Row :=
  match least (rows.map t.rowid) with
  | none => []
  | some a => t.rows.filter fun row => (t.rowid row).collides a

/-- The rows that a statement changes. To find the first by their keys, no row after it is looked
at. -/
def targets (t : Table) (clock : Int) (filter : Option Sql.Condition) (onlyFirst : Bool) :
    Except EngineCause (List Row) := do
  if onlyFirst then
    let limit := if t.column? "rowid" = some .key then some 1 else none
    let rows ← t.selected clock filter limit
    pure (t.firstOf rows)
  else t.selected clock filter none

/-! ## Ordering and paging -/

def sortKeys (t : Table) (clock : Int) (e : Sql.Expr) :
    List Row → Except EngineCause (List (Scalar × Row))
  | [] => .ok []
  | row :: rows => do
    let k ← e.evalScalar (t.scope .stored clock row)
    let rest ← sortKeys t clock e rows
    pure ((k, row) :: rest)

/-- Whether the first value may stand before the second. -/
def mayPrecede (d : Direction) (a b : Scalar) : Bool :=
  match d with
  | .ascending => a.compare b != .gt
  | .descending => a.compare b != .lt

/-- The rows in the order of the options; rows with equal values keep their order. -/
def sorted (t : Table) (clock : Int) (column : String) (options : FindOptions) (rows : List Row) :
    Except EngineCause (List Row) :=
  match options.orderBy with
  | none => .ok rows
  | some f => do
    let keyed ← t.sortKeys clock (.field column f) rows
    let ordered := keyed.mergeSort fun a b => mayPrecede options.direction a.1 b.1
    pure (ordered.map (·.2))

/-- Whether a bound of a page fits into the engine's integers. -/
def fits (bound : Option Nat) : Bool := bound.all fun n => n < 9223372036854775808

/-- How many rows are looked for: none if the bounds leave or allow none, all if they are to be
sorted. -/
def reach (options : FindOptions) : Option Nat :=
  if options.limit == some 0 || !(fits options.limit && fits options.offset) then some 0
  else if options.orderBy.isSome then none
  else options.limit.map (options.offset.getD 0 + ·)

def page (options : FindOptions) (rows : List Row) : Except EngineCause (List Row) :=
  if options.limit == some 0 then .ok []
  else if fits options.limit && fits options.offset then
    let rest := rows.drop (options.offset.getD 0)
    .ok (match options.limit with
      | some n => rest.take n
      | none => rest)
  else .error .datatypeMismatch

end Table

/-! ## Changing documents -/

def storedDocument : Datum → Except EngineCause Node
  | .json n | .stored n => .ok n
  | .scalar (.text s) =>
    match Node.read? s with
    | some n => .ok n
    | none => .error .malformedJson
  | .scalar _ => .error .datatypeMismatch

/-- The row with a new value in a column. The integer key cannot change. -/
def rewriteRow (row : Row) (value : Datum) : ColumnRef → Except EngineCause Row
  | .document => do
    let document ← storedDocument value
    pure { row with document }
  | .key =>
    if value.toScalar.quantity? == (Scalar.quantity? (.number (.ofInt row.key))) then .ok row
    else .error .datatypeMismatch

/-- The row with the value that an expression has over it in a column. -/
def Table.revised (t : Table) (clock : Int) (column : ColumnRef) (value : Sql.Expr) (row : Row) :
    Except EngineCause Row := do
  let new ← value.eval (t.scope .stored clock row)
  rewriteRow row new column

/-! ## Binding -/

def bindFilter (filter : Option Sql.Condition) (params : List Json) :
    Except EngineCause (Option Sql.Condition) :=
  match filter with
  | none => if params.isEmpty then .ok none else .error .badStatement
  | some c =>
    match c.bind params with
    | some (c, []) => .ok (some c)
    | _ => .error .badStatement

def bindValue (value : Sql.Expr) (params : List Json) :
    Except EngineCause (Sql.Expr × List Json) :=
  match value.bind params with
  | some bound => .ok bound
  | none => .error .badStatement

/-! ## Statements -/

def columnOf (t : Table) (name : String) : Except EngineCause ColumnRef :=
  match t.column? name with
  | some c => .ok c
  | none => .error .noSuchColumn

/-- The text of a parameter that must be the only one; other scalars match no name. -/
def onlyText : List Json → Except EngineCause String
  | [.string s] => .ok s
  | [_] => .ok ""
  | _ => .error .badStatement

def noParams (params : List Json) : Except EngineCause Unit :=
  if params.isEmpty then .ok () else .error .badStatement

def Outcome.silent (st : Storage) : Outcome := { output := {}, storage := st }

def insertDocument (st : Storage) (table column : String) (onConflict : OnConflict)
    (returning : Bool) (params : List Json) : Except EngineCause Outcome := do
  let t ← st.tableOf table
  let c ← columnOf t column
  let value ← match params with
    | [p] => jsonOf (.scalar (.ofJson p))
    | _ => throw .badStatement
  if c = .key then throw .datatypeMismatch
  let document ← storedDocument value
  match ← t.insert onConflict document with
  | none => pure (.silent st)
  | some t =>
    let rows := if returning then [[Json.string document.text]] else []
    pure { output := { rows, affected := 1 }, storage := st.replaceTable t }

def findDocuments (st : Storage) (clock : Int) (table column : String)
    (filter : Option Sql.Condition) (options : FindOptions) (params : List Json) :
    Except EngineCause QueryOutput := do
  let t ← st.tableOf table
  let c ← columnOf t column
  let filter ← bindFilter filter params
  let found ← t.selected clock filter (Table.reach options)
  let found ← t.sorted clock column options found
  let found ← Table.page options found
  pure { rows := found.map fun row => [(Table.cell .stored row c).toScalar.toJson] }

def countDocuments (st : Storage) (clock : Int) (table : String) (filter : Option Sql.Condition)
    (params : List Json) : Except EngineCause QueryOutput := do
  let t ← st.tableOf table
  let filter ← bindFilter filter params
  let found ← t.selected clock filter none
  pure { rows := [[(Scalar.number (.ofInt found.length)).toJson]] }

def updateDocuments (st : Storage) (clock : Int) (table column : String) (value : Sql.Expr)
    (filter : Option Sql.Condition) (onlyFirst : Bool) (params : List Json) :
    Except EngineCause Outcome := do
  let t ← st.tableOf table
  let c ← columnOf t column
  let (value, params) ← bindValue value params
  let filter ← bindFilter filter params
  t.checkColumns value.columns
  let rows ← t.targets clock filter onlyFirst
  let t ← t.updateRows (t.revised clock c value) rows
  pure { output := { affected := rows.length }, storage := st.replaceTable t }

/-- The indexes from which a deletion deletes by the keys of its rows: none if the table is emptied as
a whole, and not the one by which the rows were found. -/
def deletionIndexes (t : Table) (filter : Option Sql.Condition) (onlyFirst : Bool) :
    List StoredIndex :=
  if onlyFirst then t.indexes
  else match filter with
    | none => []
    | some c => t.indexes.eraseP (StoredIndex.answers t c)

def deleteDocuments (st : Storage) (clock : Int) (table : String) (filter : Option Sql.Condition)
    (onlyFirst : Bool) (params : List Json) : Except EngineCause Outcome := do
  let t ← st.tableOf table
  let filter ← bindFilter filter params
  let rows ← t.targets clock filter onlyFirst
  let _ ← t.readKeys (deletionIndexes t filter onlyFirst) rows
  let t := t.deleteRows (rows.map Row.key)
  pure { output := { affected := rows.length }, storage := st.replaceTable t }

/-- Carries out a statement at a time in seconds. -/
def perform (clock : Int) (s : Statement) (params : List Json) (st : Storage) :
    Except EngineCause Outcome := do
  if s.text.toList.contains '\x00' then throw .badStatement
  match s with
  | .createTable table column =>
    noParams params
    let st ← st.createTable table column
    pure (.silent st)
  | .createIndex index table column =>
    noParams params
    let st ← st.createIndex index table column
    pure (.silent st)
  | .dropTable table =>
    noParams params
    let st ← st.dropTable table
    pure (.silent st)
  | .dropIndex name =>
    noParams params
    pure (.silent (st.dropIndex name))
  | .listIndexes =>
    let table ← onlyText params
    let rows := (st.indexesOf table).map fun (name, sql) => [Json.string name, .string sql]
    pure { output := { rows }, storage := st }
  | .listNames =>
    let kind ← onlyText params
    pure { output := { rows := (st.namesOf kind).map fun name => [.string name] }, storage := st }
  | .insert table column onConflict returning =>
    insertDocument st table column onConflict returning params
  | .find table column filter options =>
    let output ← findDocuments st clock table column filter options params
    pure { output, storage := st }
  | .count table filter =>
    let output ← countDocuments st clock table filter params
    pure { output, storage := st }
  | .update table column value filter onlyFirst =>
    updateDocuments st clock table column value filter onlyFirst params
  | .delete table filter onlyFirst => deleteDocuments st clock table filter onlyFirst params

/-! ## Executors -/

/-- Carries out a statement, or leaves the storage as it is. -/
def execute (clock : Int) (s : Statement) (params : List Json) (st : Storage) :
    Except Error QueryOutput × Storage :=
  match perform clock s params st with
  | .ok o => (.ok o.output, o.storage)
  | .error cause => (.error (.engine cause), st)

/-- Carries out a batch as one transaction. -/
def executeMany (clock : Int) (s : Statement) (batch : List (List Json)) (st : Storage) :
    Except Error Nat × Storage :=
  match executeEach (execute clock s) batch st with
  | (.ok n, st) => (.ok n, st)
  | (.error e, _) => (.error e, st)

def executor (clock : Int) : Executor Storage where
  execute := execute clock
  executeMany := executeMany clock

end DocStore.Engine
