import DocStore.Engine.Table

/-! # The catalog of a database

A database is a list of tables. Names of tables and indexes are compared without regard to the case
of ASCII letters; all indexes of a database share one space of names, which they also share with the
tables. Names beginning with `sqlite_` are the engine's own. -/
set_option autoImplicit false

namespace DocStore.Engine

/-- What a database holds: its tables in the order of their creation. -/
structure Storage where
  tables : List Table := []

/-! ## Names -/

def isReserved (name : String) : Bool :=
  "sqlite_".toList.isPrefixOf (Text.lower name.toList)

/-- Whether a name is left out of listings: `sqlite`, any one character, and any rest. -/
def isHidden (name : String) : Bool :=
  let cs := Text.lower name.toList
  "sqlite".toList.isPrefixOf cs && 7 ≤ cs.length

def catalogTables : List String :=
  ["sqlite_master", "sqlite_schema", "sqlite_temp_master", "sqlite_temp_schema"]

/-- The words that cannot stand where a column is named without quotes. -/
def keywords : List String :=
  ["add", "all", "alter", "and", "as", "autoincrement", "between", "case", "check", "collate",
    "commit", "constraint", "create", "default", "deferrable", "delete", "distinct", "drop",
    "else", "escape", "except", "exists", "foreign", "from", "group", "having", "in", "index",
    "insert", "intersect", "into", "is", "isnull", "join", "limit", "not", "nothing", "notnull",
    "null", "on", "or", "order", "primary", "references", "returning", "select", "set", "table",
    "then", "to", "transaction", "union", "unique", "update", "using", "values", "when", "where"]

/-- Further words that cannot stand for a column inside an expression. -/
def expressionKeywords : List String :=
  ["cast", "raise", "current_date", "current_time", "current_timestamp"]

def isKeyword (name : String) : Bool := keywords.any (sameName name)

namespace Storage

/-! ## Looking up -/

def table? (st : Storage) (name : String) : Option Table :=
  st.tables.find? fun t => sameName t.name name

def tableOf (st : Storage) (name : String) : Except EngineCause Table :=
  match st.table? name with
  | some t => .ok t
  | none => .error .noSuchTable

def hasTable (st : Storage) (name : String) : Bool := (st.table? name).isSome

def hasIndex (st : Storage) (name : String) : Bool :=
  st.tables.any fun t => t.indexes.any fun ix => sameName ix.name name

def replaceTable (st : Storage) (t : Table) : Storage :=
  { tables := st.tables.map fun u => if sameName u.name t.name then t else u }

/-! ## Creating and dropping -/

/-- A table that exists is kept as it is. -/
def createTable (st : Storage) (name column : String) : Except EngineCause Storage :=
  if isKeyword column then .error .badStatement
  else if isReserved name then .error .reservedName
  else if st.hasTable name then .ok st
  else if st.hasIndex name then .error .nameTaken
  else if sameName column keyColumn then .error .badStatement
  else .ok { tables := st.tables ++ [{ name, column }] }

/-- An index whose name exists is kept as it is, whatever its field and its table. -/
def createIndex (st : Storage) (d : IndexDescriptor) (table column : String) :
    Except EngineCause Storage := do
  if isKeyword column || expressionKeywords.any (sameName column) then throw .badStatement
  let t ← st.tableOf table
  if isReserved d.name then throw .reservedName
  if st.hasTable d.name then throw .nameTaken
  if st.hasIndex d.name then pure st
  else if (t.ownColumn? column).isNone then throw .noSuchColumn
  else
    let t ← t.addIndex { descriptor := d, column, definition := d.catalogText table column }
    pure (st.replaceTable t)

def dropTable (st : Storage) (name : String) : Except EngineCause Storage :=
  if catalogTables.any (sameName name) then .error .reservedName
  else .ok { tables := st.tables.filter fun t => !sameName t.name name }

def dropIndex (st : Storage) (name : String) : Storage :=
  { tables := st.tables.map fun t =>
      { t with indexes := t.indexes.filter fun ix => !sameName ix.name name } }

/-! ## Listing -/

def sortNames (names : List String) : List String := names.mergeSort fun a b => !decide (b < a)

/-- Names and definitions of the indexes of a table, by name. -/
def indexesOf (st : Storage) (table : String) : List (String × String) :=
  let found := (st.tables.filter fun t => t.name == table).flatMap fun t =>
    t.indexes.map fun ix => (ix.name, ix.definition)
  found.mergeSort fun a b => !decide (b.1 < a.1)

/-- Names of the tables or of the indexes that listings show, by name. -/
def namesOf (st : Storage) (kind : String) : List String :=
  let names :=
    if kind = "table" then st.tables.map Table.name
    else if kind = "index" then st.tables.flatMap fun t => t.indexes.map StoredIndex.name
    else []
  sortNames (names.filter fun n => !isHidden n)

end Storage
end DocStore.Engine
