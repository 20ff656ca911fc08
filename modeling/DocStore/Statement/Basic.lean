import DocStore.Index.Descriptor
import DocStore.Sql.Condition
import DocStore.Sql.Fragment

/-! # Statements

The statements that the document store sends, as data, and their text. Conditions and expressions
in them have placeholders; the parameters travel beside the statement. -/
set_option autoImplicit false

namespace DocStore

open Sql (Expr Condition)

/-- What an insertion does when a unique index has the key already. -/
inductive OnConflict where
  | raise
  | replace
  | ignore
deriving DecidableEq

def OnConflict.verb : OnConflict → String
  | raise => "INSERT"
  | replace => "INSERT OR REPLACE"
  | ignore => "INSERT OR IGNORE"

inductive Direction where
  | ascending
  | descending
deriving DecidableEq

def Direction.text : Direction → String
  | ascending => "ASC"
  | descending => "DESC"

structure FindOptions where
  /-- The field to sort by. Without it the engine gives no order: documents come in the order of
  insertion as long as it goes through the table, which is assumed here, and in the order of an index
  where it answers the search from one. -/
  orderBy : Option FieldPath := none
  direction : Direction := .ascending
  offset : Option Nat := none
  limit : Option Nat := none

inductive Statement where
  | createTable (table column : String)
  | createIndex (index : IndexDescriptor) (table column : String)
  | dropTable (table : String)
  | dropIndex (name : String)
  /-- Names and statements of the indexes of a table, by name. -/
  | listIndexes
  /-- Names of the tables or of the indexes, by name. -/
  | listNames
  | insert (table column : String) (onConflict : OnConflict) (returning : Bool)
  | find (table column : String) (filter : Option Condition) (options : FindOptions)
  | count (table : String) (filter : Option Condition)
  /-- Gives the document column a new value in all rows, or in the first row, that match. -/
  | update (table column : String) (value : Expr) (filter : Option Condition) (onlyFirst : Bool)
  | delete (table : String) (filter : Option Condition) (onlyFirst : Bool)

namespace Statement

/-! ## Parts of the text -/

def whereText : Option Condition → String
  | none => ""
  | some c => " WHERE " ++ c.text

def selectText (columns table : String) (filter : Option Condition) : String :=
  "SELECT " ++ columns ++ " FROM " ++ Sql.quoteIdentifier table ++ whereText filter

def firstRowText (table : String) (filter : Option Condition) : String :=
  selectText "rowid" table filter ++ " ORDER BY rowid LIMIT 1"

def targetText (table : String) (filter : Option Condition) (onlyFirst : Bool) : String :=
  if onlyFirst then " WHERE rowid IN (" ++ firstRowText table filter ++ ")"
  else whereText filter

def orderText (column : String) (o : FindOptions) : String :=
  match o.orderBy with
  | none => ""
  | some f => " ORDER BY " ++ (Expr.field column f).text ++ " " ++ o.direction.text

def natText (n : Nat) : String := String.ofList (Nat.toDigits 10 n)

/-- An offset needs a limit before it; the limit -1 means that there is none. -/
def pagingText (o : FindOptions) : String :=
  (match o.limit, o.offset with
    | some n, _ => " LIMIT " ++ natText n
    | none, some _ => " LIMIT -1"
    | none, none => "") ++
  (match o.offset with
    | some n => " OFFSET " ++ natText n
    | none => "")

/-- The query for the indexes of a table, which is its parameter. -/
def listIndexesText : String :=
  "SELECT name, sql FROM sqlite_master WHERE type = 'index' AND tbl_name = ? AND " ++
    "sql IS NOT NULL ORDER BY name"

/-- The query for the names of the kind of object that is its parameter. -/
def listNamesText : String :=
  "SELECT name FROM sqlite_master WHERE type = ? AND sql IS NOT NULL AND " ++
    "name NOT LIKE 'sqlite_%' ORDER BY name"

/-! ## The whole text -/

def text : Statement → String
  | createTable table column =>
    "CREATE TABLE IF NOT EXISTS " ++ Sql.quoteIdentifier table ++ " (id INTEGER PRIMARY KEY, " ++
      column ++ " JSON)"
  | createIndex index table column => index.createText table column
  | dropTable table => "DROP TABLE IF EXISTS " ++ Sql.quoteIdentifier table
  | dropIndex name => IndexDescriptor.dropText name
  | listIndexes => listIndexesText
  | listNames => listNamesText
  | insert table column onConflict returning =>
    onConflict.verb ++ " INTO " ++ Sql.quoteIdentifier table ++ " (" ++ column ++
      ") VALUES (json(?))" ++ (if returning then " RETURNING " ++ column else "")
  | find table column filter options =>
    selectText column table filter ++ orderText column options ++ pagingText options
  | count table filter => selectText "COUNT(*)" table filter
  | update table column value filter onlyFirst =>
    "UPDATE " ++ Sql.quoteIdentifier table ++ " SET " ++ column ++ " = " ++ value.text ++
      targetText table filter onlyFirst
  | delete table filter onlyFirst =>
    "DELETE FROM " ++ Sql.quoteIdentifier table ++ targetText table filter onlyFirst

end Statement
end DocStore
