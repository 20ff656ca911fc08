import DocStore.Collection
import DocStore.Config
import DocStore.Engine.Execution

/-! # Databases

A database hands out collections, lists them and drops them. What its statements do is up to the
executor that runs its programs; `Engine.executor` is the storage engine. -/
set_option autoImplicit false

namespace DocStore

structure Database where
  config : StoreConfig
  column : Sql.Column
  /-- The file that holds the database, unless it is kept in memory. -/
  path : Option String

namespace Database

def openWith (config : StoreConfig) (path : Option String) : Except Error Database := do
  config.validate
  let column ← Sql.Column.ofName config.documentColumn
  pure { config, column, path }

def collection (db : Database) (name : String) : Program Collection :=
  Collection.openNamed name db.column

def nameOfRow (row : List Json) : Except Error String :=
  IndexSync.textCell "catalog name" row.head?

def catalogNames (kind : String) : Program (List String) := do
  let out ← Program.send .listNames [.string kind]
  Program.ofExcept (out.rows.mapM nameOfRow)

def collectionNames : Program (List String) := catalogNames "table"

def dropTable (name : String) : Program Unit := do
  let _ ← Program.send (.dropTable name) []
  pure ()

/-- Drops a collection and its indexes, if it exists. -/
def dropCollection (name : String) : Program Unit :=
  if Sql.isPlainIdentifier name then dropTable name else .fail (.invalidCollectionName name)

def dropTables : List String → Program Unit
  | [] => pure ()
  | name :: names => do
    dropTable name
    dropTables names

def dropIndexes : List String → Program Unit
  | [] => pure ()
  | name :: names => do
    IndexSync.dropByName name
    dropIndexes names

def dropAllCollections : Program Nat := do
  let names ← collectionNames
  dropTables names
  pure names.length

/-- Drops all indexes of the database, those on ids included, and says how many there were. -/
def dropAllIndexes : Program Nat := do
  let names ← catalogNames "index"
  dropIndexes names
  pure names.length

def executorText : String := "SqliteExecutor \x7b .. \x7d"

end Database
end DocStore
