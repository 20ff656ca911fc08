import DocStore.Index.Catalog
import DocStore.Index.Diff
import DocStore.Statement.Program

/-! # Managing the indexes of a table

Programs that read the indexes of a table from the catalog, create and drop them, and bring them in
line with a list of desired ones. The catalog is read anew each time. Synchronising first creates
and then drops; when a statement fails, what was done before it stays. -/
set_option autoImplicit false

namespace DocStore.IndexSync

def textCell (expected : String) (cell : Option Json) : Except Error String :=
  match cell with
  | some (.string s) => .ok s
  | some j => .error (.unexpected expected j)
  | none => .error (.unexpected expected .null)

def descriptorOfRow (row : List Json) : Except Error IndexDescriptor := do
  let name ← textCell "index name" row[0]?
  let sql ← textCell "index sql" row[1]?
  IndexDescriptor.ofCatalog name sql

/-- The indexes of a table in the order of their names. -/
def list (table : String) : Program (List IndexDescriptor) := do
  let out ← Program.send .listIndexes [.string table]
  Program.ofExcept (out.rows.mapM descriptorOfRow)

def create (table column : String) (index : IndexDescriptor) : Program Unit := do
  let _ ← Program.send (.createIndex index table column) []
  pure ()

def dropByName (name : String) : Program Unit := do
  let _ ← Program.send (.dropIndex name) []
  pure ()

/-- Drops the index of the same kind and field, under the name that the catalog has for it; says
whether there was one. -/
def drop (table : String) (index : IndexDescriptor) : Program Bool := do
  let existing ← list table
  match existing.find? index.same with
  | some found => do
    dropByName found.name
    pure true
  | none => pure false

def createEach (table column : String) : List IndexDescriptor → Program Unit
  | [] => pure ()
  | d :: ds => do
    create table column d
    createEach table column ds

def dropEach : List IndexDescriptor → Program Unit
  | [] => pure ()
  | d :: ds => do
    dropByName d.name
    dropEach ds

def dropAll (table : String) : Program Nat := do
  let existing ← list table
  dropEach existing
  pure existing.length

/-- Creates the desired indexes that are missing, then drops those that are not desired. -/
def sync (table column : String) (desired : List IndexDescriptor) : Program IndexDiff := do
  let existing ← list table
  let diff := IndexDiff.between desired existing
  createEach table column diff.create
  dropEach diff.drop
  pure diff

end DocStore.IndexSync
