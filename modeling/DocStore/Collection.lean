import DocStore.Index.Sync
import DocStore.Json.Reader
import DocStore.Query.Predicate
import DocStore.Query.Update
import DocStore.Value.Conversion

/-! # Collections of documents

A collection is a table with a document column. Documents are JSON objects; the member `id` names a
document, and a built-in unique index keeps ids apart. Every operation on a collection is a program
of statements. Values come in unencoded, so the operations take the transforms of the application's
custom encoders, and those that insert take the ids to give to documents that have none. -/
set_option autoImplicit false

namespace DocStore

open Sql (Column)

abbrev Document := List (String × Json)

namespace Document

def idField : String := "id"

def toJson (d : Document) : Json := .object d

def text (d : Document) : String := d.toJson.text

def id? (d : Document) : Option Json := Json.lookup? idField d

/-- The document that a value encodes to, with the given id if it has none. -/
def ofValue (transforms : Transforms) (freshId : String) (v : Value) : Except Error Document := do
  match ← v.toJson transforms with
  | .object members =>
    if members.any fun m => m.1 == idField then pure members
    else pure (Json.insertMember idField (.string freshId) members)
  | found => throw (.notADocument found)

def ofCell (cell : Option Json) : Except Error Document :=
  match cell with
  | some (.string text) =>
    match Json.read? text with
    | some (.object members) => .ok members
    | _ => .error .serialization
  | some found => .error (.unexpected "document JSON text" found)
  | none => .error (.unexpected "document JSON text" .null)

end Document

/-- A handle to the table of a collection. -/
structure Collection where
  name : String
  column : Column

namespace Collection

/-- The built-in index that keeps ids apart. -/
def idIndex : IndexDescriptor := .ofField .unique ⟨Document.idField⟩

/-- The catalog name of an index of this collection. Index names are shared by all tables of a
database, so the name of the collection comes first. -/
def indexName (c : Collection) (d : IndexDescriptor) : String := c.name ++ "_" ++ d.name

def qualified (c : Collection) (d : IndexDescriptor) : IndexDescriptor := d.withName (c.indexName d)

def text (c : Collection) : String :=
  "Collection \x7b name: " ++ Text.quoted c.name ++ ", column: " ++ Text.quoted c.column.name ++
    ", .. \x7d"

/-! ## Indexes -/

def indexes (c : Collection) : Program (List IndexDescriptor) := IndexSync.list c.name

def createIndex (c : Collection) (d : IndexDescriptor) : Program Unit :=
  IndexSync.create c.name c.column.name (c.qualified d)

def dropIndex (c : Collection) (d : IndexDescriptor) : Program Bool := IndexSync.drop c.name d

def dropIndexByName (name : String) : Program Unit := IndexSync.dropByName name

/-- Drops all indexes but the one on ids, and says how many. -/
def dropAllIndexes (c : Collection) : Program Nat := do
  let existing ← c.indexes
  let others := existing.filter fun d => !d.same idIndex
  IndexSync.dropEach others
  pure others.length

/-- The desired indexes with their catalog names, and the index on ids if they lack it. -/
def desiredIndexes (c : Collection) (desired : List IndexDescriptor) : List IndexDescriptor :=
  let named := desired.map c.qualified
  if IndexDiff.covers named idIndex then named else c.qualified idIndex :: named

/-- Brings the indexes in line with the desired ones; the index on ids always stays. -/
def syncIndexes (c : Collection) (desired : List IndexDescriptor) : Program IndexDiff :=
  IndexSync.sync c.name c.column.name (c.desiredIndexes desired)

/-! ## Opening -/

/-- Opens a collection and creates its table and the index on ids if they are missing. -/
def openNamed (name : String) (column : Column) : Program Collection :=
  if Sql.isPlainIdentifier name then do
    let c : Collection := { name, column }
    let _ ← Program.send (.createTable name column.name) []
    c.createIndex idIndex
    pure c
  else .fail (.invalidCollectionName name)

/-! ## Finding -/

def conditionOf (c : Collection) (filter : Option Predicate) : Option Sql.Condition :=
  filter.map (Predicate.condition c.column.name)

def paramsOf (filter : Option Predicate) : List Json := (filter.map Predicate.params).getD []

def find (c : Collection) (filter : Option Predicate) (options : FindOptions) :
    Program (List Document) := do
  let out ← Program.send (.find c.name c.column.name (c.conditionOf filter) options)
    (paramsOf filter)
  Program.ofExcept (out.rows.mapM fun row => Document.ofCell row.head?)

def findOne (c : Collection) (filter : Option Predicate) (options : FindOptions) :
    Program (Option Document) := do
  let found ← c.find filter { options with limit := some 1 }
  pure found.head?

def hasId (transforms : Transforms) (id : Value) : Except Error Predicate := do
  let c ← Comparison.ofValue transforms ⟨Document.idField⟩ (.scalar .eq) id
  pure (.compare c)

def get (c : Collection) (transforms : Transforms) (id : Value) : Program (Option Document) := do
  let p ← Program.ofExcept (hasId transforms id)
  c.findOne (some p) {}

def countOf (out : QueryOutput) : Except Error Nat :=
  let found := out.scalar?.getD .null
  match found.number?.bind Number.toNat64? with
  | some n => .ok n
  | none => .error (.unexpected "row count" found)

def count (c : Collection) (filter : Option Predicate) : Program Nat := do
  let out ← Program.send (.count c.name (c.conditionOf filter)) (paramsOf filter)
  Program.ofExcept (countOf out)

/-! ## Inserting -/

/-- Inserts a document and answers with it as it is stored. When a conflict is ignored nothing is
stored, and the answer is the document that has the id, or else the one that was not stored. -/
def insert (c : Collection) (transforms : Transforms) (freshId : String) (v : Value)
    (onConflict : OnConflict) : Program Document := do
  let d ← Program.ofExcept (Document.ofValue transforms freshId v)
  let out ← Program.send (.insert c.name c.column.name onConflict true) [.string d.text]
  match out.scalar? with
  | some stored => Program.ofExcept (Document.ofCell (some stored))
  | none => do
    let existing ← c.get transforms (.ofJson (d.id?.getD .null))
    pure (existing.getD d)

/-- The documents of several values, each with the id it is to have if it has none. -/
def documentsOf (transforms : Transforms) (values : List (String × Value)) :
    Except Error (List Document) :=
  values.mapM fun (freshId, v) => Document.ofValue transforms freshId v

/-- Inserts several documents in one batch and answers with the number of rows written. All values
are encoded before anything is sent. -/
def insertMany (c : Collection) (transforms : Transforms) (values : List (String × Value))
    (onConflict : OnConflict) : Program Nat := do
  let ds ← Program.ofExcept (documentsOf transforms values)
  if ds.isEmpty then pure 0
  else
    Program.sendMany (.insert c.name c.column.name onConflict false)
      (ds.map fun d => [.string d.text])

/-! ## Changing -/

def change (s : Statement) (params : List Json) : Program Nat := do
  let out ← Program.send s params
  pure out.affected

def updateRows (c : Collection) (filter : Option Predicate) (u : Update) (onlyFirst : Bool) :
    Program Nat :=
  change (.update c.name c.column.name (u.expr c.column.name) (c.conditionOf filter) onlyFirst)
    (u.params ++ paramsOf filter)

def deleteRows (c : Collection) (filter : Option Predicate) (onlyFirst : Bool) : Program Nat :=
  change (.delete c.name (c.conditionOf filter) onlyFirst) (paramsOf filter)

def update (c : Collection) (filter : Option Predicate) (u : Update) : Program Nat :=
  c.updateRows filter u false

/-- Applies an update to the document that was inserted first of those that match. -/
def updateOne (c : Collection) (filter : Option Predicate) (u : Update) : Program Nat :=
  c.updateRows filter u true

def delete (c : Collection) (filter : Option Predicate) : Program Nat := c.deleteRows filter false

/-- Deletes the document that was inserted first of those that match. -/
def deleteOne (c : Collection) (filter : Option Predicate) : Program Nat := c.deleteRows filter true

end Collection
end DocStore
