import DocStore.Engine.Evaluation
import DocStore.Index.Descriptor
import DocStore.Statement.Basic
import DocStore.Text.Blank

/-! # Tables and their indexes

A table holds rows of an integer key and a document, in the order of their keys. Each index of a
table gives every row an index key; in a unique index no two rows have equal index keys other than
null. Rows come in through `insert`, `updateRow` and `addIndex`, and each of them refuses to break
that rule.

The keys of a row are computed when it comes in, from the document that has just been made, and stay
as they are. They are computed again, from the text that is stored, when an index is added and when a
row is deleted; this fails if the text is nested too deep to be read. -/
set_option autoImplicit false

namespace DocStore.Engine

structure Row where
  key : Nat
  document : Node

structure StoredIndex where
  descriptor : IndexDescriptor
  /-- The column that the index reads documents from. -/
  column : String
  definition : String

structure Table where
  name : String
  column : String
  rows : List Row := []
  /-- The indexes, the latest first; this is the order in which they are checked. -/
  indexes : List StoredIndex := []

/-! ## Columns -/

/-- Whether two names are the same to the engine, which ignores the case of ASCII letters. -/
def sameName (a b : String) : Bool := Text.lower a.toList == Text.lower b.toList

def keyColumn : String := "id"

/-- Further names of the integer key, for as long as no column has them. -/
def keyAliases : List String := ["rowid", "oid", "_rowid_"]

inductive ColumnRef where
  | key
  | document
deriving DecidableEq

namespace Table

/-- What a name stands for among the columns proper, which is all that an index may use. -/
def ownColumn? (t : Table) (name : String) : Option ColumnRef :=
  if sameName name t.column then some .document
  else if sameName name keyColumn then some .key
  else none

def column? (t : Table) (name : String) : Option ColumnRef :=
  (t.ownColumn? name).orElse fun _ =>
    if keyAliases.any (sameName name) then some .key else none

/-- The value of a column of a row; its document is looked at as stored text or as JSON that has just
been made. -/
def cell (view : Node → Datum) (row : Row) : ColumnRef → Datum
  | .key => .scalar (.number (.ofInt row.key))
  | .document => view row.document

def scope (t : Table) (view : Node → Datum) (clock : Int) (row : Row) : Scope where
  cell? name := (t.column? name).map (cell view row)
  clock := clock

end Table

/-! ## Index keys -/

namespace StoredIndex

def isUnique (ix : StoredIndex) : Bool := ix.descriptor.isUnique

def name (ix : StoredIndex) : String := ix.descriptor.name

/-- The key that an index has for a row. -/
def keyOf (t : Table) (ix : StoredIndex) (row : Row) : Except EngineCause Scalar :=
  (Sql.Expr.field ix.column ix.descriptor.field).evalScalar (t.scope .json 0 row)

/-- The key of a row, computed again from the text that is stored. -/
def readKey (t : Table) (ix : StoredIndex) (row : Row) : Except EngineCause Scalar :=
  (Sql.Expr.field ix.column ix.descriptor.field).evalScalar (t.scope .stored 0 row)

/-- Whether a row has an index key that collides with the given one. -/
def collidesWith (t : Table) (ix : StoredIndex) (k : Scalar) (row : Row) : Bool :=
  match ix.keyOf t row with
  | .ok other => k.collides other
  | .error _ => false

end StoredIndex

namespace Table

/-- The keys of rows that are to be deleted, by which their entries in the indexes are found. -/
def readKeys (t : Table) (indexes : List StoredIndex) (rows : List Row) :
    Except EngineCause (List (List Scalar)) :=
  rows.mapM fun row => indexes.mapM fun ix => ix.readKey t row

/-! ## Inserting -/

/-- A key greater than all keys in use. -/
def nextKey (t : Table) : Nat := t.rows.foldl (fun n row => max n row.key) 0 + 1

/-- The rows that remain when a new row comes in, after the checks of all indexes: nothing if the
row is to be skipped. A row that is replaced is deleted from the other indexes by its keys. -/
def accept (t : Table) (onConflict : OnConflict) (row : Row) :
    List StoredIndex → List Row → Except EngineCause (Option (List Row))
  | [], rows => .ok (some rows)
  | ix :: indexes, rows => do
    let k ← ix.keyOf t row
    if ix.isUnique && rows.any (ix.collidesWith t k) then
      match onConflict with
      | .raise => throw (.uniqueViolation ix.name)
      | .ignore => pure none
      | .replace =>
        let others := t.indexes.filter fun other => other.name != ix.name
        let _ ← t.readKeys others (rows.filter (ix.collidesWith t k))
        accept t onConflict row indexes (rows.filter fun r => !ix.collidesWith t k r)
    else accept t onConflict row indexes rows

/-- The table with a document inserted at the end, or nothing if the document is skipped. -/
def insert (t : Table) (onConflict : OnConflict) (document : Node) :
    Except EngineCause (Option Table) := do
  let row : Row := { key := t.nextKey, document }
  let rows ← t.accept onConflict row t.indexes t.rows
  pure (rows.map fun rows => { t with rows := rows ++ [row] })

/-! ## Updating -/

/-- Checks that a new form of a row collides with no other row. -/
def checkUnique (t : Table) (row : Row) : List StoredIndex → Except EngineCause Unit
  | [] => .ok ()
  | ix :: indexes => do
    let k ← ix.keyOf t row
    if ix.isUnique && t.rows.any (fun r => r.key != row.key && ix.collidesWith t k r) then
      throw (.uniqueViolation ix.name)
    else checkUnique t row indexes

/-- The table with a new form of the row of the same key. -/
def updateRow (t : Table) (row : Row) : Except EngineCause Table := do
  t.checkUnique row t.indexes
  pure { t with rows := t.rows.map fun r => if r.key = row.key then row else r }

/-- The table with new forms of rows, each of them made and checked before the next. -/
def updateRows (t : Table) (revise : Row → Except EngineCause Row) :
    List Row → Except EngineCause Table
  | [] => .ok t
  | row :: rows => do
    let new ← revise row
    let t ← t.updateRow new
    t.updateRows revise rows

/-! ## Deleting -/

def deleteRows (t : Table) (keys : List Nat) : Table :=
  { t with rows := t.rows.filter fun row => !keys.contains row.key }

/-! ## Indexing -/

def hasCollision : List Scalar → Bool
  | [] => false
  | k :: ks => ks.any k.collides || hasCollision ks

def addIndex (t : Table) (ix : StoredIndex) : Except EngineCause Table := do
  let ks ← t.rows.mapM (ix.readKey t)
  if ix.isUnique && hasCollision ks then throw (.uniqueViolation ix.name)
  else pure { t with indexes := ix :: t.indexes }

end Table
end DocStore.Engine
