import DocStore.Sql.Expr

/-! # Index descriptors

A descriptor says that a field is indexed, perhaps uniquely, and under which name. What an index is
for is its kind and its field; the name only says where the catalog keeps it, so two descriptors of
one kind and field describe the same index whatever they are called. -/
set_option autoImplicit false

namespace DocStore

inductive IndexKind where
  | path
  | unique
deriving DecidableEq

def IndexKind.text : IndexKind → String
  | path => "path"
  | unique => "unique"

def IndexKind.ofText? (s : String) : Option IndexKind :=
  [IndexKind.path, .unique].find? fun k => k.text == s

structure IndexDescriptor where
  kind : IndexKind
  field : FieldPath
  name : String
deriving DecidableEq

namespace IndexDescriptor

def derivedName (kind : IndexKind) (field : FieldPath) : String :=
  "idx_" ++ kind.text ++ "_" ++
    String.ofList (field.text.toList.map fun c => if c = '.' then '_' else c)

def ofField (kind : IndexKind) (field : FieldPath) : IndexDescriptor :=
  { kind, field, name := derivedName kind field }

def withName (d : IndexDescriptor) (name : String) : IndexDescriptor := { d with name }

def isUnique (d : IndexDescriptor) : Bool := d.kind == .unique

/-- What the index is for. -/
def identity (d : IndexDescriptor) : IndexKind × FieldPath := (d.kind, d.field)

/-- Whether two descriptors describe the same index. -/
def same (d e : IndexDescriptor) : Bool := d.identity == e.identity

def text (d : IndexDescriptor) : String :=
  "Index(" ++ d.kind.text ++ ", " ++ d.field.text ++ ", " ++ d.name ++ ")"

/-! ## Statements -/

/-- The part of the statement after the kind of index. -/
def target (d : IndexDescriptor) (table column : String) : String :=
  Sql.quoteIdentifier d.name ++ " ON " ++ Sql.quoteIdentifier table ++ " (" ++
    (Sql.Expr.field column d.field).text ++ ")"

/-- The statement that creates the index on a table unless its name is taken. -/
def createText (d : IndexDescriptor) (table column : String) : String :=
  "CREATE " ++ (if d.isUnique then "UNIQUE " else "") ++ "INDEX IF NOT EXISTS " ++
    d.target table column

/-- The form in which a catalog keeps that statement. -/
def catalogText (d : IndexDescriptor) (table column : String) : String :=
  "CREATE " ++ (if d.isUnique then "UNIQUE " else "") ++ "INDEX " ++ d.target table column

def dropText (name : String) : String := "DROP INDEX IF EXISTS " ++ Sql.quoteIdentifier name

end IndexDescriptor
end DocStore
