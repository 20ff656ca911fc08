import DocStore.Error
import DocStore.Index.Descriptor
import DocStore.Text.Blank

/-! # Descriptors from the catalog

The catalog keeps the statement that made an index. Its first words give the kind; the field is the
path in the first call of `json_extract` that is followed by a path. -/
set_option autoImplicit false

namespace DocStore.IndexDescriptor

/-- What follows the first occurrence of a text in another. -/
def after? (text : List Char) : List Char → Option (List Char)
  | [] => if text.isEmpty then some [] else none
  | c :: rest =>
    if text.isPrefixOf (c :: rest) then some ((c :: rest).drop text.length)
    else after? text rest

/-- The kind of index that a statement creates, by its first words. -/
def kindOf? (sql : List Char) : Option IndexKind :=
  match (Text.words sql).map fun w => String.ofList (Text.upper w) with
  | "CREATE" :: "UNIQUE" :: "INDEX" :: _ => some .unique
  | "CREATE" :: "INDEX" :: _ => some .path
  | _ => none

def fieldOf? (sql : List Char) : Option FieldPath := do
  let call ← after? "json_extract(".toList sql
  let path ← after? "'$.".toList call
  let (field, _) ← Sql.readQuoted? '\'' path
  guard (!field.isEmpty)
  pure ⟨String.ofList field⟩

def ofCatalog (name sql : String) : Except Error IndexDescriptor :=
  match kindOf? sql.toList, fieldOf? sql.toList with
  | some kind, some field => .ok { kind, field, name }
  | _, _ => .error (.invalidIndexSql sql)

end DocStore.IndexDescriptor
