import DocStore.Error
import DocStore.Index.Descriptor
import DocStore.Json.Reader

/-! # Descriptors as JSON

A descriptor is written as an object with its kind, field and name in this order. It is read from
an object with these three keys, each exactly once and other keys ignored, or from an array of the
three values. -/
set_option autoImplicit false

namespace DocStore.IndexDescriptor

def toNode (d : IndexDescriptor) : Node :=
  .object [("kind", .string d.kind.text), ("field", .string d.field.text),
    ("name", .string d.name)]

/-- A kind by its name, or as an object whose only key is the name and whose value is null. -/
def kindOfNode? : Node → Option IndexKind
  | .string s => IndexKind.ofText? s
  | .object [(s, .null)] => IndexKind.ofText? s
  | _ => none

def textOfNode? : Node → Option String
  | .string s => some s
  | _ => none

/-- The value of a key that occurs exactly once. -/
def onlyValue? (key : String) (members : List (String × Node)) : Option Node :=
  match members.filter fun m => m.1 == key with
  | [m] => some m.2
  | _ => none

def ofParts? (kind field name : Node) : Option IndexDescriptor := do
  let kind ← kindOfNode? kind
  let field ← textOfNode? field
  let name ← textOfNode? name
  pure { kind, field := ⟨field⟩, name }

def ofNode? : Node → Option IndexDescriptor
  | .array [kind, field, name] => ofParts? kind field name
  | .object members => do
    let kind ← onlyValue? "kind" members
    let field ← onlyValue? "field" members
    let name ← onlyValue? "name" members
    ofParts? kind field name
  | _ => none

def readJson (text : String) : Except Error IndexDescriptor :=
  match (Node.read? text).bind ofNode? with
  | some d => .ok d
  | none => .error .serialization

end DocStore.IndexDescriptor
