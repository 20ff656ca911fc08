import DocStore.Query.Predicate
import DocStore.Query.Update
import DocStore.Value.Outline

/-! # Outlines of queries

Predicates, updates and fragments shown as JSON. Encoded values in them are shown by their JSON
texts. -/
set_option autoImplicit false

namespace DocStore

def Outline.encoded (j : Json) : Json := .string j.text

open Outline

/-- The text and the parameters of a fragment, and whether they fit together. -/
def Sql.Fragment.outline (f : Sql.Fragment) : Json :=
  Json.ofMembers [("sql", .string f.text), ("params", .array (f.params.map encoded)),
    ("placeholders", small f.placeholders), ("aligned", .bool f.isAligned)]

def Comparison.outline (c : Comparison) : Json :=
  let takesList := Json.bool c.comparator.takesList
  .array [.string c.field.text, .string c.comparator.text, takesList,
    .array (c.operands.map encoded), takesList]

namespace Predicate

mutual

/-- The parts of a predicate, each junction before what it joins. -/
def outline : Predicate → List Json
  | compare c => [c.outline]
  | junction op first rest =>
    .array [.string op.separator, small (rest.length + 1)] :: (outline first ++ outlineRest rest)

def outlineRest : List Predicate → List Json
  | [] => []
  | p :: ps => outline p ++ outlineRest ps

end

end Predicate

namespace UpdateOp

def name : UpdateOp → String
  | set _ _ => "set"
  | increment _ _ => "increment"
  | setNow _ => "now"
  | remove _ => "remove"

def operand? : UpdateOp → Option Json
  | set _ value => some value
  | increment _ delta => some (.number delta)
  | _ => none

def outline (op : UpdateOp) : Json :=
  .array [.string op.name, .string op.field.text, .bool op.isDeterministic,
    (op.operand?.map encoded).getD .null]

end UpdateOp
end DocStore
