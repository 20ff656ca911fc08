import DocStore.Sql.Expr
import DocStore.Sql.Fragment
import DocStore.Value.Encoding

/-! # Updates

An update is a nonempty list of operations on fields. It compiles to one expression for the new
document: each operation wraps the expression of those before it, starting from the document
column, so later operations see the effect of earlier ones. An increment reads the document as it
stands, so it has the expression before it twice, and its parameters too. -/
set_option autoImplicit false

namespace DocStore

open Sql (Expr Column Fragment)

inductive UpdateOp where
  | set (field : FieldPath) (value : Json)
  | increment (field : FieldPath) (delta : Number)
  /-- Stores the time at which the statement runs. -/
  | setNow (field : FieldPath)
  | remove (field : FieldPath)

namespace UpdateOp

def field : UpdateOp → FieldPath
  | set f _ => f
  | increment f _ => f
  | setNow f => f
  | remove f => f

/-- Whether the effect is known before the statement runs. -/
def isDeterministic : UpdateOp → Bool
  | setNow _ => false
  | _ => true

/-! ## Building -/

def ofSet (transforms : Transforms) (field : FieldPath) (v : Value) : Except Error UpdateOp := do
  let j ← v.toJson transforms
  pure (set field j)

/-- An increment by a value that encodes to a number. -/
def ofIncrement (transforms : Transforms) (field : FieldPath) (v : Value) :
    Except Error UpdateOp := do
  match ← v.toJson transforms with
  | .number delta => pure (increment field delta)
  | found => throw (.nonNumericDelta found)

/-! ## Compiling -/

/-- The expression for a document after the operation, given that for the document before. -/
def expr (base : Expr) : UpdateOp → Expr
  | set f _ => .set base (.literal f.jsonPath) (.json .placeholder)
  | increment f _ =>
    .set base (.literal f.jsonPath)
      (.add (.coalesce (.extract base (.literal f.jsonPath)) (.integer 0)) .placeholder)
  | setNow f => .set base (.literal f.jsonPath) .now
  | remove f => .remove base (.literal f.jsonPath)

/-- The parameters of that expression, given those of the expression before. -/
def params (base : List Json) : UpdateOp → List Json
  | set _ value => base ++ [.string value.text]
  | increment _ delta => base ++ base ++ [.number delta]
  | setNow _ => base
  | remove _ => base

end UpdateOp

structure Update where
  first : UpdateOp
  rest : List UpdateOp

namespace Update

def ops (u : Update) : List UpdateOp := u.first :: u.rest

def Unescaped (u : Update) : Prop := ∀ op ∈ u.ops, op.field.Unescaped

def ofOps : List UpdateOp → Except Error Update
  | [] => .error .emptyUpdateList
  | first :: rest => .ok ⟨first, rest⟩

/-! ## Compiling -/

def exprOf (base : Expr) (ops : List UpdateOp) : Expr := ops.foldl UpdateOp.expr base

def paramsOf (base : List Json) (ops : List UpdateOp) : List Json := ops.foldl UpdateOp.params base

def expr (column : String) (u : Update) : Expr := exprOf (.column column) u.ops

/-- The parameters of the expression, in the order of its placeholders. -/
def params (u : Update) : List Json := paramsOf [] u.ops

def fragment (column : Column) (u : Update) : Fragment :=
  { text := (u.expr column.name).text, params := u.params }

end Update
end DocStore
