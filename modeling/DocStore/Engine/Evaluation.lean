import DocStore.Engine.Scalar
import DocStore.Json.Path
import DocStore.Json.Reader
import DocStore.Sql.Condition

/-! # Evaluating expressions and conditions

An expression is evaluated over the cells of one row, at one time. Its value is a scalar, JSON that
a function has made, or the text of a stored document; JSON counts as its text wherever a scalar is
asked for.

A JSON function reads the text that it is given, and refuses one that is nested too deep. What
another function of the same statement has made is not read again, however deep it is nested: it is
handed on and stored, and only refused when a later statement reads it.

A comparison with null has no answer, and only conditions that are true select a row. The parts of a
junction are asked from left to right, and no further than needed. -/
set_option autoImplicit false

namespace DocStore.Engine

inductive Datum where
  | scalar (s : Scalar)
  | json (n : Node)
  /-- The text of a stored document. -/
  | stored (n : Node)

namespace Datum

def null : Datum := scalar .null

/-- A part of a document as a value: scalars lose their JSON form, arrays and objects keep it. -/
def ofNode : Node → Datum
  | .null => null
  | .bool b => scalar (.number (.ofBool b))
  | .number literal =>
    match NumberLiteral.read? literal.toList with
    | some l => scalar (.number (.ofLiteral l))
    | none => null
  | .string s => scalar (.text s)
  | n => json n

def toScalar : Datum → Scalar
  | scalar s => s
  | json n | stored n => .text n.text

def isNull : Datum → Bool
  | scalar s => s.isNull
  | json _ | stored _ => false

def toNode : Datum → Node
  | scalar .null => .null
  | scalar (.number q) => .number q.literal
  | scalar (.text s) => .string s
  | json n => n
  | stored n => .string n.text

/-- How deep a text may be nested for a JSON function to read it. -/
def maxDocumentNesting : Nat := 1000

/-- A value as the document argument of a JSON function; null is none. -/
def document? : Datum → Except EngineCause (Option Node)
  | scalar .null => .ok none
  | scalar (.number q) => .ok (some (.number q.literal))
  | scalar (.text s) =>
    match Node.read? s with
    | some n => readable n
    | none => .error .malformedJson
  | json n => .ok (some n)
  | stored n => readable n
where
  readable (n : Node) : Except EngineCause (Option Node) :=
    if n.nesting ≤ maxDocumentNesting then .ok (some n) else .error .malformedJson

end Datum

/-! ## The JSON functions -/

def pathSteps (path : Datum) : List PathStep :=
  match path.toScalar with
  | .text s => PathStep.ofText s
  | _ => [.malformed]

/-- The outcome of following a path, with a fault in the path as a cause. -/
def atPath (outcome : Except PathFault (Option Node)) : Except EngineCause (Option Node) :=
  match outcome with
  | .ok n => .ok n
  | .error .malformed => .error .badPath

def jsonExtract (document path : Datum) : Except EngineCause Datum := do
  match ← document.document? with
  | none => pure .null
  | some n =>
    let part ← atPath (n.follow (pathSteps path))
    pure ((part.map Datum.ofNode).getD .null)

def jsonSet (document path value : Datum) : Except EngineCause Datum := do
  match ← document.document? with
  | none => pure .null
  | some n =>
    let changed ← atPath (Node.setAt value.toNode (pathSteps path) n)
    pure (.json (changed.getD n))

def jsonRemove (document path : Datum) : Except EngineCause Datum := do
  match ← document.document? with
  | none => pure .null
  | some n =>
    let changed ← atPath (Node.removeAt (pathSteps path) n)
    pure (.json (changed.getD n))

def jsonOf (text : Datum) : Except EngineCause Datum := do
  let n ← text.document?
  pure ((n.map Datum.json).getD .null)

/-! ## Expressions -/

/-- What an expression is evaluated over: the cells of a row by column name, and the time in
seconds. -/
structure Scope where
  cell? : String → Option Datum
  clock : Int

end Engine

namespace Sql

open Engine

namespace Expr

def columns : Expr → List String
  | column name => [name]
  | literal _ | integer _ | placeholder | bound _ | now => []
  | extract document path => document.columns ++ path.columns
  | json text => text.columns
  | set document path value => document.columns ++ path.columns ++ value.columns
  | remove document path => document.columns ++ path.columns
  | coalesce first second => first.columns ++ second.columns
  | add left right => left.columns ++ right.columns

def eval (scope : Scope) : Expr → Except EngineCause Datum
  | column name =>
    match scope.cell? name with
    | some d => .ok d
    | none => .error .noSuchColumn
  | literal text => .ok (.scalar (.text text))
  | integer n => .ok (.scalar (.number (.ofInt n)))
  | placeholder => .error .badStatement
  | bound value => .ok (.scalar (.ofJson value))
  | extract document path => do
    let d ← document.eval scope
    let p ← path.eval scope
    jsonExtract d p
  | json text => do
    let t ← text.eval scope
    jsonOf t
  | set document path value => do
    let d ← document.eval scope
    let p ← path.eval scope
    let v ← value.eval scope
    jsonSet d p v
  | remove document path => do
    let d ← document.eval scope
    let p ← path.eval scope
    jsonRemove d p
  | coalesce first second => do
    let d ← first.eval scope
    if d.isNull then second.eval scope else pure d
  | add left right => do
    let a ← left.eval scope
    let b ← right.eval scope
    pure (.scalar (a.toScalar.add b.toScalar))
  | now => .ok (.scalar (.number (.ofInt scope.clock)))

def evalScalar (scope : Scope) (e : Expr) : Except EngineCause Scalar := do
  let d ← e.eval scope
  pure d.toScalar

end Expr

/-! ## Conditions -/

def CompareOp.accepts : CompareOp → Ordering → Bool
  | eq, o => o == .eq
  | neq, o => o != .eq
  | gt, o => o == .gt
  | gte, o => o != .lt
  | lt, o => o == .lt
  | lte, o => o != .gt

/-- The answer of a comparison, which null does not give. -/
def CompareOp.answer? (op : CompareOp) (a b : Scalar) : Option Bool :=
  if a.isNull || b.isNull then none else some (op.accepts (a.compare b))

/-- Whether a value is in a list: yes if it equals an item, else unknown if null is involved. -/
def memberAnswer? (a : Scalar) (items : List Scalar) : Option Bool :=
  if items.any a.collides then some true
  else if a.isNull || items.any Scalar.isNull then none
  else some false

namespace Condition

mutual

def columns : Condition → List String
  | compare _ left right => left.columns ++ right.columns
  | member _ left first rest => left.columns ++ first.columns ++ rest.flatMap Expr.columns
  | group _ first rest => columns first ++ columnsRest rest

def columnsRest : List Condition → List String
  | [] => []
  | c :: cs => columns c ++ columnsRest cs

end

mutual

def holds (scope : Scope) : Condition → Except EngineCause Bool
  | compare op left right => do
    let a ← left.evalScalar scope
    let b ← right.evalScalar scope
    pure (op.answer? a b == some true)
  | member negated left first rest => do
    let a ← left.evalScalar scope
    let items ← (first :: rest).mapM (Expr.evalScalar scope)
    pure (memberAnswer? a items == some !negated)
  | group .and first rest => do
    if ← holds scope first then holdsAll scope rest else pure false
  | group .or first rest => do
    if ← holds scope first then pure true else holdsAny scope rest

def holdsAll (scope : Scope) : List Condition → Except EngineCause Bool
  | [] => .ok true
  | c :: cs => do if ← holds scope c then holdsAll scope cs else pure false

def holdsAny (scope : Scope) : List Condition → Except EngineCause Bool
  | [] => .ok false
  | c :: cs => do if ← holds scope c then pure true else holdsAny scope cs

end

end Condition
end Sql
end DocStore
