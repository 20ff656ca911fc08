import DocStore.FieldPath
import DocStore.Json.Basic

/-! # Expressions of statements

The expressions that statements over documents are built from: the document column, texts, the JSON
functions of the engine, and placeholders. Parameters are bound to placeholders by position, from
left to right; `bind` does so and hands on the parameters that are left. -/
set_option autoImplicit false

namespace DocStore.Sql

inductive Expr where
  /-- A column, written without quotes. -/
  | column (name : String)
  | literal (text : String)
  | integer (n : Nat)
  | placeholder
  /-- A parameter in its place. -/
  | bound (value : Json)
  | extract (document path : Expr)
  | json (text : Expr)
  | set (document path value : Expr)
  | remove (document path : Expr)
  | coalesce (first second : Expr)
  | add (left right : Expr)
  /-- The seconds since the start of 1970. -/
  | now

namespace Expr

/-- The text of an expression; `shown` is the text of a parameter in its place. -/
def render (shown : Json → String) : Expr → String
  | column name => name
  | literal text => quoteLiteral text
  | integer n => String.ofList (Nat.toDigits 10 n)
  | placeholder => "?"
  | bound value => shown value
  | extract document path =>
    "json_extract(" ++ document.render shown ++ ", " ++ path.render shown ++ ")"
  | json text => "json(" ++ text.render shown ++ ")"
  | set document path value =>
    "json_set(" ++ document.render shown ++ ", " ++ path.render shown ++ ", " ++
      value.render shown ++ ")"
  | remove document path =>
    "json_remove(" ++ document.render shown ++ ", " ++ path.render shown ++ ")"
  | coalesce first second =>
    "COALESCE(" ++ first.render shown ++ ", " ++ second.render shown ++ ")"
  | add left right => left.render shown ++ " + " ++ right.render shown
  | now => "CAST(strftime('%s', 'now') AS INTEGER)"

/-- The text of an expression as it is sent, with a placeholder for each parameter. -/
def text (e : Expr) : String := e.render fun _ => "?"

/-- The expression with its placeholders bound, and the parameters left over; nothing if the
parameters run out. -/
def bind : Expr → List Json → Option (Expr × List Json)
  | column name, params => some (column name, params)
  | literal text, params => some (literal text, params)
  | integer n, params => some (integer n, params)
  | placeholder, [] => none
  | placeholder, p :: params => some (bound p, params)
  | bound value, params => some (bound value, params)
  | extract document path, params => do
    let (document, params) ← document.bind params
    let (path, params) ← path.bind params
    pure (extract document path, params)
  | json text, params => do
    let (text, params) ← text.bind params
    pure (json text, params)
  | set document path value, params => do
    let (document, params) ← document.bind params
    let (path, params) ← path.bind params
    let (value, params) ← value.bind params
    pure (set document path value, params)
  | remove document path, params => do
    let (document, params) ← document.bind params
    let (path, params) ← path.bind params
    pure (remove document path, params)
  | coalesce first second, params => do
    let (first, params) ← first.bind params
    let (second, params) ← second.bind params
    pure (coalesce first second, params)
  | add left right, params => do
    let (left, params) ← left.bind params
    let (right, params) ← right.bind params
    pure (add left right, params)
  | now, params => some (now, params)

/-- The value of a field of the documents in a column. -/
def field (columnName : String) (f : FieldPath) : Expr :=
  .extract (.column columnName) (.literal f.jsonPath)

end Expr
end DocStore.Sql
