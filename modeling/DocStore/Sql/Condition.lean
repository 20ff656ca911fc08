import DocStore.Sql.Expr

/-! # Conditions of statements

A condition compares expressions, or joins conditions by AND or OR with each of them in
parentheses. -/
set_option autoImplicit false

namespace DocStore.Sql

inductive CompareOp where
  | eq
  | neq
  | gt
  | gte
  | lt
  | lte
deriving DecidableEq

def CompareOp.text : CompareOp → String
  | eq => "="
  | neq => "!="
  | gt => ">"
  | gte => ">="
  | lt => "<"
  | lte => "<="

inductive Connective where
  | and
  | or
deriving DecidableEq

namespace Connective

def text : Connective → String
  | and => "AND"
  | or => "OR"

/-- What stands between the parts that a connective joins. -/
def separator (c : Connective) : String := " " ++ c.text ++ " "

end Connective

/-- Membership in a list, or its negation. -/
def membershipText (negated : Bool) : String := if negated then "NOT IN" else "IN"

inductive Condition where
  | compare (op : CompareOp) (left right : Expr)
  | member (negated : Bool) (left first : Expr) (rest : List Expr)
  | group (op : Connective) (first : Condition) (rest : List Condition)

namespace Condition

/-- The texts of the items after the first of a list, each after a comma. -/
def renderItems (shown : Json → String) : List Expr → String
  | [] => ""
  | e :: es => ", " ++ e.render shown ++ renderItems shown es

mutual

def render (shown : Json → String) : Condition → String
  | compare op left right => left.render shown ++ " " ++ op.text ++ " " ++ right.render shown
  | member negated left first rest =>
    left.render shown ++ " " ++ membershipText negated ++ " (" ++ first.render shown ++
      renderItems shown rest ++ ")"
  | group op first rest => "(" ++ render shown first ++ ")" ++ renderRest shown op rest

/-- The texts of the conditions after the first of a group. -/
def renderRest (shown : Json → String) (op : Connective) : List Condition → String
  | [] => ""
  | c :: cs => op.separator ++ "(" ++ render shown c ++ ")" ++ renderRest shown op cs

end

def text (c : Condition) : String := c.render fun _ => "?"

/-! ## Binding -/

def bindItems : List Expr → List Json → Option (List Expr × List Json)
  | [], params => some ([], params)
  | e :: es, params => do
    let (e, params) ← e.bind params
    let (es, params) ← bindItems es params
    pure (e :: es, params)

mutual

/-- The condition with its placeholders bound, and the parameters left over. -/
def bind : Condition → List Json → Option (Condition × List Json)
  | compare op left right, params => do
    let (left, params) ← left.bind params
    let (right, params) ← right.bind params
    pure (compare op left right, params)
  | member negated left first rest, params => do
    let (left, params) ← left.bind params
    let (first, params) ← first.bind params
    let (rest, params) ← bindItems rest params
    pure (member negated left first rest, params)
  | group op first rest, params => do
    let (first, params) ← bind first params
    let (rest, params) ← bindRest rest params
    pure (group op first rest, params)

def bindRest : List Condition → List Json → Option (List Condition × List Json)
  | [], params => some ([], params)
  | c :: cs, params => do
    let (c, params) ← bind c params
    let (cs, params) ← bindRest cs params
    pure (c :: cs, params)

end

end Condition
end DocStore.Sql
