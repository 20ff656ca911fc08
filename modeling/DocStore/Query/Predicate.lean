import DocStore.Sql.Condition
import DocStore.Sql.Fragment
import DocStore.Value.Encoding

/-! # Predicates

A predicate is a tree of comparisons of fields with operands, joined by AND and OR. Operands are
encoded when a comparison is built. A list of operands and the parts of a junction are never empty,
which the types say by a first element and the rest. -/
set_option autoImplicit false

namespace DocStore

open Sql (CompareOp Connective Condition Column Fragment)

/-- The operator of a comparison: one that takes a single operand, or membership in a list. -/
inductive Comparator where
  | scalar (op : CompareOp)
  | membership (negated : Bool)
deriving DecidableEq

namespace Comparator

def text : Comparator → String
  | scalar op => op.text
  | membership negated => Sql.membershipText negated

def takesList : Comparator → Bool
  | scalar _ => false
  | membership _ => true

end Comparator

inductive Comparison where
  | scalar (field : FieldPath) (op : CompareOp) (operand : Json)
  | membership (field : FieldPath) (negated : Bool) (first : Json) (rest : List Json)

namespace Comparison

def field : Comparison → FieldPath
  | scalar f _ _ => f
  | membership f _ _ _ => f

def comparator : Comparison → Comparator
  | scalar _ op _ => .scalar op
  | membership _ negated _ _ => .membership negated

/-- The operands in the order of their placeholders. -/
def operands : Comparison → List Json
  | scalar _ _ operand => [operand]
  | membership _ _ first rest => first :: rest

/-! ## Building -/

/-- A comparison with one value. Membership needs a value that encodes to a nonempty array. -/
def ofValue (transforms : Transforms) (field : FieldPath) (op : Comparator) (v : Value) :
    Except Error Comparison := do
  let j ← v.toJson transforms
  match op, j with
  | .scalar op, j => pure (scalar field op j)
  | .membership negated, .array (first :: rest) => pure (membership field negated first rest)
  | .membership _, _ => throw (.emptyPredicateList op.text)

/-- A comparison with a list of values. An operator that takes one operand compares with the whole
list as an array. -/
def ofValues (transforms : Transforms) (field : FieldPath) (op : Comparator) (vs : List Value) :
    Except Error Comparison := do
  let js ← vs.mapM fun v => v.toJson transforms
  match op, js with
  | _, [] => throw (.emptyPredicateList op.text)
  | .scalar op, js => pure (scalar field op (.array js))
  | .membership negated, first :: rest => pure (membership field negated first rest)

def equals : Comparison → Comparison → Bool
  | scalar f op a, scalar g op' b => f == g && op == op' && a.equals b
  | membership f n a as, membership g m b bs =>
    f == g && n == m && Json.equalsItems (a :: as) (b :: bs)
  | _, _ => false

/-! ## Compiling -/

def condition (column : String) : Comparison → Condition
  | scalar f op _ => .compare op (.field column f) .placeholder
  | membership f negated _ rest =>
    .member negated (.field column f) .placeholder (rest.map fun _ => .placeholder)

end Comparison

inductive Predicate where
  | compare (c : Comparison)
  | junction (op : Connective) (first : Predicate) (rest : List Predicate)

namespace Predicate

/-! ## Building -/

/-- The junction of a list of predicates, which must not be empty. -/
def join (op : Connective) : List Predicate → Except Error Predicate
  | [] => .error (.emptyPredicateList op.text)
  | first :: rest => .ok (junction op first rest)

def and (p q : Predicate) : Predicate := junction .and p [q]
def or (p q : Predicate) : Predicate := junction .or p [q]

/-! ## Shape -/

mutual

/-- The number of levels; a comparison has one. -/
def depth : Predicate → Nat
  | compare _ => 1
  | junction _ first rest => max (depth first) (depthRest rest) + 1

def depthRest : List Predicate → Nat
  | [] => 0
  | p :: ps => max (depth p) (depthRest ps)

end

mutual

/-- The fields that are compared. -/
def fields : Predicate → List FieldPath
  | compare c => [c.field]
  | junction _ first rest => fields first ++ fieldsRest rest

def fieldsRest : List Predicate → List FieldPath
  | [] => []
  | p :: ps => fields p ++ fieldsRest ps

end

def Unescaped (p : Predicate) : Prop := ∀ f ∈ p.fields, f.Unescaped

mutual

def equals : Predicate → Predicate → Bool
  | compare c, compare d => c.equals d
  | junction op p ps, junction op' q qs => op == op' && equals p q && equalsRest ps qs
  | _, _ => false

def equalsRest : List Predicate → List Predicate → Bool
  | [], [] => true
  | p :: ps, q :: qs => equals p q && equalsRest ps qs
  | _, _ => false

end

/-! ## Compiling -/

mutual

def condition (column : String) : Predicate → Condition
  | compare c => c.condition column
  | junction op first rest => .group op (condition column first) (conditionRest column rest)

def conditionRest (column : String) : List Predicate → List Condition
  | [] => []
  | p :: ps => condition column p :: conditionRest column ps

end

mutual

/-- The operands of a predicate, in the order of the placeholders of its condition. -/
def params : Predicate → List Json
  | compare c => c.operands
  | junction _ first rest => params first ++ paramsRest rest

def paramsRest : List Predicate → List Json
  | [] => []
  | p :: ps => params p ++ paramsRest ps

end

def fragment (column : Column) (p : Predicate) : Fragment :=
  { text := (p.condition column.name).text, params := p.params }

end Predicate
end DocStore
