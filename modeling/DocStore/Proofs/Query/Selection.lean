import DocStore.Engine.Evaluation
import DocStore.Proofs.Outcome
import DocStore.Query.Predicate

/-! # What a compiled predicate selects

Binding the parameters of a compiled predicate by position gives the condition with each operand in
its place (`Predicate.bind_condition`). The condition looks at no column but that of the documents,
and not at the time, so whether it holds depends on the document alone. -/
set_option autoImplicit false

namespace DocStore

open Engine (Scope)
open Sql (Condition Expr)

/-- The condition of a comparison with its operands written in their places. -/
def Comparison.filled (column : String) : Comparison → Condition
  | scalar f op operand => .compare op (.field column f) (.bound operand)
  | membership f negated first rest =>
    .member negated (.field column f) (.bound first) (rest.map .bound)

namespace Predicate

mutual

/-- The condition of a predicate with all operands written in their places. -/
def filled (column : String) : Predicate → Condition
  | compare c => c.filled column
  | junction op first rest => .group op (filled column first) (filledRest column rest)

def filledRest (column : String) : List Predicate → List Condition
  | [] => []
  | p :: ps => filled column p :: filledRest column ps

end

end Predicate

/-! ## Binding by position -/

theorem Sql.Condition.bindItems_places (items more : List Json) :
    bindItems (items.map fun _ => Expr.placeholder) (items ++ more) =
      some (items.map .bound, more) := by
  induction items with
  | nil => rfl
  | cons item items ih =>
    rw [List.map_cons, List.cons_append, bindItems, Expr.bind]
    show ((bindItems _ _).bind _) = _
    rw [ih]
    rfl

theorem Comparison.bind_condition (column : String) (c : Comparison) (more : List Json) :
    (c.condition column).bind (c.operands ++ more) = some (c.filled column, more) := by
  cases c with
  | scalar f op operand => rfl
  | membership f negated first rest =>
    show ((Condition.bindItems _ (rest ++ more)).bind _) = _
    rw [Condition.bindItems_places]
    rfl

namespace Predicate

mutual

/-- Binding by position finds each operand in its place, and leaves what comes after them. -/
theorem bind_condition (column : String) : (p : Predicate) → (more : List Json) →
    (p.condition column).bind (p.params ++ more) = some (p.filled column, more)
  | compare c, more => c.bind_condition column more
  | junction op first rest, more => by
    rw [condition, params, filled, Condition.bind, List.append_assoc, bind_condition column first]
    show ((Condition.bindRest _ _).bind _) = _
    rw [bind_conditionRest column rest]
    rfl

theorem bind_conditionRest (column : String) : (ps : List Predicate) → (more : List Json) →
    Condition.bindRest (conditionRest column ps) (paramsRest ps ++ more) =
      some (filledRest column ps, more)
  | [], _ => rfl
  | p :: ps, more => by
    rw [conditionRest, paramsRest, filledRest, Condition.bindRest, List.append_assoc,
      bind_condition column p]
    show ((Condition.bindRest _ _).bind _) = _
    rw [bind_conditionRest column ps]
    rfl

end

end Predicate

/-! ## Columns -/

theorem Comparison.columns_filled {column name : String} {c : Comparison}
    (h : name ∈ (c.filled column).columns) : name = column := by
  cases c with
  | scalar f op operand => simpa [filled, Condition.columns, Expr.field, Expr.columns] using h
  | membership f negated first rest =>
    simpa [filled, Condition.columns, Expr.field, Expr.columns, List.flatMap_map] using h

theorem Comparison.columns_condition (column : String) (c : Comparison) :
    (c.condition column).columns = (c.filled column).columns := by
  cases c with
  | scalar f op operand => rfl
  | membership f negated first rest =>
    rw [condition, filled, Condition.columns, Condition.columns, List.flatMap_map, List.flatMap_map]
    rfl

namespace Predicate

mutual

theorem columns_filled {column name : String} : (p : Predicate) →
    name ∈ (p.filled column).columns → name = column
  | compare c, h => c.columns_filled h
  | junction op first rest, h => by
    rw [filled, Condition.columns, List.mem_append] at h
    rcases h with h | h
    · exact columns_filled first h
    · exact columns_filledRest rest h

theorem columns_filledRest {column name : String} : (ps : List Predicate) →
    name ∈ Condition.columnsRest (filledRest column ps) → name = column
  | [], h => by cases h
  | p :: ps, h => by
    rw [filledRest, Condition.columnsRest, List.mem_append] at h
    rcases h with h | h
    · exact columns_filled p h
    · exact columns_filledRest ps h

end

mutual

/-- A condition with places names the columns that it names with its operands in them. -/
theorem columns_condition (column : String) : (p : Predicate) →
    (p.condition column).columns = (p.filled column).columns
  | compare c => c.columns_condition column
  | junction op first rest => by
    rw [condition, filled, Condition.columns, Condition.columns, columns_condition column first,
      columns_conditionRest column rest]

theorem columns_conditionRest (column : String) : (ps : List Predicate) →
    Condition.columnsRest (conditionRest column ps) =
      Condition.columnsRest (filledRest column ps)
  | [] => rfl
  | p :: ps => by
    rw [conditionRest, filledRest, Condition.columnsRest, Condition.columnsRest,
      columns_condition column p, columns_conditionRest column ps]

end

end Predicate

/-! ## Documents -/

variable {column : String} {scope scope' : Scope}

/-- Two rows that give the fields of the documents' column alike. -/
def Sql.Expr.FieldsAgree (column : String) (scope scope' : Scope) : Prop :=
  ∀ f, (field column f).evalScalar scope = (field column f).evalScalar scope'

theorem Sql.Expr.FieldsAgree.of_cell (same : scope.cell? column = scope'.cell? column) :
    FieldsAgree column scope scope' := fun f => by
  simp only [evalScalar, field, eval, same]

theorem Comparison.holds_filled_congr (same : Expr.FieldsAgree column scope scope')
    (c : Comparison) : (c.filled column).holds scope = (c.filled column).holds scope' := by
  have bound (j : Json) : (Expr.bound j).evalScalar scope = (Expr.bound j).evalScalar scope' := rfl
  cases c with
  | scalar f op operand =>
    rw [filled, Condition.holds, Condition.holds, same f, bound]
  | membership f negated first rest =>
    have items : (Expr.bound first :: rest.map .bound).mapM (Expr.evalScalar scope) =
        (Expr.bound first :: rest.map .bound).mapM (Expr.evalScalar scope') := by
      rw [← List.map_cons, List.mapM_map, List.mapM_map]
      rfl
    rw [filled, Condition.holds, Condition.holds, same f, items]

namespace Predicate

mutual

/-- Whether a predicate holds depends on the fields of the documents' column, and on no more. -/
theorem holds_filled_congr (same : Expr.FieldsAgree column scope scope') : (p : Predicate) →
    (p.filled column).holds scope = (p.filled column).holds scope'
  | compare c => c.holds_filled_congr same
  | junction .and first rest => by
    rw [filled, Condition.holds, Condition.holds, holds_filled_congr same first,
      holdsAll_filled_congr same rest]
  | junction .or first rest => by
    rw [filled, Condition.holds, Condition.holds, holds_filled_congr same first,
      holdsAny_filled_congr same rest]

theorem holdsAll_filled_congr (same : Expr.FieldsAgree column scope scope') :
    (ps : List Predicate) → Condition.holdsAll scope (filledRest column ps) =
      Condition.holdsAll scope' (filledRest column ps)
  | [] => rfl
  | p :: ps => by
    rw [filledRest, Condition.holdsAll, Condition.holdsAll, holds_filled_congr same p,
      holdsAll_filled_congr same ps]

theorem holdsAny_filled_congr (same : Expr.FieldsAgree column scope scope') :
    (ps : List Predicate) → Condition.holdsAny scope (filledRest column ps) =
      Condition.holdsAny scope' (filledRest column ps)
  | [] => rfl
  | p :: ps => by
    rw [filledRest, Condition.holdsAny, Condition.holdsAny, holds_filled_congr same p,
      holdsAny_filled_congr same ps]

end

end Predicate

end DocStore
