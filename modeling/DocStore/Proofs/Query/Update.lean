import DocStore.Engine.Execution
import DocStore.Proofs.Engine.Execution
import DocStore.Proofs.Sql.Filling
import DocStore.Query.Update

/-! # What a compiled update does

The expression of an update is a nest of the expressions of its operations, in which an increment
repeats all that stands below it. `UpdateOp.filled` writes the operand of an operation in its place.
Binding the parameters of the expression by position gives that nest (`Update.bind_expr`), as text
and as expression, and evaluating the nest is evaluating its operations one after another, each on
the document that the one before it stored (`Update.applyTo_eq_foldlM`). -/
set_option autoImplicit false

namespace DocStore

open Engine (Datum Scope)
open Sql (Column Expr Fills Fragment)

/-! ## Operands in their places -/

/-- The expression for a document after the operation, with the operand written in its place. -/
def UpdateOp.filled (base : Expr) : UpdateOp → Expr
  | set f value => .set base (.literal f.jsonPath) (.json (.bound (.string value.text)))
  | increment f delta =>
    .set base (.literal f.jsonPath)
      (.add (.coalesce (.extract base (.literal f.jsonPath)) (.integer 0)) (.bound (.number delta)))
  | setNow f => .set base (.literal f.jsonPath) .now
  | remove f => .remove base (.literal f.jsonPath)

/-- The expression for the new document with all operands written in their places. -/
def Update.filled (column : String) (u : Update) : Expr :=
  u.ops.foldl UpdateOp.filled (.column column)

namespace UpdateOp

/-- Binding by position finds each operand in its place, wherever the parameters for the document
before come from. -/
theorem bind_expr {base filledBase : Expr} {ps : List Json}
    (hb : ∀ rest, base.bind (ps ++ rest) = some (filledBase, rest)) (op : UpdateOp)
    (rest : List Json) :
    (op.expr base).bind (op.params ps ++ rest) = some (op.filled filledBase, rest) := by
  cases op with
  | set f value => simp [expr, params, filled, Expr.bind, hb]
  | increment f delta => simp [expr, params, filled, Expr.bind, hb]
  | setNow f => simp [expr, params, filled, Expr.bind, hb]
  | remove f => simp [expr, params, filled, Expr.bind, hb]

/-- An operation names no column that the expression for the document before does not name. -/
theorem columns_expr {base : Expr} {op : UpdateOp} {name : String}
    (h : name ∈ (op.expr base).columns) : name ∈ base.columns := by
  cases op <;> simpa [expr, Expr.columns] using h

theorem fills_text (shown : Json → String) {base filledBase : Expr} {ps : List Json}
    (hb : Fills base.text (ps.map shown) (filledBase.render shown)) (op : UpdateOp) :
    Fills (op.expr base).text ((op.params ps).map shown) ((op.filled filledBase).render shown) := by
  have hcomma : Fills ", " [] ", " := Fills.fixed (by decide) (by decide)
  have hclose : Fills ")" [] ")" := Fills.fixed (by decide) (by decide)
  have hset : Fills "json_set(" [] "json_set(" := Fills.fixed (by decide) (by decide)
  have hpath := Fills.literal op.field.jsonPath
  have htarget := ((hb.after hset).before hcomma).before hpath
  cases op with
  | set f value =>
    have hjson : Fills "json(" [] "json(" := Fills.fixed (by decide) (by decide)
    have hvalue := ((Fills.placeholder (shown (.string value.text))).after hjson).before hclose
    have h := ((htarget.before hcomma).append hvalue).before hclose
    rw [params, List.map_append]
    exact h
  | increment f delta =>
    have hextract : Fills "json_extract(" [] "json_extract(" :=
      Fills.fixed (by decide) (by decide)
    have hcoalesce : Fills "COALESCE(" [] "COALESCE(" := Fills.fixed (by decide) (by decide)
    have hzero : Fills "0" [] "0" := Fills.fixed (by decide) (by decide)
    have hplus : Fills " + " [] " + " := Fills.fixed (by decide) (by decide)
    have hold := (((hb.after hextract).before hcomma).before hpath).before hclose
    have hfirst := (((hold.after hcoalesce).before hcomma).before hzero).before hclose
    have hvalue := (hfirst.before hplus).append (Fills.placeholder (shown (.number delta)))
    have h := ((htarget.before hcomma).append hvalue).before hclose
    rw [params, List.map_append, List.map_append, List.append_assoc]
    exact h
  | setNow f =>
    have hnow : Fills "CAST(strftime('%s', 'now') AS INTEGER)" []
        "CAST(strftime('%s', 'now') AS INTEGER)" := Fills.fixed (by decide) (by decide)
    exact ((htarget.before hcomma).before hnow).before hclose
  | remove f =>
    have hremove : Fills "json_remove(" [] "json_remove(" := Fills.fixed (by decide) (by decide)
    exact (((hb.after hremove).before hcomma).before hpath).before hclose

end UpdateOp

/-! ## One document -/

/-- A row that has nothing but a document, in the given column. The document is given as JSON that has
just been made, so it is not read from a text. -/
def Engine.Scope.ofDocument (column : String) (clock : Int) (document : Node) : Scope where
  cell? name := if name = column then some (.json document) else none
  clock := clock

/-- The document that an update makes of a document: its parameters are bound by position, none may
be left, and the value of its expression is stored. -/
def Update.applyTo (column : Column) (clock : Int) (u : Update) (document : Node) :
    Except EngineCause Node := do
  let (bound, left) ← Engine.bindValue (u.expr column.name) u.params
  Engine.noParams left
  let value ← bound.eval (.ofDocument column.name clock document)
  Engine.storedDocument value

namespace UpdateOp

/-! ## Evaluating one operation -/

def step (column : String) (clock : Int) (op : UpdateOp) (document : Node) :
    Except EngineCause Datum :=
  (op.filled (.column column)).eval (.ofDocument column clock document)

theorem cell_ofDocument (column : String) (clock : Int) (n : Node) :
    (Scope.ofDocument column clock n).cell? column = some (.json n) := by
  simp [Scope.ofDocument]

section Reading

variable {n : Node} {d : Datum} (reads : d.document? = .ok (some n))
include reads

theorem jsonExtract_congr (path : Datum) :
    Engine.jsonExtract d path = Engine.jsonExtract (.json n) path := by
  rw [Engine.jsonExtract, reads]
  rfl

theorem jsonSet_congr (path value : Datum) :
    Engine.jsonSet d path value = Engine.jsonSet (.json n) path value := by
  rw [Engine.jsonSet, reads]
  rfl

theorem jsonRemove_congr (path : Datum) :
    Engine.jsonRemove d path = Engine.jsonRemove (.json n) path := by
  rw [Engine.jsonRemove, reads]
  rfl

/-- An operation depends only on the document that is read from what it is applied to. -/
theorem eval_filled_ok (column : String) {scope : Scope} {base : Expr}
    (hb : base.eval scope = .ok d) (op : UpdateOp) :
    (op.filled base).eval scope = op.step column scope.clock n := by
  have hc := cell_ofDocument column scope.clock n
  have extract := jsonExtract_congr reads
  have set := jsonSet_congr reads
  have remove := jsonRemove_congr reads
  cases op with
  | set f value => simp only [step, filled, Expr.eval, hb, hc, Outcome.ok_bind, set]
  | increment f delta =>
    simp only [step, filled, Expr.eval, hb, hc, Outcome.ok_bind, set, extract]
  | setNow f =>
    simp only [step, filled, Expr.eval, hb, hc, Outcome.ok_bind, set]
    rfl
  | remove f => simp only [step, filled, Expr.eval, hb, hc, Outcome.ok_bind, remove]

end Reading

theorem eval_filled_error {scope : Scope} {base : Expr} {e : EngineCause}
    (hb : base.eval scope = .error e) (op : UpdateOp) : (op.filled base).eval scope = .error e := by
  cases op with
  | set f value => simp [filled, Expr.eval, hb]
  | increment f delta => simp [filled, Expr.eval, hb]
  | setNow f => simp [filled, Expr.eval, hb]
  | remove f => simp [filled, Expr.eval, hb]

/-! ## Documents stay documents -/

theorem jsonSet_ok {n : Node} {path value d : Datum}
    (h : Engine.jsonSet (.json n) path value = .ok d) :
    ∃ changed, Engine.atPath (Node.setAt value.toNode (Engine.pathSteps path) n) = .ok changed ∧
      d = .json (changed.getD n) := by
  obtain ⟨_, read, h⟩ := Outcome.bind_eq_ok.mp h
  cases read
  obtain ⟨changed, set, h⟩ := Outcome.bind_eq_ok.mp h
  exact ⟨changed, set, (Except.ok.inj h).symm⟩

theorem jsonRemove_ok {n : Node} {path d : Datum}
    (h : Engine.jsonRemove (.json n) path = .ok d) :
    ∃ changed, Engine.atPath (Node.removeAt (Engine.pathSteps path) n) = .ok changed ∧
      d = .json (changed.getD n) := by
  obtain ⟨_, read, h⟩ := Outcome.bind_eq_ok.mp h
  cases read
  obtain ⟨changed, removed, h⟩ := Outcome.bind_eq_ok.mp h
  exact ⟨changed, removed, (Except.ok.inj h).symm⟩

theorem jsonSet_json {n : Node} {path value d : Datum}
    (h : Engine.jsonSet (.json n) path value = .ok d) : ∃ m, d = .json m := by
  obtain ⟨changed, -, rfl⟩ := jsonSet_ok h
  exact ⟨_, rfl⟩

theorem jsonRemove_json {n : Node} {path d : Datum}
    (h : Engine.jsonRemove (.json n) path = .ok d) : ∃ m, d = .json m := by
  obtain ⟨changed, -, rfl⟩ := jsonRemove_ok h
  exact ⟨_, rfl⟩

theorem step_json {column : String} {clock : Int} {op : UpdateOp} {n : Node} {d : Datum}
    (h : op.step column clock n = .ok d) : ∃ m, d = .json m := by
  have hc := cell_ofDocument column clock n
  cases op with
  | set f value =>
    simp only [step, filled, Expr.eval, hc, Outcome.ok_bind] at h
    obtain ⟨v, -, h⟩ := Outcome.bind_eq_ok.mp h
    exact jsonSet_json h
  | increment f delta =>
    simp only [step, filled, Expr.eval, hc, Outcome.ok_bind] at h
    obtain ⟨v, -, h⟩ := Outcome.bind_eq_ok.mp h
    exact jsonSet_json h
  | setNow f =>
    simp only [step, filled, Expr.eval, hc, Outcome.ok_bind] at h
    exact jsonSet_json h
  | remove f =>
    simp only [step, filled, Expr.eval, hc, Outcome.ok_bind] at h
    exact jsonRemove_json h

/-- The document that an operation stores in place of a document. -/
def stored (column : String) (clock : Int) (op : UpdateOp) (n : Node) :
    Except EngineCause Node := do
  let value ← op.step column clock n
  Engine.storedDocument value

theorem step_eq_map (column : String) (clock : Int) (op : UpdateOp) (n : Node) :
    op.step column clock n = (op.stored column clock n).map Datum.json := by
  cases h : op.step column clock n with
  | error e => simp [stored, h, Except.map]
  | ok d =>
    obtain ⟨m, rfl⟩ := step_json h
    simp [stored, h, Engine.storedDocument, Except.map]

/-! ## Evaluating operations one after another -/

/-- If an expression stands for a document, then the nest of some operations around it stands for
the document after them. -/
theorem eval_foldl_filled (column : String) (scope : Scope) (ops : List UpdateOp) (base : Expr)
    (r : Except EngineCause Node) (hb : base.eval scope = r.map Datum.json) :
    (ops.foldl filled base).eval scope =
      (r >>= ops.foldlM fun n op => op.stored column scope.clock n).map Datum.json := by
  induction ops generalizing base r with
  | nil =>
    have hr : (r >>= pure) = r := bind_pure r
    rw [List.foldl_nil, hb]
    exact congrArg (Except.map Datum.json) hr.symm
  | cons op ops ih =>
    have hop : (op.filled base).eval scope =
        (r >>= op.stored column scope.clock).map Datum.json := by
      cases r with
      | error e => exact eval_filled_error hb op
      | ok n => rw [eval_filled_ok rfl column hb op, step_eq_map, Outcome.ok_bind]
    rw [List.foldl_cons, ih (op.filled base) _ hop, bind_assoc]
    simp only [List.foldlM_cons]

end UpdateOp

namespace Update

theorem bind_foldl_expr (ops : List UpdateOp) (base filledBase : Expr) (ps : List Json)
    (hb : ∀ rest, base.bind (ps ++ rest) = some (filledBase, rest)) :
    ∀ rest, (exprOf base ops).bind (paramsOf ps ops ++ rest) =
      some (ops.foldl UpdateOp.filled filledBase, rest) := by
  induction ops generalizing base filledBase ps with
  | nil => exact hb
  | cons op ops ih => exact ih _ _ _ (UpdateOp.bind_expr hb op)

/-- The parameters of an update are bound first; those of what comes after it are left. -/
theorem bind_expr (column : String) (u : Update) (more : List Json) :
    (u.expr column).bind (u.params ++ more) = some (u.filled column, more) :=
  bind_foldl_expr u.ops (.column column) (.column column) [] (fun _ => rfl) more

theorem columns_foldl_expr {ops : List UpdateOp} {base : Expr} {name : String}
    (h : name ∈ (exprOf base ops).columns) : name ∈ base.columns := by
  induction ops generalizing base with
  | nil => exact h
  | cons op ops ih => exact UpdateOp.columns_expr (ih h)

theorem columns_expr {column name : String} {u : Update} (h : name ∈ (u.expr column).columns) :
    name = column :=
  List.mem_singleton.mp (columns_foldl_expr h)

theorem fills_foldl (shown : Json → String) (ops : List UpdateOp) (base filledBase : Expr)
    (ps : List Json) (hb : Fills base.text (ps.map shown) (filledBase.render shown)) :
    Fills (exprOf base ops).text ((paramsOf ps ops).map shown)
      ((ops.foldl UpdateOp.filled filledBase).render shown) := by
  induction ops generalizing base filledBase ps with
  | nil => exact hb
  | cons op ops ih => exact ih _ _ _ (UpdateOp.fills_text shown hb op)

theorem fills_text (shown : Json → String) (column : Column) (u : Update) :
    Fills (u.fragment column).text ((u.fragment column).params.map shown)
      ((u.filled column.name).render shown) :=
  fills_foldl shown u.ops _ _ [] (Fills.plain column.isPlain)

/-- Where a document is read from the column, an update comes to the document after all its
operations. -/
theorem eval_filled {column : String} {scope : Scope} {d : Datum} {n : Node}
    (cell : scope.cell? column = some d) (reads : d.document? = .ok (some n)) (u : Update) :
    (u.filled column).eval scope =
      (u.ops.foldlM (fun n op => UpdateOp.stored column scope.clock op n) n).map Datum.json := by
  have start : (Expr.column column).eval scope = .ok d := by
    rw [Expr.eval, cell]
  have first : (u.first.filled (.column column)).eval scope =
      (u.first.stored column scope.clock n).map Datum.json := by
    rw [UpdateOp.eval_filled_ok reads column start, UpdateOp.step_eq_map]
  exact UpdateOp.eval_foldl_filled column scope u.rest _ _ first

/-- An update of a stored document that is carried out has read it. -/
theorem legible_of_eval_filled {column : String} {scope : Scope} {n : Node} {d : Datum}
    (cell : scope.cell? column = some (.stored n)) {u : Update}
    (h : (u.filled column).eval scope = .ok d) : Engine.Legible n := by
  by_contra illegible
  have unread := Engine.document?_stored_error illegible
  obtain ⟨e, failed⟩ : ∃ e, (u.first.filled (.column column)).eval scope = .error e := by
    cases u.first with
    | set f value =>
      simp only [UpdateOp.filled, Expr.eval, cell, Outcome.ok_bind, Engine.jsonSet, unread]
      cases Engine.jsonOf _ with
      | error e => exact ⟨e, rfl⟩
      | ok v => exact ⟨_, rfl⟩
    | increment f delta =>
      simp only [UpdateOp.filled, Expr.eval, cell, Outcome.ok_bind, Engine.jsonExtract, unread]
      exact ⟨_, rfl⟩
    | setNow f =>
      simp only [UpdateOp.filled, Expr.eval, cell, Outcome.ok_bind, Engine.jsonSet, unread]
      exact ⟨_, rfl⟩
    | remove f =>
      simp only [UpdateOp.filled, Expr.eval, cell, Outcome.ok_bind, Engine.jsonRemove, unread]
      exact ⟨_, rfl⟩
  have all := UpdateOp.eval_foldl_filled column scope u.rest _ (.error e) failed
  cases all.symm.trans h

/-- A row that is revised by an update keeps its key, and its new document is what the operations make
of its document one after another. -/
theorem revised_ok {t : Engine.Table} {column : String} {clock : Int} {u : Update}
    {row new : Engine.Row} (own : t.column? column = some .document)
    (h : t.revised clock .document (u.filled column) row = .ok new) :
    new.key = row.key ∧
      u.ops.foldlM (fun n op => UpdateOp.stored column clock op n) row.document =
        .ok new.document := by
  obtain ⟨key, d, evaluated, stored⟩ := Engine.revised_ok h
  have cell := Engine.Table.cell_scope own .stored clock row
  have legible := legible_of_eval_filled cell evaluated
  rw [eval_filled cell legible.document?_stored] at evaluated
  obtain ⟨m, made, rfl⟩ := Outcome.map_eq_ok.mp evaluated
  cases stored
  exact ⟨key, made⟩

theorem applyTo_eq_stored (column : Column) (clock : Int) (u : Update) (n : Node) :
    u.applyTo column clock n = u.ops.foldlM (fun n op => op.stored column.name clock n) n := by
  have hbind : Engine.bindValue (u.expr column.name) u.params = .ok (u.filled column.name, []) := by
    have whole := u.bind_expr column.name []
    rw [List.append_nil] at whole
    rw [Engine.bindValue, whole]
  rw [applyTo, hbind, Outcome.ok_bind]
  simp only [Engine.noParams, List.isEmpty_nil, if_true, Outcome.ok_bind]
  rw [eval_filled (UpdateOp.cell_ofDocument ..) rfl]
  simp only [Scope.ofDocument]
  cases u.ops.foldlM (fun n op => op.stored column.name clock n) n with
  | error e => rfl
  | ok m => rfl

theorem applyTo_single (column : Column) (clock : Int) (op : UpdateOp) (n : Node) :
    (Update.mk op []).applyTo column clock n = op.stored column.name clock n := by
  rw [applyTo_eq_stored, ops, List.foldlM_cons]
  exact bind_pure _

/-- The operations of one update after those of another. -/
def append (u v : Update) : Update := ⟨u.first, u.rest ++ v.ops⟩

/-- An update list composes. Its text has one place for each parameter, and with the parameters in
their places, left to right, it reads the nest of its operations. What it makes of a document is
what its operations make of it one after another, each compiled and carried out alone on the
document that the one before it stored, down to the error if one of them fails. -/
theorem applyTo_eq_foldlM (column : Column) (u : Update) :
    (u.fragment column).placeholders = (u.fragment column).params.length ∧
      (∀ shown : Json → String,
        Sql.fill (u.fragment column).text ((u.fragment column).params.map shown) =
          (u.filled column.name).render shown) ∧
      (∀ clock document, u.applyTo column clock document =
        u.ops.foldlM (fun d op => (Update.mk op []).applyTo column clock d) document) ∧
      ∀ v clock document, (u.append v).applyTo column clock document =
        u.applyTo column clock document >>= v.applyTo column clock := by
  refine ⟨?_, fun shown => (fills_text shown column u).reads, fun clock n => ?_,
    fun v clock n => ?_⟩
  · have h := (fills_text (fun _ => "") column u).count
    rw [List.length_map] at h
    exact h
  · simp only [applyTo_single]
    exact applyTo_eq_stored column clock u n
  · have hops : (u.append v).ops = u.ops ++ v.ops := rfl
    rw [applyTo_eq_stored, applyTo_eq_stored, hops, List.foldlM_append]
    exact congrArg _ (funext fun m => (applyTo_eq_stored column clock v m).symm)

end Update
end DocStore
