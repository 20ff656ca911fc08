import DocStore.Proofs.Engine.Literals
import DocStore.Proofs.Engine.Scalar
import DocStore.Proofs.Json.Editing
import DocStore.Proofs.Query.Update

/-! # What updates put into documents

An operation leaves a document as it is, sets one part at the path of its field, or removes the part
there (`UpdateOp.stored_ok`). The levels of the outcome are those of the document or those of the
path and of the part together, whichever is more. -/
set_option autoImplicit false

namespace DocStore

open Engine (Datum Quantity Scalar)

theorem Binary64.isNaN_ofInt (i : Int) : (Binary64.ofInt i).isNaN = false := by
  have rank (negative : Bool) (num den : Nat) : (nearest negative num den).isNaN = false := by
    have le : rankNearest num den ≤ infinityRank := Nat.min_le_left ..
    have small : infinityRank < 9223372036854775808 := by decide
    have value : (nearest negative num den).rank.val = rankNearest num den :=
      Nat.mod_eq_of_lt (le.trans_lt small)
    rw [isNaN, value]
    exact decide_eq_false (Nat.not_lt.mpr le)
  exact rank ..

namespace Engine

theorem Quantity.isNaN_ofInt (i : Int) : (ofInt i).toBinary64.isNaN = false := by
  unfold ofInt
  split
  · exact Binary64.isNaN_ofInt _
  · exact Binary64.isNaN_ofInt _

theorem Quantity.ofInt_toInt (i : Int64) : ofInt i.toInt = .integer i := by
  have low := i.le_toInt
  have high := i.toInt_lt
  have fits : int64? i.toInt = some i := by
    rw [int64?, if_pos (by omega), Int64.ofInt_toInt]
  rw [ofInt, fits]

/-- A sum is null or a number. -/
theorem Scalar.add_cases (a b : Scalar) :
    a.add b = .null ∨ ∃ q : Quantity, q.toBinary64.isNaN = false ∧ a.add b = .number q := by
  unfold add
  split
  · dsimp only
    split
    · exact .inl rfl
    · rename_i sum
      exact .inr ⟨_, Bool.eq_false_iff.mpr sum, rfl⟩
  · exact .inl rfl

theorem atPath_ok {outcome : Except PathFault (Option Node)} {n : Option Node}
    (h : atPath outcome = .ok n) : outcome = .ok n := by
  unfold atPath at h
  split at h
  · cases h
    rfl
  · cases h

end Engine

namespace UpdateOp

/-- The parts that an operation may set, at a time in seconds. -/
def Sets (clock : Int) : UpdateOp → Node → Prop
  | set _ value, part => part = .ofJson value
  | increment _ _, part =>
    part = .null ∨ ∃ q : Quantity, q.toBinary64.isNaN = false ∧ part = .number q.literal
  | setNow _, part => part = .number (Quantity.ofInt clock).literal
  | remove _, _ => False

variable {column : String} {clock : Int} {op : UpdateOp} {n m : Node}

theorem cases_of_getD {outcome : Except PathFault (Option Node)} {changed : Option Node}
    (h : Engine.atPath outcome = .ok changed) :
    changed.getD n = n ∨ outcome = .ok (some (changed.getD n)) := by
  have followed := Engine.atPath_ok h
  cases changed with
  | none => exact .inl rfl
  | some m => exact .inr followed

/-- What an operation makes of a document. -/
theorem stored_ok (h : op.stored column clock n = .ok m) :
    m = n ∨ (∃ part, op.Sets clock part ∧ Node.setAt part op.field.steps n = .ok (some m)) ∨
      Node.removeAt op.field.steps n = .ok (some m) := by
  have hc := cell_ofDocument column clock n
  rw [stored] at h
  obtain ⟨d, step, stored⟩ := Outcome.bind_eq_ok.mp h
  cases op with
  | set f value =>
    simp only [UpdateOp.step, filled, Sql.Expr.eval, hc, Outcome.ok_bind] at step
    obtain ⟨v, read, step⟩ := Outcome.bind_eq_ok.mp step
    obtain ⟨changed, set, rfl⟩ := jsonSet_ok step
    cases stored
    rw [Engine.Scalar.ofJson, Engine.jsonOf_text] at read
    split at read
    · cases read
      exact (cases_of_getD set).imp_right fun set => .inl ⟨_, rfl, set⟩
    · cases read
  | increment f delta =>
    simp only [UpdateOp.step, filled, Sql.Expr.eval, hc, Outcome.ok_bind] at step
    obtain ⟨v, sum, step⟩ := Outcome.bind_eq_ok.mp step
    obtain ⟨changed, set, rfl⟩ := jsonSet_ok step
    cases stored
    obtain ⟨a, -, sum⟩ := Outcome.bind_eq_ok.mp sum
    cases sum
    refine (cases_of_getD set).imp_right fun set => .inl ⟨_, ?_, set⟩
    rcases Engine.Scalar.add_cases a.toScalar (Datum.scalar (.ofJson (.number delta))).toScalar
      with null | ⟨q, number, sum⟩
    · rw [null]
      exact .inl rfl
    · rw [sum]
      exact .inr ⟨q, number, rfl⟩
  | setNow f =>
    simp only [UpdateOp.step, filled, Sql.Expr.eval, hc, Outcome.ok_bind] at step
    obtain ⟨changed, set, rfl⟩ := jsonSet_ok step
    cases stored
    exact (cases_of_getD set).imp_right fun set => .inl ⟨_, rfl, set⟩
  | remove f =>
    simp only [UpdateOp.step, filled, Sql.Expr.eval, hc, Outcome.ok_bind] at step
    obtain ⟨changed, removed, rfl⟩ := jsonRemove_ok step
    cases stored
    exact (cases_of_getD removed).imp_right fun removed => .inr removed

/-! ## Levels -/

/-- The levels that the parts of an operation reach, counted from the root of the document. -/
def levels : UpdateOp → Nat
  | set f value => (Node.ofJson value).nesting + f.steps.length
  | increment f _ => f.steps.length
  | setNow f => f.steps.length
  | remove _ => 0

/-- Whether all numbers that an operation sets have 64 bits or are finite. A sum may be neither, and
so may a time without 64 bits. -/
def Exact (clock : Int) : UpdateOp → Prop
  | increment _ _ => False
  | setNow _ => ∃ i : Int64, i.toInt = clock
  | _ => True

variable {literals : String → Prop} {part : Node} {k : Nat}

theorem Sets.le_levels (h : op.Sets clock part) :
    part.nesting + op.field.steps.length ≤ op.levels := by
  cases op with
  | set f value =>
    obtain rfl := h
    exact Nat.le_refl _
  | increment f delta =>
    obtain rfl | ⟨q, -, rfl⟩ := h
    · exact (Nat.zero_add _).le
    · exact (Nat.zero_add _).le
  | setNow f =>
    obtain rfl := h
    exact (Nat.zero_add _).le
  | remove f => exact h.elim

theorem Sets.readable (h : op.Sets clock part) : part.Fits Node.Readable part.nesting := by
  cases op with
  | set f value =>
    obtain rfl := h
    exact Node.fits_ofJson (fun x => (Node.inRange_chars x).readable) value _ (Nat.le_refl _)
  | increment f delta =>
    obtain rfl | ⟨q, number, rfl⟩ := h
    · exact .null 0
    · exact .number 0 (Engine.exists_read?_literal q number)
  | setNow f =>
    obtain rfl := h
    exact .number 0 (Engine.exists_read?_literal _ (Quantity.isNaN_ofInt clock))
  | remove f => exact h.elim

theorem Sets.inRange (h : op.Sets clock part) (exact : op.Exact clock) :
    part.Fits Node.InRange part.nesting := by
  cases op with
  | set f value =>
    obtain rfl := h
    exact Node.fits_ofJson Node.inRange_chars value _ (Nat.le_refl _)
  | increment f delta => exact exact.elim
  | setNow f =>
    obtain ⟨i, rfl⟩ := exact
    obtain rfl := h
    rw [Quantity.ofInt_toInt]
    exact .number 0 (Node.inRange_chars (.ofInt64 i))
  | remove f => exact h.elim

/-- The outcome of an operation fits the levels of the document before and those that the operation
reaches. -/
theorem fits_stored (parts : ∀ part, op.Sets clock part → part.Fits literals part.nesting)
    (hn : n.Fits literals k) (h : op.stored column clock n = .ok m) :
    m.Fits literals (max k op.levels) := by
  rcases stored_ok h with rfl | ⟨part, sets, set⟩ | removed
  · exact hn.mono (Nat.le_max_left ..)
  · have deep : part.nesting + op.field.steps.length ≤ max k op.levels :=
      sets.le_levels.trans (Nat.le_max_right ..)
    have room : max k op.levels - op.field.steps.length + op.field.steps.length =
        max k op.levels := by omega
    rw [← room]
    refine ((parts part sets).mono (by omega)).setAt (hn.mono ?_) set
    rw [room]
    exact Nat.le_max_left ..
  · exact (hn.removeAt removed).mono (Nat.le_max_left ..)

/-- An operation leaves an object an object. -/
theorem object_stored (hn : ∃ members, n = .object members)
    (h : op.stored column clock n = .ok m) : ∃ members, m = .object members := by
  rcases stored_ok h with rfl | ⟨part, -, set⟩ | removed
  · exact hn
  · rcases op.field.steps_cases with fault | ⟨name, path, steps⟩
    · rw [fault] at set
      cases set
    · rw [steps] at set
      exact Node.setAt_key set
  · rcases op.field.steps_cases with fault | ⟨name, path, steps⟩
    · rw [fault] at removed
      cases removed
    · rw [steps] at removed
      exact Node.removeAt_key removed

end UpdateOp
end DocStore
