import DocStore.Statement.Program

/-! # Running programs in sequence

A program in sequence with another runs the other from where it stopped, unless it failed. -/
set_option autoImplicit false

namespace DocStore.Program

variable {σ α β : Type}

theorem run_ofExcept (x : Executor σ) (r : Except Error α) (st : σ) :
    (ofExcept r).run x st = (r, st) := by
  cases r <;> rfl

theorem run_send (x : Executor σ) (s : Statement) (params : List Json) (st : σ) :
    (send s params).run x st = x.execute s params st := by
  rw [send, run]
  split
  · rename_i sent
    exact sent.symm
  · rename_i failed
    exact failed.symm

theorem run_send_ok {x : Executor σ} {s : Statement} {params : List Json} {st st' : σ}
    {o : QueryOutput} (h : x.execute s params st = (.ok o, st')) :
    (send s params).run x st = (.ok o, st') := by
  rw [send, run, h]
  rfl

/-- What runs to a value hands it, and its state, to what follows; what fails ends the run. -/
theorem run_bind (x : Executor σ) (p : Program α) (f : α → Program β) (st : σ) :
    (p >>= f).run x st =
      match p.run x st with
      | (.ok a, st) => (f a).run x st
      | (.error e, st) => (.error e, st) := by
  change (p.bind f).run x st = _
  induction p generalizing st with
  | done a => rfl
  | fail e => rfl
  | execute s params next ih =>
    rw [bind, run, run]
    split
    · exact ih _ _
    · rfl
  | executeMany s batch next ih =>
    rw [bind, run, run]
    split
    · exact ih _ _
    · rfl

theorem run_bind_ok {x : Executor σ} {p : Program α} {f : α → Program β} {st st' : σ} {a : α}
    (h : p.run x st = (.ok a, st')) : (p >>= f).run x st = (f a).run x st' := by
  rw [run_bind, h]

theorem run_bind_error {x : Executor σ} {p : Program α} {st st' : σ} {e : Error}
    (h : p.run x st = (.error e, st')) (f : α → Program β) :
    (p >>= f).run x st = (.error e, st') := by
  rw [run_bind, h]

theorem of_run_bind_ok {x : Executor σ} {p : Program α} {f : α → Program β} {st st' : σ} {b : β}
    (h : (p >>= f).run x st = (.ok b, st')) :
    ∃ a between, p.run x st = (.ok a, between) ∧ (f a).run x between = (.ok b, st') := by
  rw [run_bind] at h
  split at h
  · rename_i a between first
    exact ⟨a, between, first, h⟩
  · cases (Prod.mk.inj h).1

theorem of_run_bind_error {x : Executor σ} {p : Program α} {f : α → Program β} {st st' : σ}
    {e : Error} (h : (p >>= f).run x st = (.error e, st')) :
    p.run x st = (.error e, st') ∨
      ∃ a between, p.run x st = (.ok a, between) ∧ (f a).run x between = (.error e, st') := by
  rw [run_bind] at h
  split at h
  · rename_i a between first
    exact .inr ⟨a, between, first, h⟩
  · rename_i failed
    cases h
    exact .inl failed

/-- What the first of two programs keeps, and the second keeps where the first one answers, both in
sequence keep. -/
theorem run_bind_keeps {x : Executor σ} {p : Program α} {f : α → Program β} {P : σ → Prop} {st : σ}
    (first : P (p.run x st).2)
    (second : ∀ a st', p.run x st = (.ok a, st') → P st' → P ((f a).run x st').2) :
    P ((p >>= f).run x st).2 := by
  rw [run_bind]
  split
  · rename_i a st' answered
    rw [answered] at first
    exact second a st' answered first
  · rename_i failed
    rw [failed] at first
    exact first

theorem executeEach_cons_ok {execute : List Json → σ → Except Error QueryOutput × σ}
    {params : List Json} {batch : List (List Json)} {st st' : σ} {n : Nat}
    (h : executeEach execute (params :: batch) st = (.ok n, st')) :
    ∃ out between m, execute params st = (.ok out, between) ∧
      executeEach execute batch between = (.ok m, st') ∧ n = out.affected + m := by
  rw [executeEach] at h
  split at h
  · cases (Prod.mk.inj h).1
  · rename_i out between sent
    split at h
    · rename_i m last done
      cases h
      exact ⟨out, between, m, sent, done, rfl⟩
    · cases (Prod.mk.inj h).1

/-- What each statement of a batch keeps, the batch keeps, as far as it is carried out. -/
theorem executeEach_keeps {execute : List Json → σ → Except Error QueryOutput × σ} {P : σ → Prop}
    {batch : List (List Json)}
    (single : ∀ params ∈ batch, ∀ st, P st → P (execute params st).2) {st : σ} (h : P st) :
    P (executeEach execute batch st).2 := by
  induction batch generalizing st with
  | nil => exact h
  | cons params batch ih =>
    obtain ⟨one, others⟩ := List.forall_mem_cons.mp single
    have first := one st h
    rw [executeEach]
    split
    · rename_i failed
      rw [failed] at first
      exact first
    · rename_i sent
      rw [sent] at first
      have rest := ih others first
      split
      · rename_i done
        rw [done] at rest
        exact rest
      · rename_i failed
        rw [failed] at rest
        exact rest

/-- Whether all statements that a program may send, with their parameters, are of some kind. -/
inductive Sends (kind : Statement → List Json → Prop) : Program α → Prop where
  | done (a : α) : Sends kind (.done a)
  | fail (e : Error) : Sends kind (.fail e)
  | execute {s : Statement} {params : List Json} {next : QueryOutput → Program α}
    (h : kind s params) (rest : ∀ o, Sends kind (next o)) : Sends kind (.execute s params next)
  | executeMany {s : Statement} {batch : List (List Json)} {next : Nat → Program α}
    (h : ∀ params ∈ batch, kind s params) (rest : ∀ n, Sends kind (next n)) :
    Sends kind (.executeMany s batch next)

theorem sends_any (p : Program α) : p.Sends fun _ _ => True := by
  induction p with
  | done a => exact .done a
  | fail e => exact .fail e
  | execute s params next ih => exact .execute trivial ih
  | executeMany s batch next ih => exact .executeMany (fun _ _ => trivial) ih

variable {kind : Statement → List Json → Prop}

theorem Sends.mono {kind' : Statement → List Json → Prop} {p : Program α} (hp : p.Sends kind)
    (weaker : ∀ s params, kind s params → kind' s params) : p.Sends kind' := by
  induction hp with
  | done a => exact .done a
  | fail e => exact .fail e
  | execute h rest ih => exact .execute (weaker _ _ h) ih
  | executeMany h rest ih => exact .executeMany (fun params mem => weaker _ _ (h params mem)) ih

theorem Sends.bind {p : Program α} {f : α → Program β} (hp : p.Sends kind)
    (hf : ∀ a, (f a).Sends kind) : (p >>= f).Sends kind := by
  change (p.bind f).Sends kind
  induction hp with
  | done a => exact hf a
  | fail e => exact .fail e
  | execute h rest ih => exact .execute h ih
  | executeMany h rest ih => exact .executeMany h ih

theorem sends_ofExcept (r : Except Error α) : (ofExcept r).Sends kind := by
  cases r with
  | ok a => exact .done a
  | error e => exact .fail e

theorem Sends.ofExcept_bind {r : Except Error α} {f : α → Program β}
    (h : ∀ a, r = .ok a → (f a).Sends kind) : (ofExcept r >>= f).Sends kind := by
  cases r with
  | ok a => exact h a rfl
  | error e => exact .fail e

/-- What the statements and the batches that a program sends keep, the program keeps. -/
theorem Sends.run_keeps {x : Executor σ} {P : σ → Prop}
    (single : ∀ s params st, kind s params → P st → P (x.execute s params st).2)
    (many : ∀ s batch st, (∀ params ∈ batch, kind s params) → P st →
      P (x.executeMany s batch st).2)
    {p : Program α} (hp : p.Sends kind) {st : σ} (h : P st) : P (p.run x st).2 := by
  induction hp generalizing st with
  | done a => exact h
  | fail e => exact h
  | @execute s params next allowed rest ih =>
    have kept := single s params st allowed h
    rw [run]
    split
    · rename_i sent
      rw [sent] at kept
      exact ih _ kept
    · rename_i failed
      rw [failed] at kept
      exact kept
  | @executeMany s batch next allowed rest ih =>
    have kept := many s batch st allowed h
    rw [run]
    split
    · rename_i sent
      rw [sent] at kept
      exact ih _ kept
    · rename_i failed
      rw [failed] at kept
      exact kept

end DocStore.Program
