import DocStore.Proofs.Statement.Running
import DocStore.Statement.Script

/-! # Failures end a program

An executor may answer anything: what it answers to a statement is a function of all calls so far,
which it records. Against any such answers a program sends nothing after the first error, and that
error is its outcome. Where other answers agree as far as no error is met, the program goes on from
where it stopped. A script of prepared responses is such an executor. -/
set_option autoImplicit false

namespace DocStore

/-! ## What follows an answer -/

namespace Program

variable {σ α β : Type}

/-- An answer and what is done next with it; an error is the end. -/
def followedBy (first : Except Error α × σ) (next : α → σ → Except Error β × σ) :
    Except Error β × σ :=
  match first with
  | (.ok a, st) => next a st
  | (.error e, st) => (.error e, st)

theorem run_execute (x : Executor σ) (s : Statement) (params : List Json)
    (next : QueryOutput → Program α) (st : σ) :
    (execute s params next).run x st =
      followedBy (x.execute s params st) fun o st => (next o).run x st := by
  rw [run]
  rcases x.execute s params st with ⟨e | o, st⟩ <;> rfl

theorem run_executeMany (x : Executor σ) (s : Statement) (batch : List (List Json))
    (next : Nat → Program α) (st : σ) :
    (executeMany s batch next).run x st =
      followedBy (x.executeMany s batch st) fun n st => (next n).run x st := by
  rw [run]
  rcases x.executeMany s batch st with ⟨e | n, st⟩ <;> rfl

theorem executeEach_cons (execute : List Json → σ → Except Error QueryOutput × σ)
    (params : List Json) (batch : List (List Json)) (st : σ) :
    executeEach execute (params :: batch) st =
      followedBy (execute params st) fun o st =>
        followedBy (executeEach execute batch st) fun n st => (.ok (o.affected + n), st) := by
  rw [executeEach]
  rcases execute params st with ⟨e | o, st⟩
  · rfl
  · dsimp only [followedBy]
    rcases executeEach execute batch st with ⟨e | n, st⟩ <;> rfl

end Program

open Program (followedBy run_execute run_executeMany executeEach_cons)

/-! ## Answers to calls -/

/-- What is answered to the last of the calls made so far. -/
abbrev Answers := List RecordedCall → Except Error QueryOutput

namespace Answers

variable {α β : Type} (answers : Answers)

def record (text : String) (params : List Json) (calls : List RecordedCall) :
    Except Error QueryOutput × List RecordedCall :=
  let calls := calls ++ [RecordedCall.mk text params]
  (answers calls, calls)

/-- Records each call before it is answered; a batch is sent as statements one after another. -/
def executor : Executor (List RecordedCall) where
  execute s params calls := answers.record s.text params calls
  executeMany s batch calls := executeEach (answers.record s.text) batch calls

/-! ## Nothing after an error -/

/-- Whether what happened after some calls ended with the first call that was answered with an
error, and with that error. -/
structure Ends (before : List RecordedCall) (r : Except Error α × List RecordedCall) : Prop where
  grows : before <+: r.2
  ends : ∀ calls e, before <+: calls → calls ≠ before → calls <+: r.2 → answers calls = .error e →
    r = (.error e, calls)

variable {answers} {before between : List RecordedCall}

theorem ends_done (r : Except Error α) : answers.Ends before (r, before) := by
  refine ⟨List.prefix_rfl, fun calls e start more stop _ => ?_⟩
  exact absurd (stop.eq_of_length_le start.length_le) more

theorem ends_record (text : String) (params : List Json) :
    answers.Ends before (answers.record text params before) := by
  refine ⟨List.prefix_append .., fun calls e start more stop failed => ?_⟩
  have whole : calls = before ++ [RecordedCall.mk text params] := by
    rcases List.prefix_concat_iff.mp stop with whole | part
    · exact whole
    · exact absurd (part.eq_of_length_le start.length_le) more
  rw [record, ← whole, failed]

/-- What is done next, if there was no error, goes on from the calls made so far. -/
theorem Ends.next {first : Except Error α × List RecordedCall}
    {next : α → List RecordedCall → Except Error β × List RecordedCall}
    (h : answers.Ends before first) (rest : ∀ a between, answers.Ends between (next a between)) :
    answers.Ends before (followedBy first next) := by
  obtain ⟨e | a, between⟩ := first
  · refine ⟨h.grows, fun calls e' start more stop failed => ?_⟩
    cases h.ends calls e' start more stop failed
    rfl
  · have later := rest a between
    refine ⟨h.grows.trans later.grows, fun calls e start more stop failed => ?_⟩
    rcases List.prefix_or_prefix_of_prefix stop later.grows with early | late
    · cases (Prod.mk.inj (h.ends calls e start more early failed)).1
    · by_cases same : calls = between
      · subst same
        cases (Prod.mk.inj (h.ends calls e start more List.prefix_rfl failed)).1
      · exact later.ends calls e late same stop failed

theorem ends_executeEach (text : String) (batch : List (List Json)) :
    answers.Ends before (executeEach (answers.record text) batch before) := by
  induction batch generalizing before with
  | nil => exact ends_done _
  | cons params batch ih =>
    rw [executeEach_cons]
    refine (ends_record text params).next fun out between => ?_
    exact ih.next fun n calls => ends_done (.ok (out.affected + n))

/-- A program sends nothing after the first error, and that error is its outcome. -/
theorem ends_run (p : Program α) : answers.Ends before (p.run answers.executor before) := by
  induction p generalizing before with
  | done a => exact ends_done _
  | fail e => exact ends_done _
  | execute s params next ih =>
    rw [run_execute]
    exact (ends_record s.text params).next fun out _ => ih out
  | executeMany s batch next ih =>
    rw [run_executeMany]
    exact (ends_executeEach s.text batch).next fun n _ => ih n

/-! ## Other answers -/

/-- Whether an outcome goes on from another: it is the other one unless that is an error, which may
have ended early. -/
structure GoesOn (r r' : Except Error α × List RecordedCall) : Prop where
  sent : r.2 <+: r'.2
  same : ∀ a, r.1 = .ok a → r' = r

variable {answers' : Answers}

theorem goesOn_refl (r : Except Error α × List RecordedCall) : GoesOn r r :=
  ⟨List.prefix_rfl, fun _ _ => rfl⟩

theorem GoesOn.next {first first' : Except Error α × List RecordedCall}
    {next next' : α → List RecordedCall → Except Error β × List RecordedCall}
    (h : GoesOn first first') (rest : ∀ a between, GoesOn (next a between) (next' a between))
    (grows : ∀ a between, between <+: (next' a between).2) :
    GoesOn (followedBy first next) (followedBy first' next') := by
  obtain ⟨e | a, between⟩ := first
  · refine ⟨?_, nofun⟩
    obtain ⟨e' | a', between'⟩ := first'
    · exact h.sent
    · exact h.sent.trans (grows a' between')
  · cases h.same a rfl
    exact rest a between

variable (agree : ∀ calls out, answers calls = .ok out → answers' calls = .ok out)
include agree

theorem goesOn_record (text : String) (params : List Json) :
    GoesOn (answers.record text params before) (answers'.record text params before) := by
  refine ⟨List.prefix_rfl, fun out answered => ?_⟩
  rw [record, record, agree _ out answered]
  exact congrArg (·, _) answered.symm

theorem goesOn_executeEach (text : String) (batch : List (List Json)) :
    GoesOn (executeEach (answers.record text) batch before)
      (executeEach (answers'.record text) batch before) := by
  induction batch generalizing before with
  | nil => exact goesOn_refl _
  | cons params batch ih =>
    rw [executeEach_cons, executeEach_cons]
    refine (goesOn_record agree text params).next (fun out between => ?_) fun out between => ?_
    · exact ih.next (fun n calls => goesOn_refl (.ok (out.affected + n), calls))
        fun n calls => List.prefix_rfl
    · exact ((ends_executeEach text batch).next fun n calls =>
        ends_done (.ok (out.affected + n))).grows

/-- Where no answer but an error is another one, a program goes on from where it stopped. -/
theorem goesOn_run (p : Program α) :
    GoesOn (p.run answers.executor before) (p.run answers'.executor before) := by
  induction p generalizing before with
  | done a => exact goesOn_refl _
  | fail e => exact goesOn_refl _
  | execute s params next ih =>
    rw [run_execute, run_execute]
    exact (goesOn_record agree s.text params).next (fun out _ => ih out)
      fun out _ => (ends_run (next out)).grows
  | executeMany s batch next ih =>
    rw [run_executeMany, run_executeMany]
    exact (goesOn_executeEach agree s.text batch).next (fun n _ => ih n)
      fun n _ => (ends_run (next n)).grows

end Answers

/-! ## Scripts -/

namespace Script

/-- The answers of a script: its responses in their order, and empty ones when none is left. -/
def answers (responses : List ScriptedResponse) : Answers := fun calls =>
  match responses[calls.length - 1]? with
  | some r => outputOf r
  | none => .ok {}

/-- A script after some calls, each of which took one of its responses. -/
def afterCalls (responses : List ScriptedResponse) (calls : List RecordedCall) : Script :=
  { responses := responses.drop calls.length, calls }

variable {α β : Type} (responses : List ScriptedResponse)

theorem sendText_afterCalls (text : String) (params : List Json) (calls : List RecordedCall) :
    sendText text params (afterCalls responses calls) =
      Prod.map id (afterCalls responses) ((answers responses).record text params calls) := by
  have last : (calls ++ [RecordedCall.mk text params]).length - 1 = calls.length := by simp
  have next : responses[calls.length]? = (responses.drop calls.length)[0]? := by simp
  have left : responses.drop (calls ++ [RecordedCall.mk text params]).length =
      (responses.drop calls.length).tail := by simp
  rw [Answers.record, answers, last, next, Prod.map, afterCalls, afterCalls, left, sendText]
  cases responses.drop calls.length with
  | nil => rfl
  | cons r rest => rfl

theorem followedBy_afterCalls {first : Except Error α × List RecordedCall}
    {next : α → List RecordedCall → Except Error β × List RecordedCall}
    {next' : α → Script → Except Error β × Script}
    (h : ∀ a calls, next' a (afterCalls responses calls) =
      Prod.map id (afterCalls responses) (next a calls)) :
    followedBy (Prod.map id (afterCalls responses) first) next' =
      Prod.map id (afterCalls responses) (followedBy first next) := by
  obtain ⟨e | a, calls⟩ := first
  · rfl
  · exact h a calls

theorem executeEach_afterCalls (text : String) (batch : List (List Json))
    (calls : List RecordedCall) :
    sendTextEach text batch (afterCalls responses calls) =
      Prod.map id (afterCalls responses)
        (executeEach ((answers responses).record text) batch calls) := by
  unfold sendTextEach
  induction batch generalizing calls with
  | nil => rfl
  | cons params batch ih =>
    rw [executeEach_cons, executeEach_cons, sendText_afterCalls]
    apply followedBy_afterCalls
    intro out between
    rw [ih]
    exact followedBy_afterCalls responses fun n after => rfl

/-- A script answers a program as its responses in their order do. -/
theorem run_afterCalls (p : Program α) (calls : List RecordedCall) :
    p.run executor (afterCalls responses calls) =
      Prod.map id (afterCalls responses) (p.run (answers responses).executor calls) := by
  induction p generalizing calls with
  | done a => rfl
  | fail e => rfl
  | execute s params next ih =>
    rw [run_execute, run_execute]
    show followedBy (sendText s.text params _) _ = _
    rw [sendText_afterCalls]
    exact followedBy_afterCalls responses fun out => ih out
  | executeMany s batch next ih =>
    rw [run_executeMany, run_executeMany]
    show followedBy (sendTextEach s.text batch _) _ = _
    rw [executeEach_afterCalls]
    exact followedBy_afterCalls responses fun n => ih n

end Script
end DocStore
