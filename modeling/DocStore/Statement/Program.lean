import DocStore.Error
import DocStore.Statement.Basic

/-! # Programs of statements

An operation of the document store is a program: it sends statements one after another, and what it
sends next may depend on the answers so far. A program does not say what a statement does; an
executor does, over a state of its own. The first statement that fails ends the run with its
error. -/
set_option autoImplicit false

namespace DocStore

/-- The rows that a statement returned, and the number of rows it changed. -/
structure QueryOutput where
  rows : List (List Json) := []
  affected : Nat := 0

def QueryOutput.scalar? (o : QueryOutput) : Option Json := o.rows.head?.bind List.head?

inductive Program (α : Type) where
  | done (a : α)
  | fail (e : Error)
  | execute (s : Statement) (params : List Json) (next : QueryOutput → Program α)
  /-- Sends a statement once for each list of parameters; the answer is the number of rows
  changed. -/
  | executeMany (s : Statement) (batch : List (List Json)) (next : Nat → Program α)

namespace Program

def bind {α β : Type} (p : Program α) (f : α → Program β) : Program β :=
  match p with
  | done a => f a
  | fail e => fail e
  | execute s params next => execute s params fun o => (next o).bind f
  | executeMany s batch next => executeMany s batch fun n => (next n).bind f

instance : Monad Program where
  pure := done
  bind := bind

def send (s : Statement) (params : List Json) : Program QueryOutput := execute s params done

def sendMany (s : Statement) (batch : List (List Json)) : Program Nat := executeMany s batch done

def ofExcept {α : Type} : Except Error α → Program α
  | .ok a => done a
  | .error e => fail e

end Program

/-! ## Running -/

structure Executor (σ : Type) where
  execute : Statement → List Json → σ → Except Error QueryOutput × σ
  executeMany : Statement → List (List Json) → σ → Except Error Nat × σ

namespace Program

/-- The outcome of a program and the state it leaves. -/
def run {σ α : Type} (x : Executor σ) : Program α → σ → Except Error α × σ
  | done a, st => (.ok a, st)
  | fail e, st => (.error e, st)
  | execute s params next, st =>
    match x.execute s params st with
    | (.ok o, st) => (next o).run x st
    | (.error e, st) => (.error e, st)
  | executeMany s batch next, st =>
    match x.executeMany s batch st with
    | (.ok n, st) => (next n).run x st
    | (.error e, st) => (.error e, st)

end Program

/-- A batch as statements one after another: the sum of the rows changed, or the first error with
the statements before it carried out. -/
def executeEach {σ : Type} (execute : List Json → σ → Except Error QueryOutput × σ) :
    List (List Json) → σ → Except Error Nat × σ
  | [], st => (.ok 0, st)
  | params :: batch, st =>
    match execute params st with
    | (.error e, st) => (.error e, st)
    | (.ok o, st) =>
      match executeEach execute batch st with
      | (.ok n, st) => (.ok (o.affected + n), st)
      | (.error e, st) => (.error e, st)

end DocStore
