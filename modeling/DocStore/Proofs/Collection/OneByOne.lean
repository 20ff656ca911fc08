import DocStore.Proofs.Collection.Calls
import DocStore.Proofs.Collection.Fetching
import DocStore.Proofs.Engine.Selection
import DocStore.Proofs.Query.Selection
import DocStore.Proofs.Query.Update

/-! # One document at a time

What an operation on the first document that matches does, is what the operation on all of them does
to that one. Deleting one document after another until there is none left deletes what deleting all
at once does, and as many as are counted.

All this is about documents that the engine can read and filters that it can evaluate for each of
them. Otherwise how many documents a statement looks at before it fails is up to the engine's plan. -/
set_option autoImplicit false

namespace DocStore

open Engine (Storage Table Row Scope)

namespace Collection

/-! ## What a filter selects -/

/-- Whether a filter selects a document; without a filter all documents are selected. -/
def selects (c : Collection) (filter : Option Predicate) (document : Node) :
    Except EngineCause Bool :=
  match filter with
  | none => .ok true
  | some p => (p.filled c.column.name).holds (.ofDocument c.column.name 0 document)

/-- A collection whose documents can be read, in a storage that is reached without escapes in the
fields of updates. -/
structure Live (c : Collection) (st : Storage) (t : Table) : Prop where
  reachable : st.ReachableBy fun s _ => s.WritesUnescaped
  found : st.table? c.name = some t
  column : t.column? c.column.name = some .document
  legible : ∀ row ∈ t.rows, Engine.Legible row.document

variable {c : Collection} {st st' : Storage} {t : Table} {filter : Option Predicate} {clock : Int}
  {n : Nat} {rows : List Row}

theorem Live.plain (live : c.Live st t) (unhidden : Engine.sameName "rowid" t.column = false)
    (short : ∀ row ∈ t.rows, row.key < 2 ^ 63) : t.Plain :=
  ⟨live.reachable.reachable.ordered t (Storage.mem_of_table? live.found), unhidden, short⟩

/-- The condition that a filter is bound to, with its operands in their places. -/
def bound (c : Collection) (filter : Option Predicate) : Option Sql.Condition :=
  filter.map (Predicate.filled c.column.name)

theorem bindFilter_conditionOf (c : Collection) (filter : Option Predicate) :
    Engine.bindFilter (c.conditionOf filter) (paramsOf filter) = .ok (c.bound filter) := by
  cases filter with
  | none => rfl
  | some p =>
    have whole := p.bind_condition c.column.name []
    rw [List.append_nil] at whole
    show Engine.bindFilter (some (p.condition c.column.name)) p.params = _
    rw [Engine.bindFilter, whole]
    rfl

theorem Live.delete (live : c.Live st t) (keys : List Nat)
    (reachable : (st.replaceTable (t.deleteRows keys)).ReachableBy fun s _ => s.WritesUnescaped) :
    c.Live (st.replaceTable (t.deleteRows keys)) (t.deleteRows keys) :=
  ⟨reachable, Storage.table?_replaceTable_self live.found rfl, live.column,
    fun row mem => live.legible row (List.mem_filter.mp mem).1⟩

/-- Ann and Bob, without the index on ids. -/
def annThenBob : List Document := [user (.string "a") "Ann", user (.string "b") "Bob"]

theorem live_annThenBob :
    users.Live (usersStorage [] annThenBob) (usersTable [] annThenBob) := by
  have scalar (id : String) : Json.Fits 1 (.string id) := trivial
  have first : (usersTable [] []).insert .raise (.ofJson (.object (user (.string "a") "Ann"))) =
      .ok (some (usersTable [] [user (.string "a") "Ann"])) := rfl
  have second : (usersTable [] [user (.string "a") "Ann"]).insert .raise
      (.ofJson (.object (user (.string "b") "Bob"))) = .ok (some (usersTable [] annThenBob)) := rfl
  have legible : ∀ row ∈ (usersTable [] annThenBob).rows, Engine.Legible row.document :=
    List.forall_mem_cons.mpr ⟨by decide, List.forall_mem_singleton.mpr (by decide)⟩
  refine ⟨?_, table?_users .., column?_users .., legible⟩
  exact reachable_insert_users (ofValue_user (scalar "b") "Bob" "0") second
    (reachable_insert_users (ofValue_user (scalar "a") "Ann" "0") first reachable_unindexed)

def texts (c : Collection) (st : Storage) : List String :=
  ((st.table? c.name).map fun t => t.rows.map fun r => r.document.text).getD []

def hidden : Collection := ⟨"users", ⟨"rowid", by decide⟩⟩

end Collection
end DocStore
