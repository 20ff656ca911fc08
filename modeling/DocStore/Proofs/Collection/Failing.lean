import DocStore.Proofs.Collection.Calls
import DocStore.Proofs.Statement.Failing

/-! # Failing operations

Whatever an executor answers, an operation on a collection sends nothing after the first error. What
an operation refuses by itself is refused before anything is sent, and where the catalog cannot be
read the query for it is all that is sent. -/
set_option autoImplicit false

namespace DocStore

open Sql (Column)

/-- An operation on a collection, with its arguments. -/
inductive Operation where
  | openNamed (name : String) (column : Column)
  | call (k : Call)
  | find (filter : Option Predicate) (options : FindOptions)
  | findOne (filter : Option Predicate) (options : FindOptions)
  | get (transforms : Transforms) (id : Value)
  | count (filter : Option Predicate)
  | indexes
  | dropIndex (d : IndexDescriptor)
  | dropIndexByName (name : String)

namespace Operation

def Answer : Operation → Type
  | openNamed .. => Collection
  | call k => k.Answer
  | find .. => List Document
  | findOne .. => Option Document
  | get .. => Option Document
  | count _ => Nat
  | indexes => List IndexDescriptor
  | dropIndex _ => Bool
  | dropIndexByName _ => Unit

def program (c : Collection) : (op : Operation) → Program op.Answer
  | openNamed name column => Collection.openNamed name column
  | call k => k.program c
  | find filter options => c.find filter options
  | findOne filter options => c.findOne filter options
  | get transforms id => c.get transforms id
  | count filter => c.count filter
  | indexes => c.indexes
  | dropIndex d => c.dropIndex d
  | dropIndexByName name => Collection.dropIndexByName name

/-- The outcome of an operation, and the calls that it makes. -/
def outcome (op : Operation) (c : Collection) (answers : Answers) :
    Except Error op.Answer × List RecordedCall :=
  (op.program c).run answers.executor []

/-! ## Refused arguments -/

/-- The error of a value that makes no document. -/
inductive NoDocument (transforms : Transforms) : Value → Error → Prop where
  | unencodable {v : Value} {e : Error} (h : v.toJson transforms = .error e) :
    NoDocument transforms v e
  | notObject {v : Value} {j : Json} (encoded : v.toJson transforms = .ok j)
    (other : ∀ members, j ≠ .object members) : NoDocument transforms v (.notADocument j)

theorem NoDocument.ofValue {transforms : Transforms} {v : Value} {e : Error}
    (h : NoDocument transforms v e) (freshId : String) :
    Document.ofValue transforms freshId v = .error e := by
  cases h with
  | unencodable failed =>
    rw [Document.ofValue, failed]
    rfl
  | @notObject j encoded other =>
    rw [Document.ofValue, encoded, Outcome.ok_bind]
    cases j with
    | object members => exact absurd rfl (other members)
    | _ => rfl

/-- The arguments that an operation refuses, and the error that it refuses them with. Of several
values the first one that makes no document counts. -/
inductive Refuses : Operation → Error → Prop where
  | name {name : String} {column : Column} (h : Sql.isPlainIdentifier name = false) :
    Refuses (.openNamed name column) (.invalidCollectionName name)
  | value {transforms : Transforms} {freshId : String} {v : Value} {onConflict : OnConflict}
    {e : Error} (h : NoDocument transforms v e) :
    Refuses (.call (.edit (.insert transforms freshId v onConflict))) e
  | values {transforms : Transforms} {before after : List (String × Value)} {freshId : String}
    {v : Value} {onConflict : OnConflict} {e : Error}
    (made : ∀ w ∈ before, ∃ d, Document.ofValue transforms w.1 w.2 = .ok d)
    (h : NoDocument transforms v e) :
    Refuses (.call (.edit (.insertMany transforms (before ++ (freshId, v) :: after) onConflict))) e
  | id {transforms : Transforms} {id : Value} {e : Error} (h : id.toJson transforms = .error e) :
    Refuses (.get transforms id) e

theorem Refuses.program_eq {op : Operation} {e : Error} (h : op.Refuses e) (c : Collection) :
    op.program c = .fail e := by
  cases h with
  | name plain =>
    show Collection.openNamed _ _ = _
    rw [Collection.openNamed, plain]
    rfl
  | value failed =>
    show Collection.insert c _ _ _ _ = _
    rw [Collection.insert, failed.ofValue]
    rfl
  | @values transforms before after freshId v _ e made failed =>
    have first : Collection.documentsOf transforms (before ++ (freshId, v) :: after) = .error e :=
      Outcome.mapM_append_error made (failed.ofValue freshId)
    show Collection.insertMany c _ _ _ = _
    rw [Collection.insertMany, first]
    rfl
  | id failed =>
    show Collection.get c _ _ = _
    rw [Collection.get, Collection.hasId, Comparison.ofValue, failed]
    rfl

/-! ## Unreadable catalogs -/

/-- Whether an operation begins with reading the indexes of the collection from the catalog. -/
def ReadsCatalog : Operation → Prop
  | indexes => True
  | dropIndex _ => True
  | call .dropAllIndexes => True
  | call (.syncIndexes _) => True
  | _ => False

/-- The query for the indexes of a collection. -/
def catalogQuery (c : Collection) : RecordedCall where
  text := Statement.listIndexesText
  params := [.string c.name]

theorem run_list_unreadable {answers : Answers} {c : Collection} {out : QueryOutput}
    {row : List Json} {e : Error} (answered : answers [catalogQuery c] = .ok out)
    (mem : row ∈ out.rows) (unreadable : IndexSync.descriptorOfRow row = .error e) :
    ∃ row' ∈ out.rows, ∃ e', IndexSync.descriptorOfRow row' = .error e' ∧
      (IndexSync.list c.name).run answers.executor [] = (.error e', [catalogQuery c]) := by
  cases read : out.rows.mapM IndexSync.descriptorOfRow with
  | ok ds =>
    obtain ⟨d, hd⟩ := Outcome.exists_of_mapM_eq_ok read mem
    cases hd.symm.trans unreadable
  | error e' =>
    obtain ⟨row', mem', failed⟩ := Outcome.exists_of_mapM_eq_error read
    refine ⟨row', mem', e', failed, ?_⟩
    have sent : answers.executor.execute .listIndexes [.string c.name] [] =
        (.ok out, [catalogQuery c]) := congrArg (·, [catalogQuery c]) answered
    rw [IndexSync.list, Program.run_bind_ok (Program.run_send_ok sent), Program.run_ofExcept, read]

theorem ReadsCatalog.outcome_eq {op : Operation} (h : op.ReadsCatalog) {c : Collection}
    {answers : Answers} {e : Error} {calls : List RecordedCall}
    (failed : (IndexSync.list c.name).run answers.executor [] = (.error e, calls)) :
    op.outcome c answers = (.error e, calls) := by
  cases op with
  | indexes => exact failed
  | dropIndex d => exact Program.run_bind_error failed _
  | call k =>
    cases k with
    | dropAllIndexes => exact Program.run_bind_error failed _
    | syncIndexes desired => exact Program.run_bind_error failed _
    | edit e => exact h.elim
    | createIndex d => exact h.elim
  | _ => exact h.elim

/-! ## Failures -/

/-- An operation ends with the first call that is answered with an error, and with that error. Had
the call succeeded, these calls would have come first all the same. An argument that is refused ends
the operation before any call, and an unreadable row of the catalog after the query for it. A script
answers like any other executor. -/
theorem outcome_failing (op : Operation) (c : Collection) (answers : Answers) :
    (∀ calls e, calls ≠ [] → calls <+: (op.outcome c answers).2 → answers calls = .error e →
      op.outcome c answers = (.error e, calls)) ∧
    (∀ answers' : Answers, (∀ calls out, answers calls = .ok out → answers' calls = .ok out) →
      (op.outcome c answers).2 <+: (op.outcome c answers').2) ∧
    (∀ e, op.Refuses e → op.outcome c answers = (.error e, [])) ∧
    (op.ReadsCatalog → ∀ out, answers [catalogQuery c] = .ok out → ∀ row ∈ out.rows, ∀ e,
      IndexSync.descriptorOfRow row = .error e →
      ∃ row' ∈ out.rows, ∃ e', IndexSync.descriptorOfRow row' = .error e' ∧
        op.outcome c answers = (.error e', [catalogQuery c])) ∧
    ∀ responses, (op.program c).run Script.executor { responses } =
      Prod.map id (Script.afterCalls responses) (op.outcome c (Script.answers responses)) := by
  refine ⟨fun calls e nonempty stop failed => ?_, fun answers' agree => ?_, fun e refused => ?_,
    fun reads out answered row mem e unreadable => ?_, fun responses => ?_⟩
  · exact (Answers.ends_run _).ends calls e List.nil_prefix nonempty stop failed
  · exact (Answers.goesOn_run agree _).sent
  · rw [outcome, refused.program_eq]
    rfl
  · obtain ⟨row', mem', e', first, failed⟩ := run_list_unreadable answered mem unreadable
    exact ⟨row', mem', e', first, reads.outcome_eq failed⟩
  · exact Script.run_afterCalls responses _ []

/-! ## A full disk -/

def notes : Collection := ⟨"notes", .standard⟩

/-- Two indexes are missing beside the one on ids; there is no room for the first of them. -/
def fullDisk : List ScriptedResponse := [.rows [], .affected 0, .error "disk full"]

def freeDisk : List ScriptedResponse := [.rows [], .affected 0, .affected 0]

theorem freeDisk_agrees (calls : List RecordedCall) (out : QueryOutput)
    (h : Script.answers fullDisk calls = .ok out) : Script.answers freeDisk calls = .ok out := by
  unfold Script.answers at h ⊢
  match calls.length - 1, h with
  | 0, h => exact h
  | 1, h => exact h
  | 2, h => cases h
  | n + 3, h => exact h

theorem outcome_failing_fullDisk :
    let sync : Operation :=
      .call (.syncIndexes [.ofField .path ⟨"age"⟩, .ofField .path ⟨"name"⟩])
    (∃ calls, calls.length = 3 ∧ sync.outcome notes (Script.answers fullDisk) =
        (.error (.engine (.reported "disk full")), calls) ∧
      calls <+: (sync.outcome notes (Script.answers freeDisk)).2) ∧
    (sync.outcome notes (Script.answers freeDisk)).2.length = 4 ∧
    (openNamed "two words" .standard).outcome notes (Script.answers freeDisk) =
      (.error (.invalidCollectionName "two words"), []) ∧
    ((sync.program notes).run Script.executor { responses := fullDisk }).1 =
      .error (.engine (.reported "disk full")) ∧
    ∃ e, sync.outcome notes (Script.answers [.rows [[.null, .null]]]) =
      (.error e, [catalogQuery notes]) := by
  intro sync
  obtain ⟨ends, goesOn, -, -, scripted⟩ := outcome_failing sync notes (Script.answers fullDisk)
  have failed := ends (sync.outcome notes (Script.answers fullDisk)).2
    (.engine (.reported "disk full")) nofun List.prefix_rfl rfl
  obtain ⟨-, -, refuses, -, -⟩ :=
    outcome_failing (openNamed "two words" .standard) notes (Script.answers freeDisk)
  obtain ⟨-, -, -, unreadable, -⟩ :=
    outcome_failing sync notes (Script.answers [.rows [[.null, .null]]])
  obtain ⟨-, -, e, -, stopped⟩ :=
    unreadable trivial _ rfl _ (List.mem_singleton.mpr rfl) _ rfl
  refine ⟨⟨_, rfl, failed, goesOn _ freeDisk_agrees⟩, rfl, refuses _ (.name (by decide)), ?_, e,
    stopped⟩
  rw [scripted, failed]
  rfl

end Operation
end DocStore
