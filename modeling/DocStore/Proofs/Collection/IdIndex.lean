import DocStore.Proofs.Collection.Uniqueness
import DocStore.Proofs.Index.Convergence

/-! # The index on ids stays in the catalog

Calls that manage indexes are no transactions: each of their statements may fail, carried out or
not, and then the call ends where it stands. A catalog entry that reads as the unique index on ids
outlasts all calls but one that drops this very index: calls drop by name what the catalog lists for
another kind or field, and a catalog has one entry of a name. An entry reads as what it was made for
unless its name holds what opens a path. -/
set_option autoImplicit false

namespace DocStore

/-- The failure of a statement, which may have been carried out all the same. -/
structure Fault where
  error : Error
  carriedOut : Bool

namespace IndexKeeper

open IndexDescriptor (ofCatalog HoldsOpening name_of_ofCatalog)

/-! ## Statements that may fail -/

/-- Carries out a statement unless it fails, which is up to all that was sent so far. -/
def executeUnless (faults : List RecordedCall → Option Fault) (sparing : Bool) (table : String)
    (s : Statement) (params : List Json) (k : IndexKeeper) :
    Except Error QueryOutput × IndexKeeper :=
  match faults (k.record s params).calls with
  | none => execute sparing table s params k
  | some f =>
    (.error f.error,
      if f.carriedOut then (execute sparing table s params k).2 else k.record s params)

def failingExecutor (faults : List RecordedCall → Option Fault) (sparing : Bool) (table : String) :
    Executor IndexKeeper where
  execute := executeUnless faults sparing table
  executeMany s batch k := executeEach (executeUnless faults sparing table s) batch k

def Holds (name sql : String) (k : IndexKeeper) : Prop := k.definitions[name]? = some sql

variable {faults : List RecordedCall → Option Fault} {sparing : Bool} {table column name sql : String}
  {k k' : IndexKeeper} {s : Statement} {params : List Json}

theorem Holds.insertIfNew (h : k.Holds name sql) (n text : String) :
    (k.definitions.insertIfNew n text)[name]? = some sql := by
  have present : name ∈ k.definitions := by
    rw [Std.TreeMap.mem_iff_isSome_getElem?, h]
    rfl
  rw [Std.TreeMap.getElem?_insertIfNew]
  split
  · rename_i new
    obtain ⟨same, absent⟩ := new
    rw [Std.LawfulEqCmp.compare_eq_iff_eq.mp same] at absent
    exact absurd present absent
  · exact h

theorem Holds.erase (h : k.Holds name sql) {n : String} (other : n ≠ name) :
    (k.definitions.erase n)[name]? = some sql := by
  have apart : compare n name ≠ .eq := fun same =>
    other (Std.LawfulEqCmp.compare_eq_iff_eq.mp same)
  rw [Std.TreeMap.getElem?_erase, if_neg apart]
  exact h

theorem Holds.answer (h : k.Holds name sql) (spares : s.Spares column (· ≠ name)) :
    (answer sparing table s params k).2.Holds name sql := by
  unfold IndexKeeper.answer
  split
  · split
    · exact h
    · exact h
  · split
    · exact h.insertIfNew _ _
    · exact h
  · exact h.erase spares
  · exact h

theorem Holds.execute (h : k.Holds name sql) (spares : s.Spares column (· ≠ name)) :
    (execute sparing table s params k).2.Holds name sql := by
  have recorded : (k.record s params).Holds name sql := h
  exact recorded.answer spares

theorem Holds.executeUnless (h : k.Holds name sql) (spares : s.Spares column (· ≠ name)) :
    (executeUnless faults sparing table s params k).2.Holds name sql := by
  unfold IndexKeeper.executeUnless
  split
  · exact h.execute spares
  · split
    · exact h.execute spares
    · exact h

/-- What sends no statement that drops an entry keeps it, however far it gets. -/
theorem Holds.run {c : Collection} {α : Type} {p : Program α} (h : k.Holds name sql)
    (hp : c.Sparing (· ≠ name) p) :
    (p.run (failingExecutor faults sparing table) k).2.Holds name sql := by
  refine hp.run_keeps (P := Holds name sql) ?_ ?_ h
  · intro s params k spares entry
    exact entry.executeUnless spares
  · intro s batch k spares entry
    refine Program.executeEach_keeps (P := Holds name sql) ?_ entry
    intro params mem k entry
    exact entry.executeUnless (spares params mem)

theorem parses_of_run_list {existing : List IndexDescriptor}
    (h : (IndexSync.list table).run (failingExecutor faults sparing table) k = (.ok existing, k')) :
    k.Parses existing := by
  obtain ⟨out, between, sent, read⟩ := Program.of_run_bind_ok h
  rw [Program.run_send] at sent
  change executeUnless faults sparing table .listIndexes [.string table] k = _ at sent
  unfold executeUnless at sent
  split at sent
  · have answered : execute sparing table .listIndexes [.string table] k =
        (.ok { rows := k.rows }, k.record .listIndexes [.string table]) := if_pos rfl
    rw [answered] at sent
    obtain ⟨answer, -⟩ := Prod.mk.inj sent
    obtain rfl := Except.ok.inj answer
    rw [Program.run_ofExcept] at read
    rw [Parses, ← rows_mapM]
    exact (Prod.mk.inj read).1
  · cases (Prod.mk.inj sent).1

/-! ## Calls that manage indexes -/

end IndexKeeper

inductive IndexCall where
  | create (d : IndexDescriptor)
  | sync (desired : List IndexDescriptor)
  | dropAll
  | drop (d : IndexDescriptor)

namespace IndexCall

def Answer : IndexCall → Type
  | create _ => Unit
  | sync _ => IndexDiff
  | dropAll => Nat
  | drop _ => Bool

def program (c : Collection) : (call : IndexCall) → Program call.Answer
  | create d => c.createIndex d
  | sync desired => c.syncIndexes desired
  | dropAll => c.dropAllIndexes
  | drop d => c.dropIndex d

def SparesIds : IndexCall → Prop
  | drop d => d.identity ≠ Collection.idIndex.identity
  | _ => True

end IndexCall

namespace IndexKeeper

open IndexDescriptor (ofCatalog HoldsOpening name_of_ofCatalog)
open Collection (idIndex)

/-- Whether a catalog entry reads as the unique index on ids. -/
def ReadsAsIds (name sql : String) : Prop :=
  ∃ d, ofCatalog name sql = .ok d ∧ d.identity = idIndex.identity

/-- The catalog after calls, each carried out as far as no statement of it fails. -/
def after (faults : List RecordedCall → Option Fault) (sparing : Bool) (c : Collection)
    (calls : List IndexCall) (k : IndexKeeper) : IndexKeeper :=
  calls.foldl (fun k call => ((call.program c).run (failingExecutor faults sparing c.name) k).2) k

variable {faults : List RecordedCall → Option Fault} {sparing : Bool} {name sql : String}
  {k k' : IndexKeeper} {c : Collection}

/-- What is listed for another kind or field does not have the name of the entry. -/
theorem Holds.ne_name (h : k.Holds name sql) (ids : ReadsAsIds name sql)
    {existing : List IndexDescriptor} (parses : k.Parses existing) {d : IndexDescriptor}
    (mem : d ∈ existing) (other : d.identity ≠ idIndex.identity) : d.name ≠ name := by
  intro same
  obtain ⟨found, entry, parsed⟩ := parses.mem_iff.mp mem
  obtain ⟨e, read, identity⟩ := ids
  rw [same] at entry parsed
  obtain rfl := Option.some.inj (h.symm.trans entry)
  obtain rfl := Except.ok.inj (read.symm.trans parsed)
  exact other identity

theorem Holds.call (h : k.Holds name sql) (ids : ReadsAsIds name sql) {call : IndexCall}
    (spares : call.SparesIds) :
    ((call.program c).run (failingExecutor faults sparing c.name) k).2.Holds name sql := by
  cases call with
  | create d => exact h.run (c := c) (Collection.sends_create rfl)
  | sync desired =>
    refine Program.run_bind_keeps (h.run (c := c) (Collection.sends_list trivial)) ?_
    intro existing k' listed h'
    refine h'.run (c := c) (.bind (Collection.sends_createEach fun _ _ => rfl) fun _ =>
      .bind (Collection.sends_dropEach ?_) fun _ => .done _)
    -- What is dropped is not desired, and the index on ids always is.
    intro d mem
    obtain ⟨mem, undesired⟩ := IndexDiff.mem_drop_iff.mp mem
    refine h.ne_name ids (parses_of_run_list listed) mem ?_
    intro same
    apply undesired
    rw [same]
    exact Collection.describes_desiredIndexes c desired
  | dropAll =>
    refine Program.run_bind_keeps (h.run (c := c) (Collection.sends_list trivial)) ?_
    intro existing k' listed h'
    refine h'.run (c := c) (.bind (Collection.sends_dropEach ?_) fun _ => .done _)
    intro d mem
    obtain ⟨mem, other⟩ := List.mem_filter.mp mem
    refine h.ne_name ids (parses_of_run_list listed) mem ?_
    intro same
    have covered : d.same idIndex = true := beq_of_eq same
    rw [covered] at other
    cases other
  | drop d =>
    refine Program.run_bind_keeps (h.run (c := c) (Collection.sends_list trivial)) ?_
    intro existing k' listed h'
    cases found : existing.find? d.same with
    | none => exact h'.run (c := c) (.done false)
    | some e =>
      have same : d.same e = true := List.find?_some found
      have identity : e.identity = d.identity := (eq_of_beq same).symm
      have other : e.name ≠ name := by
        refine h.ne_name ids (parses_of_run_list listed) (List.mem_of_find?_eq_some found) ?_
        rw [identity]
        exact spares
      exact h'.run (c := c) (.bind (Collection.sends_dropByName other) fun _ => .done true)

/-- The unique index on ids keeps its entry under all calls but one that drops it, wherever their
statements fail; and what a statement makes is that index under every name that opens no path. -/
theorem definitions_after (c : Collection) (sparing : Bool)
    (faults : List RecordedCall → Option Fault) {calls : List IndexCall}
    (spared : ∀ call ∈ calls, call.SparesIds) (k : IndexKeeper) :
    (∀ name sql, ReadsAsIds name sql → k.definitions[name]? = some sql →
      (after faults sparing c calls k).definitions[name]? = some sql) ∧
    ∀ name table column created, Sql.isPlainIdentifier table = true →
      Sql.isPlainIdentifier column = true → ¬HoldsOpening name →
      ReadsAsIds name ((idIndex.withName name).statementText created table column) := by
  constructor
  · intro name sql ids h
    induction calls generalizing k with
    | nil => exact h
    | cons call calls ih =>
      obtain ⟨first, others⟩ := List.forall_mem_cons.mp spared
      exact ih others _ (Holds.call h ids first)
  · intro name table column created ht hc unopened
    have filled : (idIndex.withName name).field.text ≠ "" := by
      show Document.idField ≠ ""
      decide
    exact ⟨_, IndexDescriptor.ofCatalog_statementText created filled unopened ht hc, rfl⟩

/-! ## An index of old, and one with a misleading name -/

def oldKeeper : IndexKeeper where
  definitions := Std.TreeMap.ofList
    [("legacy", "create unique index legacy on users (json_extract(data, '$.id'))"),
      ("stale", "CREATE UNIQUE INDEX \"stale\" ON \"users\" (json_extract(data, '$.ids'))")]

/-- Calls that would index the ids otherwise, and an index under the name of the one on ids. -/
def oldCalls : List IndexCall :=
  [.sync [.ofField .path ⟨"id"⟩, .ofField .unique ⟨"ids"⟩], .create ⟨.path, ⟨"id"⟩, "legacy"⟩,
    .drop (.ofField .path ⟨"id"⟩), .dropAll]

/-- The second statement fails, and so does the fifth one after it has been carried out. -/
def oldFaults (sent : List RecordedCall) : Option Fault :=
  if sent.length = 2 then some ⟨.io, false⟩ else if sent.length = 5 then some ⟨.io, true⟩ else none

theorem definitions_after_old :
    ReadsAsIds "legacy" "create unique index legacy on users (json_extract(data, '$.id'))" ∧
      (after oldFaults true Collection.users oldCalls oldKeeper).definitions["legacy"]? =
        some "create unique index legacy on users (json_extract(data, '$.id'))" := by
  have spared : ∀ call ∈ oldCalls, call.SparesIds := by
    intro call mem
    rcases mem with _ | ⟨_, _ | ⟨_, _ | ⟨_, _ | ⟨_, ⟨⟩⟩⟩⟩⟩
    · trivial
    · trivial
    · show (IndexDescriptor.ofField .path ⟨"id"⟩).identity ≠ idIndex.identity
      decide
    · trivial
  have reads : ReadsAsIds "legacy"
      "create unique index legacy on users (json_extract(data, '$.id'))" := ⟨_, rfl, rfl⟩
  have kept := (definitions_after Collection.users true oldFaults spared oldKeeper).1
  exact ⟨reads, kept _ _ reads rfl⟩

example : (after oldFaults true Collection.users oldCalls oldKeeper).definitions["stale"]? = none := by
  decide +kernel

def misleadingName : String := "users_json_extract('$.x')"

def misleadingKeeper : IndexKeeper where
  definitions := Std.TreeMap.ofList
    [(misleadingName, (idIndex.withName misleadingName).createText "users" "data")]

/-- An index on ids whose name holds a call and a path reads as one on that path, and dropping all
indexes but that on ids drops it. -/
theorem definitions_after_misleading :
    misleadingKeeper.definitions[misleadingName]? =
        some ((idIndex.withName misleadingName).createText "users" "data") ∧
      (after (fun _ => none) true Collection.users [.dropAll] misleadingKeeper).definitions[
        misleadingName]? = none := by
  decide +kernel

end IndexKeeper
end DocStore
