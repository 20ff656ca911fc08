import DocStore.Database
import DocStore.Proofs.Collection.Calls
import Mathlib.Data.List.Infix
import Mathlib.Data.List.Nodup
import Mathlib.Data.String.Basic

/-! # What a database lists and drops

The tables of a database are those of the collections that were opened and not dropped since, and
the names of their indexes begin with theirs (`Run.holds`). Listings leave out the names that begin
with `sqlite` and go on, whether or not an underscore comes next, and so does what drops all that is
listed. -/
set_option autoImplicit false

namespace DocStore

open Engine (Storage Table StoredIndex sameName isHidden isReserved)
open Collection (CallStatement)

/-! ## Names -/

namespace Engine

theorem prefix_of_prefix_append_cons {α : Type} {p l rest : List α} {a : α}
    (h : p <+: l ++ a :: rest) (absent : a ∉ p) : p <+: l := by
  rcases List.prefix_or_prefix_of_prefix h (List.prefix_append l (a :: rest)) with inside | ⟨q, rfl⟩
  · exact inside
  · cases q with
    | nil => rw [List.append_nil]
    | cons b q =>
      obtain ⟨more, same⟩ := (List.prefix_append_right_inj l).mp h
      obtain ⟨rfl, -⟩ := List.cons.inj same
      exact absurd (List.mem_append_right l (List.mem_cons_self ..)) absent

theorem isHidden_congr {a b : String} (h : sameName a b = true) : isHidden a = isHidden b := by
  rw [isHidden, isHidden, sameName_iff.mp h]

theorem isReserved_congr {a b : String} (h : sameName a b = true) : isReserved a = isReserved b := by
  rw [isReserved, isReserved, sameName_iff.mp h]

theorem isHidden_iff {name : String} :
    isHidden name = true ↔
      "sqlite".toList <+: Text.lower name.toList ∧ 7 ≤ (Text.lower name.toList).length := by
  rw [isHidden]
  simp only [Bool.and_eq_true, List.isPrefixOf_iff_prefix, decide_eq_true_eq]

theorem isReserved_of_catalogTables {name : String}
    (h : catalogTables.any (sameName name) = true) : isReserved name = true := by
  have all : ∀ table ∈ catalogTables, isReserved table = true := by decide
  obtain ⟨table, mem, same⟩ := List.any_eq_true.mp h
  rw [isReserved_congr same]
  exact all table mem

theorem isHidden_of_isReserved {name : String} (h : isReserved name = true) :
    isHidden name = true := by
  have whole : "sqlite_".toList <+: Text.lower name.toList := List.isPrefixOf_iff_prefix.mp h
  refine isHidden_iff.mpr ⟨List.IsPrefix.trans ?_ whole, whole.length_le⟩
  exact ⟨['_'], rfl⟩

end Engine

/-- Whether the engine lets a collection have a name. -/
structure Accepted (name : String) : Prop where
  plain : Sql.isPlainIdentifier name = true
  unreserved : isReserved name = false
  /-- The index on ids would have a reserved name. -/
  longer : Text.lower name.toList ≠ "sqlite".toList

theorem lower_prefixed (table rest : String) :
    Text.lower (table ++ "_" ++ rest).toList =
      Text.lower table.toList ++ '_' :: Text.lower rest.toList := by
  rw [String.toList_append, String.toList_append, Text.lower, List.map_append, List.map_append,
    List.append_assoc]
  rfl

theorem Accepted.isHidden_prefixed {table : String} (h : Accepted table) (rest : String) :
    isHidden (table ++ "_" ++ rest) = isHidden table := by
  rw [Bool.eq_iff_iff, Engine.isHidden_iff, Engine.isHidden_iff, lower_prefixed]
  constructor
  · rintro ⟨begins, -⟩
    have inside := Engine.prefix_of_prefix_append_cons begins (by decide)
    refine ⟨inside, Nat.lt_of_le_of_ne inside.length_le fun six => h.longer ?_⟩
    exact (inside.eq_of_length six).symm
  · rintro ⟨begins, long⟩
    exact ⟨begins.trans (List.prefix_append ..), by rw [List.length_append]; omega⟩

/-! ## Texts of statements -/

namespace Statement

theorem text_createIndex (d : IndexDescriptor) (table column : String) :
    (createIndex d table column).text =
      "CREATE " ++ (if d.isUnique then "UNIQUE " else "") ++ "INDEX IF NOT EXISTS " ++
        d.target table column := rfl

theorem text_dropTable (name : String) :
    (dropTable name).text = "DROP TABLE IF EXISTS " ++ Sql.quoteIdentifier name := rfl

theorem text_dropIndex (name : String) :
    (dropIndex name).text = "DROP INDEX IF EXISTS " ++ Sql.quoteIdentifier name := rfl

theorem clean_dropTable {name : String} (h : '\x00' ∉ name.toList) :
    '\x00' ∉ (dropTable name).text.toList := by
  have verb : '\x00' ∉ "DROP TABLE IF EXISTS ".toList := by decide
  rw [text_dropTable, String.toList_append, List.mem_append, not_or]
  exact ⟨verb, Sql.not_nul_quoteIdentifier_iff.mpr h⟩

theorem clean_dropIndex {name : String} (h : '\x00' ∉ name.toList) :
    '\x00' ∉ (dropIndex name).text.toList := by
  have verb : '\x00' ∉ "DROP INDEX IF EXISTS ".toList := by decide
  rw [text_dropIndex, String.toList_append, List.mem_append, not_or]
  exact ⟨verb, Sql.not_nul_quoteIdentifier_iff.mpr h⟩

theorem not_nul_of_createIndex {d : IndexDescriptor} {table column : String}
    (h : '\x00' ∉ (createIndex d table column).text.toList) : '\x00' ∉ d.name.toList := by
  rw [text_createIndex, IndexDescriptor.target] at h
  simp only [String.toList_append, List.mem_append, not_or] at h
  obtain ⟨-, ⟨⟨⟨⟨name, -⟩, -⟩, -⟩, -⟩, -⟩ := h
  exact Sql.not_nul_quoteIdentifier_iff.mp name

end Statement

/-! ## Calls on a database -/

inductive DatabaseCall where
  | opened (name : String)
  | dropped (name : String)
  | called (name : String) (call : Call)

namespace DatabaseCall

def name : DatabaseCall → String
  | opened name => name
  | dropped name => name
  | called name _ => name

def namesAfter (names : List String) : DatabaseCall → List String
  | opened name => if name ∈ names then names else names ++ [name]
  | dropped name => names.filter (· ≠ name)
  | called _ _ => names

end DatabaseCall

namespace Database

/-- The names of the collections that were opened and not dropped since, in the order of their
opening. -/
def openNames (calls : List DatabaseCall) : List String :=
  calls.foldl DatabaseCall.namesAfter []

/-- The storages that calls come to, from a database with nothing in it, each at a time of its own.
Collections can be opened; other calls may fail. -/
inductive Run (db : Database) : List DatabaseCall → Storage → Prop where
  | start : Run db [] {}
  | opened {calls : List DatabaseCall} {st : Storage} (before : Run db calls st) (name : String)
    (clock : Int) (ok : ((db.collection name).run (Engine.executor clock) st).1.isOk = true) :
    Run db (calls ++ [.opened name]) ((db.collection name).run (Engine.executor clock) st).2
  | dropped {calls : List DatabaseCall} {st : Storage} (before : Run db calls st) (name : String)
    (clock : Int) :
    Run db (calls ++ [.dropped name]) ((dropCollection name).run (Engine.executor clock) st).2
  | called {calls : List DatabaseCall} {st : Storage} (before : Run db calls st) (name : String)
    (call : Call) (clock : Int) :
    Run db (calls ++ [.called name call])
      ((call.program ⟨name, db.column⟩).run (Engine.executor clock) st).2

/-- Whether names that are the same to the engine are the same. -/
def Agree (names : List String) : Prop :=
  ∀ a ∈ names, ∀ b ∈ names, sameName a b = true → a = b

theorem Agree.mono {names more : List String} (h : Agree more) (sub : names ⊆ more) : Agree names :=
  fun a ha b hb => h a (sub ha) b (sub hb)

theorem sameName_self (name : String) : sameName name name = true := Engine.sameName_iff.mpr rfl

/-! ## What calls keep -/

/-- Whether an index has a name that a table gives, and that statements can hold. -/
structure Prefixed (table index : String) : Prop where
  begins : ∃ rest, index = table ++ "_" ++ rest
  clean : '\x00' ∉ index.toList

/-- Whether a storage has the tables of some names, all of them accepted, and only indexes under
the names of their tables. -/
structure Holds (names : List String) (st : Storage) : Prop where
  tables : st.tables.map Table.name = names
  accepted : ∀ name ∈ names, Accepted name
  indexes : ∀ t ∈ st.tables, ∀ ix ∈ t.indexes, Prefixed t.name ix.name

variable {names : List String} {st st' : Storage} {clock : Int} {name : String} {t t' : Table}

theorem Holds.mem_names (h : Holds names st) (mem : t ∈ st.tables) : t.name ∈ names :=
  h.tables ▸ List.mem_map_of_mem mem

theorem Holds.replaceTable (h : Holds names st) (agree : Agree names) (mem : t ∈ st.tables)
    (hn : t'.name = t.name) (indexes : ∀ ix ∈ t'.indexes, Prefixed t.name ix.name) :
    Holds names (st.replaceTable t') := by
  refine ⟨?_, h.accepted, fun u hu => ?_⟩
  · rw [← h.tables, Storage.replaceTable, List.map_map]
    refine List.map_congr_left fun u hu => ?_
    rw [Function.comp_apply]
    split
    · rename_i same
      rw [hn] at same ⊢
      exact (agree _ (h.mem_names hu) _ (h.mem_names mem) same).symm
    · rfl
  · rcases Storage.mem_replaceTable hu with rfl | hu
    · rw [hn]
      exact indexes
    · exact h.indexes u hu

/-- A statement that calls on a collection send creates and drops no table, and the indexes that it
creates have names under that of the collection. -/
theorem Holds.perform {c : Collection} {s : Statement} {params : List Json} {o : Engine.Outcome}
    (h : Holds names st) (agree : Agree (c.name :: names)) (sent : c.CallStatement s params)
    (done : Engine.perform clock s params st = .ok o) : Holds names o.storage := by
  have own : Agree names := agree.mono (List.subset_cons_self ..)
  have step := Engine.perform_step done
  have clean := Engine.clean_of_perform done
  generalize o.storage = st' at step
  cases step with
  | same s => exact h
  | createTable column absent =>
    cases sent with
    | edit e => cases e
  | change found changed =>
    have mem := Storage.mem_of_table? found
    refine h.replaceTable own mem changed.frame.1 fun ix inside => ?_
    rw [changed.frame.2.2] at inside
    exact h.indexes _ mem ix inside
  | addIndex found added free =>
    obtain ⟨rfl, -⟩ := Table.addIndex_ok added
    have mem := Storage.mem_of_table? found
    refine h.replaceTable own mem rfl (List.forall_mem_cons.mpr ⟨?_, h.indexes _ mem⟩)
    cases sent with
    | edit e => cases e
    | createIndex d =>
      have named := agree _ (List.mem_cons_of_mem _ (h.mem_names mem)) _ (List.mem_cons_self ..)
        (Storage.sameName_of_table? found)
      exact ⟨⟨d.name, by rw [named]; rfl⟩, Statement.not_nul_of_createIndex clean⟩
  | dropTable name =>
    cases sent with
    | edit e => cases e
  | dropIndex name =>
    refine ⟨?_, h.accepted, fun u hu ix inside => ?_⟩
    · rw [← h.tables, Storage.dropIndex, List.map_map]
      rfl
    · obtain ⟨v, hv, rfl⟩ := List.mem_map.mp hu
      exact h.indexes v hv ix (List.mem_filter.mp inside).1

theorem Holds.createTable {column : String} (h : Holds names st) (agree : Agree (name :: names))
    (accepted : Accepted name) (made : st.createTable name column = .ok st') :
    Holds (DatabaseCall.namesAfter names (.opened name)) st' := by
  obtain ⟨-, ⟨present, rfl⟩ | ⟨absent, rfl⟩⟩ := Engine.createTable_ok made
  · obtain ⟨t, found⟩ := Option.isSome_iff_exists.mp present
    have mem := h.mem_names (Storage.mem_of_table? found)
    obtain rfl := agree _ (List.mem_cons_of_mem _ mem) _ (List.mem_cons_self ..)
      (Storage.sameName_of_table? found)
    rw [DatabaseCall.namesAfter, if_pos mem]
    exact h
  · have new : name ∉ names := by
      rw [← h.tables]
      intro mem
      obtain ⟨t, inside, rfl⟩ := List.mem_map.mp mem
      exact List.find?_eq_none.mp absent t inside (sameName_self t.name)
    rw [DatabaseCall.namesAfter, if_neg new]
    refine ⟨?_, ?_, ?_⟩
    · rw [List.map_append, h.tables]
      rfl
    · intro n mem
      rcases List.mem_append.mp mem with mem | mem
      · exact h.accepted n mem
      · rw [List.mem_singleton.mp mem]
        exact accepted
    · intro t mem ix inside
      rcases List.mem_append.mp mem with mem | mem
      · exact h.indexes t mem ix inside
      · rw [List.mem_singleton.mp mem] at inside
        cases inside

theorem accepted_of_opened {column : Sql.Column} {c : Collection}
    (h : (Collection.openNamed name column).run (Engine.executor clock) st = (.ok c, st')) :
    Accepted name := by
  obtain ⟨rfl, plain, between, o, created, performed, -⟩ := Collection.of_run_openNamed h
  refine ⟨plain, (Engine.createTable_ok created).1, fun six => ?_⟩
  have unreserved := (Engine.createIndex_ok (Engine.perform_createIndex performed)).1
  have reserved : isReserved (name ++ "_" ++ Collection.idIndex.name) = true := by
    rw [isReserved, lower_prefixed, six]
    rfl
  exact absurd reserved (Bool.eq_false_iff.mp unreserved)

theorem Holds.opened {column : Sql.Column} {c : Collection} (h : Holds names st)
    (agree : Agree (name :: names))
    (run : (Collection.openNamed name column).run (Engine.executor clock) st = (.ok c, st')) :
    Holds (DatabaseCall.namesAfter names (.opened name)) st' := by
  have accepted := accepted_of_opened run
  obtain ⟨rfl, -, between, o, created, performed, rfl⟩ := Collection.of_run_openNamed run
  have sub : name :: DatabaseCall.namesAfter names (.opened name) ⊆ name :: names := by
    rw [DatabaseCall.namesAfter]
    split
    · exact List.Subset.refl _
    · simp
  exact (h.createTable agree accepted created).perform (c := ⟨name, column⟩) (agree.mono sub)
    (.createIndex Collection.idIndex) performed

/-! ## Dropping -/

theorem run_silent (clock : Int) (s : Statement) (params : List Json) (st : Storage) :
    (Program.send s params >>= fun _ => pure ()).run (Engine.executor clock) st =
      match Engine.perform clock s params st with
      | .ok o => (.ok (), o.storage)
      | .error cause => (.error (.engine cause), st) := by
  rw [Program.run_bind, Program.run_send]
  have sent : (Engine.executor clock).execute s params st =
      Engine.execute clock s params st := rfl
  rw [sent, Engine.execute]
  rcases Engine.perform clock s params st with cause | o
  · rfl
  · rfl

theorem run_dropTable (plain : Sql.isPlainIdentifier name = true) (clock : Int) (st : Storage) :
    (dropTable name).run (Engine.executor clock) st =
      if Engine.catalogTables.any (sameName name) then (.error (.engine .reservedName), st)
      else (.ok (), { tables := st.tables.filter fun t => !sameName t.name name }) := by
  have clean := Statement.clean_dropTable (Sql.not_nul_of_plain plain)
  have performed : Engine.perform clock (.dropTable name) [] st =
      (st.dropTable name).map .silent := by
    unfold Engine.perform
    exact if_neg (Engine.unrefused_of_clean clean)
  rw [dropTable, run_silent, performed, Storage.dropTable]
  by_cases reserved : Engine.catalogTables.any (sameName name) = true
  · rw [if_pos reserved, if_pos reserved]
    rfl
  · rw [if_neg reserved, if_neg reserved]
    rfl

theorem run_dropByName (clean : '\x00' ∉ name.toList) (clock : Int) (st : Storage) :
    (IndexSync.dropByName name).run (Engine.executor clock) st = (.ok (), st.dropIndex name) := by
  have performed : Engine.perform clock (.dropIndex name) [] st =
      .ok (.silent (st.dropIndex name)) := by
    unfold Engine.perform
    exact if_neg (Engine.unrefused_of_clean (Statement.clean_dropIndex clean))
  rw [IndexSync.dropByName, run_silent, performed]
  rfl

/-- Dropping a collection that is not there, or that cannot be, leaves the others. -/
theorem Holds.dropped (h : Holds names st) (agree : Agree (name :: names)) :
    Holds (DatabaseCall.namesAfter names (.dropped name))
      ((dropCollection name).run (Engine.executor clock) st).2 := by
  have absent (h' : ¬Accepted name) : DatabaseCall.namesAfter names (.dropped name) = names :=
    List.filter_eq_self.mpr fun n mem => decide_eq_true fun same => h' (same ▸ h.accepted n mem)
  rw [dropCollection]
  split
  · rename_i plain
    rw [run_dropTable plain]
    split
    · rename_i reserved
      rw [absent fun accepted => by
        have := Engine.isReserved_of_catalogTables reserved
        rw [accepted.unreserved] at this
        cases this]
      exact h
    · refine ⟨?_, ?_, ?_⟩
      · have kept : st.tables.filter (fun t => !sameName t.name name) =
            st.tables.filter ((fun n => decide (n ≠ name)) ∘ Table.name) := by
          refine List.filter_congr fun t mem => ?_
          have named : sameName t.name name = true ↔ t.name = name :=
            ⟨agree _ (List.mem_cons_of_mem _ (h.mem_names mem)) _ (List.mem_cons_self ..),
              fun same => same ▸ sameName_self t.name⟩
          rw [Bool.eq_iff_iff, Bool.not_eq_true', ← Bool.not_eq_true, named]
          simp
        rw [kept, ← List.filter_map, h.tables]
        rfl
      · exact fun n mem => h.accepted n (List.mem_filter.mp mem).1
      · exact fun t mem => h.indexes t (List.mem_filter.mp mem).1
  · rename_i malformed
    rw [absent fun accepted => malformed accepted.plain]
    exact h

/-! ## Whole runs -/

theorem openNames_append (calls : List DatabaseCall) (call : DatabaseCall) :
    openNames (calls ++ [call]) = call.namesAfter (openNames calls) := by
  rw [openNames, List.foldl_append]
  rfl

theorem openNames_subset (calls : List DatabaseCall) :
    openNames calls ⊆ calls.map DatabaseCall.name := by
  induction calls using List.reverseRecOn with
  | nil => exact List.Subset.refl _
  | append_singleton calls call ih =>
    rw [openNames_append, List.map_append]
    have before : openNames calls ⊆ calls.map DatabaseCall.name ++ [call].map DatabaseCall.name :=
      List.subset_append_of_subset_left _ ih
    cases call with
    | opened name =>
      rw [DatabaseCall.namesAfter]
      split
      · exact before
      · exact List.append_subset.mpr ⟨before, List.subset_append_right ..⟩
    | dropped name => exact fun n mem => before (List.mem_filter.mp mem).1
    | called name call => exact before

theorem nodup_openNames (calls : List DatabaseCall) : (openNames calls).Nodup := by
  induction calls using List.reverseRecOn with
  | nil => exact .nil
  | append_singleton calls call ih =>
    rw [openNames_append]
    cases call with
    | opened name =>
      rw [DatabaseCall.namesAfter]
      split
      · exact ih
      · rename_i new
        exact List.nodup_append.mpr ⟨ih, List.nodup_singleton name, fun a mem b last same =>
          new (List.mem_singleton.mp last ▸ same ▸ mem)⟩
    | dropped name => exact ih.filter _
    | called name call => exact ih

theorem Agree.before {calls : List DatabaseCall} {call : DatabaseCall}
    (h : Agree ((calls ++ [call]).map DatabaseCall.name)) :
    Agree (calls.map DatabaseCall.name) ∧ Agree (call.name :: openNames calls) := by
  rw [List.map_append] at h
  refine ⟨h.mono (List.subset_append_left ..), h.mono (List.cons_subset.mpr ⟨?_, ?_⟩)⟩
  · exact List.mem_append_right _ (List.mem_singleton.mpr rfl)
  · exact List.subset_append_of_subset_left _ (openNames_subset calls)

theorem Run.holds {db : Database} {calls : List DatabaseCall} (run : db.Run calls st)
    (agree : Agree (calls.map DatabaseCall.name)) : Holds (openNames calls) st := by
  induction run with
  | start => exact ⟨rfl, nofun, nofun⟩
  | opened before name clock ok ih =>
    obtain ⟨earlier, now⟩ := agree.before
    obtain ⟨c, opened⟩ := Outcome.exists_of_isOk ok
    rw [openNames_append]
    exact (ih earlier).opened now opened
  | dropped before name clock ih =>
    obtain ⟨earlier, now⟩ := agree.before
    rw [openNames_append]
    exact (ih earlier).dropped now
  | called before name call clock ih =>
    obtain ⟨earlier, now⟩ := agree.before
    rw [openNames_append]
    refine Engine.run_keeps (fun s params st sent held => ?_) (Collection.sends_call call)
      (ih earlier)
    exact Engine.execute_keeps held fun o done => held.perform now sent done

/-! ## Listing -/

theorem run_catalogNames (kind : String) (clock : Int) (st : Storage) :
    (catalogNames kind).run (Engine.executor clock) st = (.ok (st.namesOf kind), st) := by
  have clean : '\x00' ∉ Statement.listNames.text.toList := by decide
  have performed : Engine.perform clock .listNames [.string kind] st =
      .ok { output := { rows := (st.namesOf kind).map fun name => [.string name] },
            storage := st } := by
    unfold Engine.perform
    exact if_neg (Engine.unrefused_of_clean clean)
  have names := Outcome.mapM_map_eq_ok (f := nameOfRow) (g := fun name => [Json.string name])
    (k := id) (l := st.namesOf kind) fun name mem => rfl
  rw [List.map_id] at names
  rw [catalogNames]
  refine (Program.run_bind_ok (Engine.run_send_performed performed)).trans ?_
  rw [names, Program.run_ofExcept]

theorem pairwise_sortNames {names : List String} (distinct : names.Nodup) :
    (Storage.sortNames names).Pairwise (· < ·) := by
  have ordered : (Storage.sortNames names).Pairwise fun a b => !decide (b < a) := by
    refine List.pairwise_mergeSort ?_ ?_ names
    · intro a b c
      simp only [Bool.not_eq_true', decide_eq_false_iff_not, not_lt]
      exact le_trans
    · intro a b
      simp only [Bool.or_eq_true, Bool.not_eq_true', decide_eq_false_iff_not, not_lt]
      exact le_total a b
  have apart : (Storage.sortNames names).Nodup := (List.mergeSort_perm names _).nodup_iff.mpr distinct
  refine (ordered.and apart).imp fun {a b} both => ?_
  have upward : ¬b < a := by
    simpa only [Bool.not_eq_true', decide_eq_false_iff_not] using both.1
  exact lt_of_le_of_ne (not_lt.mp upward) both.2

theorem namesOf_table (st : Storage) : st.namesOf "table" =
    Storage.sortNames ((st.tables.map Table.name).filter fun n => !isHidden n) := rfl

theorem mem_namesOf_index : name ∈ st.namesOf "index" ↔
    (∃ t ∈ st.tables, ∃ ix ∈ t.indexes, ix.name = name) ∧ isHidden name = false := by
  have shown : st.namesOf "index" = Storage.sortNames
      ((st.tables.flatMap fun t => t.indexes.map StoredIndex.name).filter fun n => !isHidden n) :=
    rfl
  rw [shown, Storage.sortNames, List.mem_mergeSort, List.mem_filter, List.mem_flatMap]
  simp only [List.mem_map, Bool.not_eq_true']

/-! ## Dropping all -/

theorem run_dropTables (clock : Int) (ns : List String)
    (shown : ∀ n ∈ ns, Sql.isPlainIdentifier n = true ∧ isHidden n = false) (st : Storage) :
    (dropTables ns).run (Engine.executor clock) st =
      (.ok (), { tables := st.tables.filter fun t => ns.all fun n => !sameName t.name n }) := by
  induction ns generalizing st with
  | nil =>
    have all : st.tables.filter (fun _ => true) = st.tables := List.filter_true st.tables
    exact congrArg (fun tables => (Except.ok (), Storage.mk tables)) all.symm
  | cons n ns ih =>
    obtain ⟨⟨plain, visible⟩, others⟩ := List.forall_mem_cons.mp shown
    have free : ¬Engine.catalogTables.any (sameName n) = true := fun reserved => by
      rw [Engine.isHidden_of_isReserved (Engine.isReserved_of_catalogTables reserved)] at visible
      cases visible
    have first := run_dropTable plain clock st
    rw [if_neg free] at first
    rw [dropTables]
    refine (Program.run_bind_ok first).trans ?_
    rw [ih others, List.filter_filter]
    simp only [List.all_cons, Bool.and_comm]

theorem run_dropIndexes (clock : Int) (ns : List String) (clean : ∀ n ∈ ns, '\x00' ∉ n.toList) (st : Storage) :
    (dropIndexes ns).run (Engine.executor clock) st =
      (.ok (), { tables := st.tables.map fun t =>
        { t with indexes := t.indexes.filter fun ix => ns.all fun n => !sameName ix.name n } }) := by
  induction ns generalizing st with
  | nil =>
    have whole (t : Table) : { t with indexes := t.indexes.filter fun _ => true } = t := by
      rw [List.filter_true]
    have all : st.tables.map (fun t => { t with indexes := t.indexes.filter fun _ => true }) =
        st.tables := (List.map_congr_left fun t _ => whole t).trans (List.map_id st.tables)
    exact congrArg (fun tables => (Except.ok (), Storage.mk tables)) all.symm
  | cons n ns ih =>
    obtain ⟨first, others⟩ := List.forall_mem_cons.mp clean
    rw [dropIndexes]
    refine (Program.run_bind_ok (run_dropByName first clock st)).trans ?_
    rw [ih others, Storage.dropIndex, List.map_map]
    simp only [List.all_cons, Function.comp_def, List.filter_filter, Bool.and_comm]

theorem all_apart_of_hidden {ns : List String} (shown : ∀ n ∈ ns, isHidden n = false)
    (h : isHidden name = true) : (ns.all fun n => !sameName name n) = true := by
  refine List.all_eq_true.mpr fun n mem => ?_
  rw [Bool.not_eq_true', Bool.eq_false_iff]
  intro same
  have hidden := (Engine.isHidden_congr same).symm.trans h
  rw [shown n mem] at hidden
  cases hidden

theorem all_apart_of_mem {ns : List String} (mem : name ∈ ns) :
    (ns.all fun n => !sameName name n) = false := by
  refine List.all_eq_false.mpr ⟨name, mem, ?_⟩
  rw [sameName_self]
  exact Bool.false_ne_true

theorem run_dropAllCollections (h : Holds names st) (clock : Int) :
    dropAllCollections.run (Engine.executor clock) st =
      (.ok (st.namesOf "table").length,
        { tables := st.tables.filter fun t => isHidden t.name }) := by
  have mem_iff (n : String) : n ∈ st.namesOf "table" ↔ n ∈ names ∧ isHidden n = false := by
    rw [namesOf_table, Storage.sortNames, List.mem_mergeSort, List.mem_filter, h.tables,
      Bool.not_eq_true']
  have dropped := run_dropTables clock (st.namesOf "table") (fun n mem =>
    ⟨(h.accepted n ((mem_iff n).mp mem).1).plain, ((mem_iff n).mp mem).2⟩) st
  have left : st.tables.filter (fun t => (st.namesOf "table").all fun n => !sameName t.name n) =
      st.tables.filter fun t => isHidden t.name := by
    refine List.filter_congr fun t mem => ?_
    cases hidden : isHidden t.name with
    | true => exact all_apart_of_hidden (fun n mem => ((mem_iff n).mp mem).2) hidden
    | false => exact all_apart_of_mem ((mem_iff t.name).mpr ⟨h.mem_names mem, hidden⟩)
  rw [left] at dropped
  rw [dropAllCollections]
  refine (Program.run_bind_ok (run_catalogNames "table" clock st)).trans ?_
  exact Program.run_bind_ok dropped

theorem run_dropAllIndexes (h : Holds names st) (clock : Int) :
    dropAllIndexes.run (Engine.executor clock) st =
      (.ok (st.namesOf "index").length,
        { tables := st.tables.map fun t =>
            if isHidden t.name then t else { t with indexes := [] } }) := by
  have clean : ∀ n ∈ st.namesOf "index", '\x00' ∉ n.toList := by
    intro n mem
    obtain ⟨⟨t, ht, ix, hix, rfl⟩, -⟩ := mem_namesOf_index.mp mem
    exact (h.indexes t ht ix hix).clean
  have dropped := run_dropIndexes clock (st.namesOf "index") clean st
  have left : (st.tables.map fun t =>
        { t with indexes := t.indexes.filter fun ix =>
                  (st.namesOf "index").all fun n => !sameName ix.name n }) =
      st.tables.map fun t => if isHidden t.name then t else { t with indexes := [] } := by
    refine List.map_congr_left fun t ht => ?_
    -- The indexes of a table are hidden with it.
    have alike : ∀ ix ∈ t.indexes, isHidden ix.name = isHidden t.name := by
      intro ix hix
      obtain ⟨rest, begins⟩ := (h.indexes t ht ix hix).begins
      rw [begins]
      exact (h.accepted _ (h.mem_names ht)).isHidden_prefixed rest
    cases hidden : isHidden t.name with
    | true =>
      rw [if_pos rfl, List.filter_eq_self.mpr fun ix hix =>
        all_apart_of_hidden (fun n mem => (mem_namesOf_index.mp mem).2)
          ((alike ix hix).trans hidden)]
    | false =>
      rw [if_neg Bool.false_ne_true, List.filter_eq_nil_iff.mpr fun ix hix => ?_]
      rw [all_apart_of_mem (mem_namesOf_index.mpr
        ⟨⟨t, ht, ix, hix, rfl⟩, (alike ix hix).trans hidden⟩)]
      exact Bool.false_ne_true
  rw [left] at dropped
  rw [dropAllIndexes]
  refine (Program.run_bind_ok (run_catalogNames "index" clock st)).trans ?_
  exact Program.run_bind_ok dropped

/-- After any calls that open collections under names that stay apart, the tables of a database are
those of the collections that are open; it lists all that are not hidden, by name, and can drop all
of those, or all of their indexes. -/
theorem lists_open {db : Database} {calls : List DatabaseCall} (run : db.Run calls st)
    (agree : Agree (calls.map DatabaseCall.name)) (clock : Int) :
    st.tables.map Table.name = openNames calls ∧
    ∃ listed : List String, listed.Pairwise (· < ·) ∧
      (∀ n, n ∈ listed ↔ n ∈ openNames calls ∧ isHidden n = false) ∧
      collectionNames.run (Engine.executor clock) st = (.ok listed, st) ∧
      dropAllCollections.run (Engine.executor clock) st =
        (.ok listed.length, { tables := st.tables.filter fun t => isHidden t.name }) ∧
      ∃ count, dropAllIndexes.run (Engine.executor clock) st =
        (.ok count,
          { tables := st.tables.map fun t =>
              if isHidden t.name then t else { t with indexes := [] } }) := by
  have held := run.holds agree
  refine ⟨held.tables, st.namesOf "table", ?_, fun n => ?_, run_catalogNames "table" clock st,
    run_dropAllCollections held clock, _, run_dropAllIndexes held clock⟩
  · rw [namesOf_table, held.tables]
    exact pairwise_sortNames ((nodup_openNames calls).filter _)
  · rw [namesOf_table, Storage.sortNames, List.mem_mergeSort, List.mem_filter, held.tables,
      Bool.not_eq_true']

/-! ## A database with users, and one with a hidden collection -/

def standard : Database := ⟨{}, .standard, none⟩

theorem run_users : standard.Run [.opened "users"]
    ((standard.collection "users").run (Engine.executor 0) {}).2 :=
  Run.start.opened "users" 0 (by decide +kernel)

def usersCalls : List DatabaseCall :=
  [.opened "users", .opened "orders", .called "users" (.createIndex (.ofField .unique ⟨"email"⟩)),
    .dropped "orders"]

theorem lists_open_users :
    ∃ st listed, standard.Run usersCalls st ∧
      collectionNames.run (Engine.executor 9) st = (.ok listed, st) ∧
      "users" ∈ listed ∧ "orders" ∉ listed := by
  have run := ((run_users.opened "orders" 2 (by decide +kernel)).called "users"
    (.createIndex (.ofField .unique ⟨"email"⟩)) 3).dropped "orders" 4
  have agree : Agree (usersCalls.map DatabaseCall.name) := by
    show ∀ a ∈ usersCalls.map DatabaseCall.name, ∀ b ∈ usersCalls.map DatabaseCall.name,
      sameName a b = true → a = b
    decide
  obtain ⟨-, listed, -, mem_iff, answer, -⟩ := lists_open run agree 9
  refine ⟨_, listed, run, answer, ?_, ?_⟩
  · exact (mem_iff "users").mpr (by decide)
  · intro mem
    exact absurd ((mem_iff "orders").mp mem).1 (by decide)

def hiddenCalls : List DatabaseCall := [.opened "users", .opened "sqlite3"]

/-- A collection whose name only begins like the engine's own is accepted, but neither listed nor
dropped with all others. -/
theorem lists_open_hidden :
    ∃ st, standard.Run hiddenCalls st ∧ Agree (hiddenCalls.map DatabaseCall.name) ∧
      openNames hiddenCalls = ["users", "sqlite3"] ∧
      collectionNames.run (Engine.executor 0) st = (.ok ["users"], st) ∧
      (dropAllCollections.run (Engine.executor 0) st).1 = .ok 1 ∧
      (dropAllCollections.run (Engine.executor 0) st).2.tables.map Table.name = ["sqlite3"] := by
  obtain ⟨st, run⟩ : ∃ st, standard.Run hiddenCalls st :=
    ⟨_, run_users.opened "sqlite3" 0 (by decide +kernel)⟩
  have agree : Agree (hiddenCalls.map DatabaseCall.name) := by
    show ∀ a ∈ hiddenCalls.map DatabaseCall.name, ∀ b ∈ hiddenCalls.map DatabaseCall.name,
      sameName a b = true → a = b
    decide
  have held : Holds ["users", "sqlite3"] st := run.holds agree
  have listed := run_catalogNames "table" 0 st
  have dropped := run_dropAllCollections held 0
  have shown : Storage.sortNames (["users", "sqlite3"].filter fun n => !isHidden n) = ["users"] := by
    decide +kernel
  have hidden : ["users", "sqlite3"].filter isHidden = ["sqlite3"] := by decide
  rw [namesOf_table, held.tables, shown] at dropped listed
  refine ⟨st, run, agree, rfl, listed, ?_, ?_⟩
  · rw [dropped]
    rfl
  · rw [dropped, ← hidden, ← held.tables, List.filter_map]
    rfl

end Database
end DocStore
