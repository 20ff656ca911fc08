import DocStore.Index.Sync
import DocStore.Proofs.Index.Difference
import DocStore.Proofs.Index.Reading
import DocStore.Proofs.Outcome
import DocStore.Proofs.Statement.Running
import DocStore.Statement.Script

/-! # Synchronising converges

A keeper is an executor that holds the catalog of one table as a map from names to statements. On
it, synchronising leaves a catalog that describes exactly the desired indexes, keeps what was
desired already, and finds nothing to do the next time. Indexes are compared by kind and field but
kept by name, so this needs that one name does not stand for different indexes. -/
set_option autoImplicit false

namespace DocStore

/-- The indexes of a table, each name with the statement that made it, and what was sent so far. -/
structure IndexKeeper where
  definitions : Std.TreeMap String String
  calls : List RecordedCall := []

namespace IndexKeeper

open IndexDescriptor (statementText HoldsOpening ofCatalog name_of_ofCatalog)
open IndexDiff (Describes between)

def rows (k : IndexKeeper) : List (List Json) :=
  k.definitions.toList.map fun entry => [.string entry.1, .string entry.2]

def record (s : Statement) (params : List Json) (k : IndexKeeper) : IndexKeeper :=
  { k with calls := k.calls ++ [{ text := s.text, params }] }

/-- Answers a recorded statement. An index is created only if its name is free; what is no
statement on the indexes of the table is refused. -/
def answer (sparing : Bool) (table : String) (s : Statement) (params : List Json)
    (k : IndexKeeper) : Except Error QueryOutput × IndexKeeper :=
  match s, params with
  | .listIndexes, [.string t] =>
    if t = table then (.ok { rows := k.rows }, k) else (.ok {}, k)
  | .createIndex d t column, [] =>
    if t = table then
      (.ok {}, { k with
        definitions := k.definitions.insertIfNew d.name (d.statementText sparing table column) })
    else (.error (.engine .noSuchTable), k)
  | .dropIndex name, [] => (.ok {}, { k with definitions := k.definitions.erase name })
  | _, _ => (.error (.engine .badStatement), k)

def execute (sparing : Bool) (table : String) (s : Statement) (params : List Json)
    (k : IndexKeeper) : Except Error QueryOutput × IndexKeeper :=
  answer sparing table s params (k.record s params)

/-- The executor that keeps the indexes of a table; it keeps a statement as it was sent, or without
the words that spare a name that is taken. -/
def executor (sparing : Bool) (table : String) : Executor IndexKeeper where
  execute := execute sparing table
  executeMany s batch k := executeEach (execute sparing table s) batch k

/-- Whether all entries parse, and to which descriptors. -/
def Parses (k : IndexKeeper) (ds : List IndexDescriptor) : Prop :=
  k.definitions.toList.mapM (fun entry => ofCatalog entry.1 entry.2) = .ok ds

/-! ## Entries -/

variable {k : IndexKeeper} {ds : List IndexDescriptor}

theorem Parses.mem_iff (h : k.Parses ds) {d : IndexDescriptor} :
    d ∈ ds ↔ ∃ sql, k.definitions[d.name]? = some sql ∧ ofCatalog d.name sql = .ok d := by
  rw [Outcome.mem_iff_of_mapM_eq_ok h]
  constructor
  · rintro ⟨⟨name, sql⟩, mem, parsed⟩
    obtain rfl := name_of_ofCatalog parsed
    exact ⟨sql, Std.TreeMap.mem_toList_iff_getElem?_eq_some.mp mem, parsed⟩
  · rintro ⟨sql, entry, parsed⟩
    exact ⟨(d.name, sql), Std.TreeMap.mem_toList_iff_getElem?_eq_some.mpr entry, parsed⟩

theorem Parses.exists_of_entry (h : k.Parses ds) {name sql : String}
    (entry : k.definitions[name]? = some sql) : ∃ d ∈ ds, ofCatalog name sql = .ok d := by
  have mem := Std.TreeMap.mem_toList_iff_getElem?_eq_some.mpr entry
  obtain ⟨d, parsed⟩ := Outcome.exists_of_mapM_eq_ok h mem
  exact ⟨d, (Outcome.mem_iff_of_mapM_eq_ok h).mpr ⟨_, mem, parsed⟩, parsed⟩

theorem exists_parses
    (h : ∀ name sql, k.definitions[name]? = some sql → ∃ d, ofCatalog name sql = .ok d) :
    ∃ ds, k.Parses ds :=
  Outcome.exists_mapM_eq_ok fun entry mem =>
    h entry.1 entry.2 (Std.TreeMap.mem_toList_iff_getElem?_eq_some.mp mem)

/-! ## Statements -/

variable (sparing : Bool) (table column : String)

theorem rows_mapM (k : IndexKeeper) :
    k.rows.mapM IndexSync.descriptorOfRow =
      k.definitions.toList.mapM fun entry => ofCatalog entry.1 entry.2 := by
  rw [rows, List.mapM_map]
  rfl

theorem run_list (h : k.Parses ds) :
    (IndexSync.list table).run (executor sparing table) k =
      (.ok ds, k.record .listIndexes [.string table]) := by
  have sent : (executor sparing table).execute .listIndexes [.string table] k =
      (.ok { rows := k.rows }, k.record .listIndexes [.string table]) := if_pos rfl
  rw [IndexSync.list, Program.run_bind_ok (Program.run_send_ok sent)]
  change (Program.ofExcept (k.rows.mapM IndexSync.descriptorOfRow)).run _ _ = _
  rw [rows_mapM, h]
  rfl

def withCreated (sparing : Bool) (table column : String)
    (m : Std.TreeMap String String) (ds : List IndexDescriptor) : Std.TreeMap String String :=
  ds.foldl (fun m d => m.insertIfNew d.name (d.statementText sparing table column)) m

def withoutDropped (m : Std.TreeMap String String) (ds : List IndexDescriptor) :
    Std.TreeMap String String :=
  ds.foldl (fun m d => m.erase d.name) m

theorem run_create (d : IndexDescriptor) (k : IndexKeeper) :
    ∃ k', (IndexSync.create table column d).run (executor sparing table) k = (.ok (), k') ∧
      k'.definitions =
        k.definitions.insertIfNew d.name (d.statementText sparing table column) := by
  have sent : (executor sparing table).execute (.createIndex d table column) [] k =
      (.ok {}, { k.record (.createIndex d table column) [] with
        definitions :=
          k.definitions.insertIfNew d.name (d.statementText sparing table column) }) := if_pos rfl
  refine ⟨_, Program.run_bind_ok (Program.run_send_ok sent), rfl⟩

theorem run_createEach (ds : List IndexDescriptor) (k : IndexKeeper) :
    ∃ k', (IndexSync.createEach table column ds).run (executor sparing table) k = (.ok (), k') ∧
      k'.definitions = withCreated sparing table column k.definitions ds := by
  induction ds generalizing k with
  | nil => exact ⟨k, rfl, rfl⟩
  | cons d ds ih =>
    obtain ⟨k₁, run₁, entries₁⟩ := run_create sparing table column d k
    obtain ⟨k₂, run₂, entries₂⟩ := ih k₁
    refine ⟨k₂, ?_, ?_⟩
    · rw [IndexSync.createEach, Program.run_bind_ok run₁, run₂]
    · rw [entries₂, entries₁]
      rfl

theorem run_dropEach (ds : List IndexDescriptor) (k : IndexKeeper) :
    ∃ k', (IndexSync.dropEach ds).run (executor sparing table) k = (.ok (), k') ∧
      k'.definitions = withoutDropped k.definitions ds := by
  induction ds generalizing k with
  | nil => exact ⟨k, rfl, rfl⟩
  | cons d ds ih =>
    obtain ⟨k₁, run₁, entries₁⟩ : ∃ k', (IndexSync.dropByName d.name).run
        (executor sparing table) k = (.ok (), k') ∧ k'.definitions = k.definitions.erase d.name :=
      ⟨_, rfl, rfl⟩
    obtain ⟨k₂, run₂, entries₂⟩ := ih k₁
    refine ⟨k₂, ?_, ?_⟩
    · rw [IndexSync.dropEach, Program.run_bind_ok run₁, run₂]
    · rw [entries₂, entries₁]
      rfl

theorem run_sync (desired : List IndexDescriptor) (h : k.Parses ds) :
    ∃ k', (IndexSync.sync table column desired).run (executor sparing table) k =
        (.ok (between desired ds), k') ∧
      k'.definitions = withoutDropped
        (withCreated sparing table column k.definitions (between desired ds).create)
        (between desired ds).drop := by
  obtain ⟨k₁, run₁, entries₁⟩ := run_createEach sparing table column
    (between desired ds).create (k.record .listIndexes [.string table])
  obtain ⟨k₂, run₂, entries₂⟩ := run_dropEach sparing table (between desired ds).drop k₁
  refine ⟨k₂, ?_, ?_⟩
  · rw [IndexSync.sync, Program.run_bind_ok (run_list sparing table h),
      Program.run_bind_ok run₁, Program.run_bind_ok run₂]
    rfl
  · rw [entries₂, entries₁]
    rfl

/-! ## Entries after statements -/

variable {sparing table column} {m : Std.TreeMap String String}

theorem getElem?_insertIfNew_of_free {name : String} (free : m[name]? = none)
    (sql n : String) : (m.insertIfNew name sql)[n]? = if name = n then some sql else m[n]? := by
  have absent : name ∉ m := by
    rw [Std.TreeMap.mem_iff_isSome_getElem?, free]
    exact Bool.false_ne_true
  simp [Std.TreeMap.getElem?_insertIfNew, absent]

/-- Where names are free and differ, each creation adds its entry. -/
theorem getElem?_withCreated (free : ∀ d ∈ ds, m[d.name]? = none)
    (apart : ds.Pairwise fun d e => d.name ≠ e.name) {name sql : String} :
    (withCreated sparing table column m ds)[name]? = some sql ↔
      m[name]? = some sql ∨
        ∃ d ∈ ds, d.name = name ∧ d.statementText sparing table column = sql := by
  induction ds generalizing m with
  | nil => simp [withCreated]
  | cons d ds ih =>
    obtain ⟨others, apart⟩ := List.pairwise_cons.mp apart
    have hd : m[d.name]? = none := free d (List.mem_cons_self ..)
    have entry (n : String) := getElem?_insertIfNew_of_free hd
      (d.statementText sparing table column) n
    have free' : ∀ e ∈ ds,
        (m.insertIfNew d.name (d.statementText sparing table column))[e.name]? = none := by
      intro e he
      rw [entry, if_neg (others e he)]
      exact free e (List.mem_cons_of_mem d he)
    rw [withCreated, List.foldl_cons]
    refine (ih free' apart).trans ?_
    rw [entry]
    by_cases e : d.name = name
    · subst e
      simp [hd]
    · simp [e]

theorem getElem?_withoutDropped {name sql : String} :
    (withoutDropped m ds)[name]? = some sql ↔ m[name]? = some sql ∧ ∀ d ∈ ds, d.name ≠ name := by
  induction ds generalizing m with
  | nil => simp [withoutDropped]
  | cons d ds ih =>
    rw [withoutDropped, List.foldl_cons]
    refine (ih (m := m.erase d.name)).trans ?_
    by_cases e : d.name = name
    · simp [e]
    · simp [Std.TreeMap.getElem?_erase, e]

/-! ## Convergence -/

/-- Whether no name stands for different indexes. -/
def NamesAgree (ds : List IndexDescriptor) : Prop :=
  ∀ d ∈ ds, ∀ e ∈ ds, d.name = e.name → d.identity = e.identity

instance (ds : List IndexDescriptor) : Decidable (NamesAgree ds) :=
  inferInstanceAs (Decidable (∀ d ∈ ds, ∀ e ∈ ds, d.name = e.name → d.identity = e.identity))

variable {desired existing : List IndexDescriptor}

theorem free_of_mem_create (h : k.Parses existing) (agree : NamesAgree (desired ++ existing))
    {d : IndexDescriptor} (hd : d ∈ (between desired existing).create) :
    k.definitions[d.name]? = none := by
  obtain ⟨mem, fresh⟩ := IndexDiff.of_mem_create hd
  refine Option.eq_none_iff_forall_not_mem.mpr fun sql entry => ?_
  obtain ⟨e, he, parsed⟩ := h.exists_of_entry entry
  have named : d.name = e.name := (name_of_ofCatalog parsed).symm
  have same : d.identity = e.identity :=
    agree d (List.mem_append_left _ mem) e (List.mem_append_right _ he) named
  exact fresh (same ▸ IndexDiff.describes_of_mem he)

theorem create_apart (agree : NamesAgree (desired ++ existing)) :
    (between desired existing).create.Pairwise fun d e => d.name ≠ e.name := by
  refine IndexDiff.firstsBeyond_pairwise.imp_of_mem fun hd he differ same => differ ?_
  exact agree _ (List.mem_append_left _ (IndexDiff.of_mem_create hd).1) _
    (List.mem_append_left _ (IndexDiff.of_mem_create he).1) same

theorem ne_name_of_mem_drop (agree : NamesAgree (desired ++ existing)) {d e : IndexDescriptor}
    (hd : d ∈ (between desired existing).drop) (he : e ∈ desired ++ existing)
    (wanted : Describes desired e.identity) : d.name ≠ e.name := by
  obtain ⟨mem, undesired⟩ := IndexDiff.mem_drop_iff.mp hd
  intro same
  exact undesired (agree d (List.mem_append_right _ mem) e he same ▸ wanted)

theorem entries_sync (h : k.Parses existing) (agree : NamesAgree (desired ++ existing))
    {name sql : String} :
    (withoutDropped (withCreated sparing table column k.definitions
        (between desired existing).create) (between desired existing).drop)[name]? = some sql ↔
      (k.definitions[name]? = some sql ∧ ∃ d, ofCatalog name sql = .ok d ∧
        Describes desired d.identity) ∨
      ∃ d ∈ (between desired existing).create,
        d.name = name ∧ d.statementText sparing table column = sql := by
  rw [getElem?_withoutDropped, getElem?_withCreated
    (fun d hd => free_of_mem_create h agree hd) (create_apart agree)]
  constructor
  · rintro ⟨entry | created, kept⟩
    · obtain ⟨d, hd, parsed⟩ := h.exists_of_entry entry
      refine .inl ⟨entry, d, parsed, ?_⟩
      by_contra undesired
      exact kept d (IndexDiff.mem_drop_iff.mpr ⟨hd, undesired⟩) (name_of_ofCatalog parsed)
    · exact .inr created
  · rintro (⟨entry, d, parsed, wanted⟩ | ⟨d, hd, rfl, rfl⟩)
    · refine ⟨.inl entry, fun e he => ?_⟩
      obtain rfl := name_of_ofCatalog parsed
      have hd := h.mem_iff.mpr ⟨sql, entry, parsed⟩
      exact ne_name_of_mem_drop agree he (List.mem_append_right _ hd) wanted
    · have mem := (IndexDiff.of_mem_create hd).1
      refine ⟨.inr ⟨d, hd, rfl, rfl⟩, fun e he => ?_⟩
      exact ne_name_of_mem_drop agree he (List.mem_append_left _ mem)
        (IndexDiff.describes_of_mem mem)

/-- The entries that synchronising leaves parse to descriptors of exactly the desired indexes. -/
theorem parses_sync (ht : Sql.isPlainIdentifier table = true)
    (hc : Sql.isPlainIdentifier column = true) (h : k.Parses existing)
    (filled : ∀ d ∈ desired, d.field.text ≠ "") (unopened : ∀ d ∈ desired, ¬HoldsOpening d.name)
    (agree : NamesAgree (desired ++ existing)) {k' : IndexKeeper}
    (left : k'.definitions = withoutDropped (withCreated sparing table column k.definitions
      (between desired existing).create) (between desired existing).drop) :
    ∃ listed, k'.Parses listed ∧ ∀ i, Describes listed i ↔ Describes desired i := by
  have created {d : IndexDescriptor} (hd : d ∈ (between desired existing).create) :
      ofCatalog d.name (d.statementText sparing table column) = .ok d := by
    have mem := (IndexDiff.of_mem_create hd).1
    exact IndexDescriptor.ofCatalog_statementText sparing (filled d mem) (unopened d mem) ht hc
  have entries {name sql : String} (entry : k'.definitions[name]? = some sql) :
      ∃ d, ofCatalog name sql = .ok d ∧ Describes desired d.identity := by
    rw [left] at entry
    rcases (entries_sync h agree).mp entry with ⟨-, parsed⟩ | ⟨d, hd, rfl, rfl⟩
    · exact parsed
    · exact ⟨d, created hd, IndexDiff.describes_of_mem (IndexDiff.of_mem_create hd).1⟩
  obtain ⟨listed, hl⟩ := exists_parses fun name sql entry =>
    (entries entry).imp fun d parsed => parsed.1
  refine ⟨listed, hl, fun i => ⟨fun hi => ?_, fun hi => ?_⟩⟩
  · obtain ⟨d, hd, rfl⟩ := List.mem_map.mp hi
    obtain ⟨sql, entry, parsed⟩ := hl.mem_iff.mp hd
    obtain ⟨d', parsed', wanted⟩ := entries entry
    obtain rfl := Except.ok.inj (parsed.symm.trans parsed')
    exact wanted
  · rcases @IndexDiff.describes_create _ existing i hi with old | new
    · obtain ⟨d, hd, rfl⟩ := List.mem_map.mp old
      obtain ⟨sql, entry, parsed⟩ := h.mem_iff.mp hd
      refine IndexDiff.describes_of_mem (hl.mem_iff.mpr ⟨sql, ?_, parsed⟩)
      rw [left]
      exact (entries_sync h agree).mpr (.inl ⟨entry, d, parsed, hi⟩)
    · obtain ⟨d, hd, rfl⟩ := List.mem_map.mp new
      refine IndexDiff.describes_of_mem (hl.mem_iff.mpr ⟨_, ?_, created hd⟩)
      rw [left]
      exact (entries_sync h agree).mpr (.inr ⟨d, hd, rfl, rfl⟩)

/-- Synchronising succeeds with the difference; it leaves exactly the desired indexes, under the
names and with the statements that they had; and done again it only reads the catalog. -/
theorem run_sync_converges (sparing : Bool) {table column : String}
    (ht : Sql.isPlainIdentifier table = true) (hc : Sql.isPlainIdentifier column = true)
    {k : IndexKeeper} {desired existing : List IndexDescriptor} (h : k.Parses existing)
    (filled : ∀ d ∈ desired, d.field.text ≠ "") (unopened : ∀ d ∈ desired, ¬HoldsOpening d.name)
    (agree : NamesAgree (desired ++ existing)) :
    ∃ k', (IndexSync.sync table column desired).run (executor sparing table) k =
        (.ok (between desired existing), k') ∧
      (∃ listed, (IndexSync.list table).run (executor sparing table) k' =
          (.ok listed, k'.record .listIndexes [.string table]) ∧
        ∀ i, Describes listed i ↔ Describes desired i) ∧
      (∀ name sql d, k.definitions[name]? = some sql → ofCatalog name sql = .ok d →
        Describes desired d.identity → k'.definitions[name]? = some sql) ∧
      (IndexSync.sync table column desired).run (executor sparing table) k' =
        (.ok ⟨[], []⟩, k'.record .listIndexes [.string table]) := by
  obtain ⟨k', run, left⟩ := run_sync sparing table column desired h
  obtain ⟨listed, hl, same⟩ := parses_sync ht hc h filled unopened agree left
  refine ⟨k', run, ⟨listed, run_list sparing table hl, same⟩, ?_, ?_⟩
  · intro name sql d entry parsed wanted
    rw [left]
    exact (entries_sync h agree).mpr (.inl ⟨entry, d, parsed, wanted⟩)
  · rw [IndexSync.sync, Program.run_bind_ok (run_list sparing table hl),
      IndexDiff.between_eq_nil same]
    rfl

/-- A catalog with two indexes of one field, one of them from a statement of old, and with an index
that `legacyDesired` has not. -/
def legacyKeeper : IndexKeeper where
  definitions := Std.TreeMap.ofList
    [("legacy", "create index legacy on users (json_extract(data, '$.age'))"),
      ("idx_path_age", "CREATE INDEX \"idx_path_age\" ON \"users\" (json_extract(data, '$.age'))"),
      ("stale", "CREATE UNIQUE INDEX \"stale\" ON \"users\" (json_extract(data, '$.o''brien'))")]

def legacyExisting : List IndexDescriptor :=
  [⟨.path, ⟨"age"⟩, "idx_path_age"⟩, ⟨.path, ⟨"age"⟩, "legacy"⟩, ⟨.unique, ⟨"o'brien"⟩, "stale"⟩]

/-- A list that desires one index twice, under different names. -/
def legacyDesired : List IndexDescriptor :=
  [.ofField .unique ⟨"email"⟩, .ofField .path ⟨"age"⟩, ⟨.unique, ⟨"email"⟩, "again"⟩]

theorem run_sync_converges_legacy :
    ∃ k', (IndexSync.sync "users" "data" legacyDesired).run (executor true "users") legacyKeeper =
        (.ok ⟨[.ofField .unique ⟨"email"⟩], [⟨.unique, ⟨"o'brien"⟩, "stale"⟩]⟩, k') ∧
      (IndexSync.sync "users" "data" legacyDesired).run (executor true "users") k' =
        (.ok ⟨[], []⟩, k'.record .listIndexes [.string "users"]) := by
  have table : Sql.isPlainIdentifier "users" = true := by decide
  have column : Sql.isPlainIdentifier "data" = true := by decide
  have parses : legacyKeeper.Parses legacyExisting := rfl
  have filled : ∀ d ∈ legacyDesired, d.field.text ≠ "" := by decide
  have unopened : ∀ d ∈ legacyDesired, ¬HoldsOpening d.name := by decide
  have agree : NamesAgree (legacyDesired ++ legacyExisting) := by decide
  have difference : between legacyDesired legacyExisting =
      ⟨[.ofField .unique ⟨"email"⟩], [⟨.unique, ⟨"o'brien"⟩, "stale"⟩]⟩ := by decide
  obtain ⟨k', run, -, -, again⟩ :=
    run_sync_converges true table column parses filled unopened agree
  exact ⟨k', difference ▸ run, again⟩

end IndexKeeper
end DocStore
