import DocStore.Proofs.Collection.OneByOne
import DocStore.Proofs.Collection.Reading

/-! # Pages of a search

A page is a slice of what the search without paging answers: neither the documents that a filter
selects nor their order depend on the bounds, or on the time. So the pages of a size, one after
another, hold each document once. But the engine reads a bound as a 64-bit integer, and refuses the
whole search if it does not fit. -/
set_option autoImplicit false

namespace DocStore

open Engine (Storage Table Row)

/-! ## Slices -/

namespace FindOptions

/-- The same order, without paging. -/
def unpaged (o : FindOptions) : FindOptions := { o with offset := none, limit := none }

/-- What paging leaves of some items. -/
def slice {α : Type} (o : FindOptions) (items : List α) : List α :=
  match o.limit with
  | some n => (items.drop (o.offset.getD 0)).take n
  | none => items.drop (o.offset.getD 0)

/-- Whether the engine accepts the bounds. It reads them only if there may be something to answer
with. -/
def Accepted (o : FindOptions) : Prop :=
  o.limit = some 0 ∨ (∀ n, o.limit = some n → n < 2 ^ 63) ∧ ∀ n, o.offset = some n → n < 2 ^ 63

variable {o : FindOptions}

theorem slice_map {α β : Type} (f : α → β) (items : List α) :
    o.slice (items.map f) = (o.slice items).map f := by
  unfold slice
  split
  · rw [← List.map_drop, ← List.map_take]
  · rw [← List.map_drop]

theorem forall₂_slice {α β : Type} {R : α → β → Prop} {items : List α} {others : List β}
    (h : List.Forall₂ R items others) : List.Forall₂ R (o.slice items) (o.slice others) := by
  unfold slice
  split
  · exact List.forall₂_take _ (List.forall₂_drop _ h)
  · exact List.forall₂_drop _ h

end FindOptions

/-! ## Searching -/

namespace Engine

variable {st : Storage} {clock : Int} {t : Table} {table column : String}
  {filter : Option Sql.Condition} {options : FindOptions} {params : List Json}

theorem fits_iff {bound : Option Nat} :
    Table.fits bound = true ↔ ∀ n, bound = some n → n < 2 ^ 63 := by
  cases bound with
  | none => simp [Table.fits]
  | some n => simp [Table.fits]

theorem page_of_accepted (h : options.Accepted) (rows : List Row) :
    Table.page options rows = .ok (options.slice rows) := by
  unfold Table.page
  by_cases none : options.limit = some 0
  · rw [if_pos (by rw [none]; rfl), FindOptions.slice, none]
    rfl
  · obtain ⟨limit, offset⟩ := h.resolve_left none
    rw [if_neg (by simpa using none), fits_iff.mpr limit, fits_iff.mpr offset]
    rfl

theorem page_of_not_accepted (h : ¬options.Accepted) (rows : List Row) :
    Table.page options rows = .error .datatypeMismatch := by
  obtain ⟨some_limit, large⟩ := not_or.mp h
  have unfit : (Table.fits options.limit && Table.fits options.offset) = false := by
    rw [Bool.eq_false_iff, ne_eq, Bool.and_eq_true, fits_iff, fits_iff]
    exact large
  rw [Table.page, if_neg (by simpa using some_limit), unfit]
  rfl

theorem reach_unpaged (options : FindOptions) : Table.reach options.unpaged = none := by
  rw [Table.reach, if_neg (by simp [FindOptions.unpaged, Table.fits])]
  split <;> rfl

theorem sorted_nil : t.sorted clock column options [] = .ok [] := by
  rw [Table.sorted]
  cases options.orderBy with
  | none => rfl
  | some f => simp [Table.sortKeys]

theorem sorted_of_unordered (h : options.orderBy = none) (rows : List Row) :
    t.sorted clock column options rows = .ok rows := by
  rw [Table.sorted, h]

/-- A page is the same whether it is cut from all rows or from those that are looked for. -/
theorem page_reach {rows sorted : List Row}
    (h : t.sorted clock column options rows = .ok sorted) :
    ∃ reached, t.sorted clock column options
        ((Table.reach options).elim rows fun n => rows.take n) = .ok reached ∧
      Table.page options reached = Table.page options sorted := by
  unfold Table.reach
  split_ifs with empty ordered
  · refine ⟨[], sorted_nil, ?_⟩
    unfold Table.page
    split_ifs with zero small
    · rfl
    · simp [zero, small] at empty
    · rfl
  · exact ⟨sorted, h, rfl⟩
  · have order : options.orderBy = none := Option.not_isSome_iff_eq_none.mp ordered
    obtain rfl : rows = sorted := Except.ok.inj ((sorted_of_unordered order rows).symm.trans h)
    refine ⟨_, sorted_of_unordered order _, ?_⟩
    cases limit : options.limit with
    | none => rfl
    | some n =>
      have cut : ((rows.take (options.offset.getD 0 + n)).drop (options.offset.getD 0)).take n =
          (rows.drop (options.offset.getD 0)).take n := by
        rw [List.drop_take, Nat.add_sub_cancel_left, List.take_take, Nat.min_self]
      simp only [Table.page, limit, Option.map_some, Option.elim_some, cut]

/-- The rows of a search are those of the search without paging, cut to the page. -/
theorem findDocuments_page {output : QueryOutput}
    (whole : findDocuments st clock table column filter options.unpaged params = .ok output) :
    (options.Accepted → findDocuments st clock table column filter options params =
      .ok { rows := options.slice output.rows }) ∧
    (¬options.Accepted → findDocuments st clock table column filter options params =
      .error .datatypeMismatch) := by
  obtain ⟨t, found, whole⟩ := Outcome.bind_eq_ok.mp whole
  obtain ⟨c, resolved, whole⟩ := Outcome.bind_eq_ok.mp whole
  obtain ⟨bound, hbound, whole⟩ := Outcome.bind_eq_ok.mp whole
  obtain ⟨selected, hselected, whole⟩ := Outcome.bind_eq_ok.mp whole
  obtain ⟨sorted, hsorted, whole⟩ := Outcome.bind_eq_ok.mp whole
  rw [reach_unpaged] at hselected
  have ordered : t.sorted clock column options selected = .ok sorted := hsorted
  obtain ⟨reached, hreached, page⟩ := page_reach ordered
  cases whole
  rw [findDocuments, found, Outcome.ok_bind, resolved, Outcome.ok_bind, hbound, Outcome.ok_bind,
    Table.selected_limit hselected, Outcome.ok_bind, hreached, Outcome.ok_bind, page]
  constructor
  · intro accepted
    rw [page_of_accepted accepted, Outcome.ok_bind, FindOptions.slice_map]
    rfl
  · intro refused
    rw [page_of_not_accepted refused]
    rfl

/-- The order of rows does not depend on the time. -/
theorem sorted_clock (clock clock' : Int) (column : String) (options : FindOptions)
    (rows : List Row) :
    t.sorted clock column options rows = t.sorted clock' column options rows := by
  have keys (f : FieldPath) : t.sortKeys clock (.field column f) rows =
      t.sortKeys clock' (.field column f) rows := by
    induction rows with
    | nil => rfl
    | cons row rows ih =>
      have same : Sql.Expr.FieldsAgree column (t.scope .stored clock row)
          (t.scope .stored clock' row) := .of_cell rfl
      rw [Table.sortKeys, Table.sortKeys, same f, ih]
  unfold Table.sorted
  split
  · rfl
  · rw [keys]

theorem execute_find_error {cause : EngineCause}
    (clean : '\x00' ∉ (Statement.find table column filter options).text.toList)
    (h : findDocuments st clock table column filter options params = .error cause) :
    execute clock (.find table column filter options) params st =
      (.error (.engine cause), st) := by
  rw [execute, perform_find_of_clean clean, h]
  rfl

theorem perform_find {o : Outcome}
    (h : perform clock (.find table column filter options) params st = .ok o) :
    findDocuments st clock table column filter options params = .ok o.output ∧ o.storage = st := by
  rw [perform_find_of_clean (clean_of_perform h)] at h
  obtain ⟨output, found, rfl⟩ := Outcome.map_eq_ok.mp h
  exact ⟨found, rfl⟩

end Engine

namespace Statement

theorem clean_natText (n : Nat) : '\x00' ∉ (natText n).toList := by
  rw [natText, String.toList_ofList]
  intro mem
  have digit := Text.isDigit_of_mem_decimal n _ mem
  revert digit
  decide

theorem clean_pagingText (options : FindOptions) : '\x00' ∉ (pagingText options).toList := by
  have limit : '\x00' ∉ " LIMIT ".toList := by decide
  have unlimited : '\x00' ∉ " LIMIT -1".toList := by decide
  have offset : '\x00' ∉ " OFFSET ".toList := by decide
  rw [pagingText, String.toList_append, List.mem_append, not_or]
  constructor
  · split
    · simpa only [String.toList_append, List.mem_append, not_or] using ⟨limit, clean_natText _⟩
    · exact unlimited
    · decide
  · split
    · simpa only [String.toList_append, List.mem_append, not_or] using ⟨offset, clean_natText _⟩
    · decide

/-- Paging adds digits and keywords to the text of a search. -/
theorem clean_find_paged {table column : String} {filter : Option Sql.Condition}
    {options : FindOptions}
    (h : '\x00' ∉ (find table column filter options.unpaged).text.toList) :
    '\x00' ∉ (find table column filter options).text.toList := by
  have order : orderText column options.unpaged = orderText column options := rfl
  rw [text_find, order, String.toList_append, List.mem_append, not_or] at h
  rw [text_find, String.toList_append, List.mem_append, not_or]
  exact ⟨h.1, clean_pagingText options⟩

end Statement

namespace Collection

variable {c : Collection} {st st' : Storage} {filter : Option Predicate} {options : FindOptions}
  {clock : Int} {docs : List Document}

/-- What a filter selects does not depend on the time. -/
theorem findDocuments_clock (clock clock' : Int) :
    Engine.findDocuments st clock c.name c.column.name (c.conditionOf filter) options
        (paramsOf filter) =
      Engine.findDocuments st clock' c.name c.column.name (c.conditionOf filter) options
        (paramsOf filter) := by
  have selected (t : Table) (limit : Option Nat) : t.selected clock (c.bound filter) limit =
      t.selected clock' (c.bound filter) limit := by
    have tests : t.selects clock (c.bound filter) = t.selects clock' (c.bound filter) := by
      funext row
      cases filter with
      | none => rfl
      | some p =>
        have same : Sql.Expr.FieldsAgree c.column.name
            (t.scope (t.viewFor (p.filled c.column.name)) clock row)
            (t.scope (t.viewFor (p.filled c.column.name)) clock' row) := .of_cell rfl
        exact p.holds_filled_congr same
    unfold Table.selected
    rw [tests]
  simp only [Engine.findDocuments, bindFilter_conditionOf, Outcome.ok_bind, selected,
    Engine.sorted_clock clock clock']

theorem run_find {r : Except Error QueryOutput}
    (sent : Engine.execute clock (.find c.name c.column.name (c.conditionOf filter) options)
      (paramsOf filter) st = (r, st)) :
    (c.find filter options).run (Engine.executor clock) st =
      (r >>= fun out => out.rows.mapM fun row => Document.ofCell row.head?, st) := by
  rw [← Engine.run_send] at sent
  cases r with
  | ok out => rw [find, Program.run_bind_ok sent, Program.run_ofExcept, Outcome.ok_bind]
  | error e => exact Program.run_bind_error sent _

section Whole

variable (options)
  (whole : (c.find filter options.unpaged).run (Engine.executor clock) st = (.ok docs, st'))
include whole

/-- If the search without paging answers, its rows are found whatever the page and the time. -/
theorem exists_rows : ∃ rows : List (List Json),
    rows.mapM (fun row => Document.ofCell row.head?) = .ok docs ∧
    ∀ clock', (options.Accepted →
      Engine.execute clock' (.find c.name c.column.name (c.conditionOf filter) options)
        (paramsOf filter) st = (.ok { rows := options.slice rows }, st)) ∧
    (¬options.Accepted →
      Engine.execute clock' (.find c.name c.column.name (c.conditionOf filter) options)
        (paramsOf filter) st = (.error (.engine .datatypeMismatch), st)) := by
  obtain ⟨out, between, sent, whole⟩ := Program.of_run_bind_ok whole
  obtain ⟨o, performed, rfl, rfl⟩ := Engine.run_send_ok sent
  obtain ⟨found, -⟩ := Engine.perform_find performed
  have clean := Statement.clean_find_paged (Engine.clean_of_perform performed)
  rw [Program.run_ofExcept] at whole
  refine ⟨o.output.rows, (Prod.mk.inj whole).1, fun clock' => ?_⟩
  rw [findDocuments_clock clock clock'] at found
  obtain ⟨accepted, refused⟩ := Engine.findDocuments_page found
  exact ⟨fun h => Engine.execute_find clean (accepted h),
    fun h => Engine.execute_find_error clean (refused h)⟩

theorem run_find_accepted (accepted : options.Accepted) (clock' : Int) :
    (c.find filter options).run (Engine.executor clock') st = (.ok (options.slice docs), st) := by
  obtain ⟨rows, read, sent⟩ := exists_rows options whole
  rw [run_find ((sent clock').1 accepted), Outcome.ok_bind]
  have page := FindOptions.forall₂_slice (o := options) (Outcome.mapM_eq_ok_iff.mp read)
  rw [Outcome.mapM_eq_ok_iff.mpr page]

theorem run_find_refused (refused : ¬options.Accepted) (clock' : Int) :
    (c.find filter options).run (Engine.executor clock') st =
      (.error (.engine .datatypeMismatch), st) := by
  obtain ⟨rows, -, sent⟩ := exists_rows options whole
  rw [run_find ((sent clock').2 refused), Outcome.error_bind]

/-- The first document after the offset is found whatever the limit. -/
theorem run_findOne (offset : ∀ n, options.offset = some n → n < 2 ^ 63) (clock' : Int) :
    (c.findOne filter options).run (Engine.executor clock') st =
      (.ok (docs.drop (options.offset.getD 0)).head?, st) := by
  have accepted : ({ options with limit := some 1 } : FindOptions).Accepted :=
    .inr ⟨fun n h => Option.some.inj h ▸ by decide, offset⟩
  have found := run_find_accepted { options with limit := some 1 } whole accepted clock'
  have first : ((docs.drop (options.offset.getD 0)).take 1).head? =
      (docs.drop (options.offset.getD 0)).head? := by
    cases docs.drop (options.offset.getD 0) <;> rfl
  rw [findOne, Program.run_bind_ok found]
  exact congrArg (fun d => (Except.ok d, st)) first

end Whole

/-! ## Page after page -/

/-- The documents of pages of some size, from an offset on, each page read at a time of its own. -/
def readPages (c : Collection) (filter : Option Predicate) (options : FindOptions) (size : Nat) :
    List Int → Nat → Storage → Except Error (List Document) × Storage
  | [], _, st => (.ok [], st)
  | clock :: clocks, offset, st =>
    match (c.find filter { options with offset := some offset, limit := some size }).run
        (Engine.executor clock) st with
    | (.ok page, st) =>
      let rest := c.readPages filter options size clocks (offset + size) st
      (rest.1.map (page ++ ·), rest.2)
    | (.error e, st) => (.error e, st)

/-- The pages that begin at numbers that fit make up what is from the first of them to the end of
the last. -/
theorem readPages_eq
    (whole : (c.find filter options.unpaged).run (Engine.executor clock) st = (.ok docs, st'))
    {size : Nat} (small : size < 2 ^ 63) (times : List Int) (offset : Nat)
    (fit : ∀ i < times.length, offset + i * size < 2 ^ 63) :
    c.readPages filter options size times offset st =
      (.ok ((docs.drop offset).take (times.length * size)), st) := by
  induction times generalizing offset with
  | nil =>
    unfold readPages
    rw [List.length_nil, Nat.zero_mul, List.take_zero]
  | cons time times ih =>
    have begins : offset < 2 ^ 63 := by
      have := fit 0 (Nat.succ_pos _)
      omega
    have later : ∀ i < times.length, offset + size + i * size < 2 ^ 63 := by
      intro i hi
      have := fit (i + 1) (Nat.succ_lt_succ hi)
      rw [Nat.succ_mul] at this
      omega
    have accepted : ({ options with offset := some offset, limit := some size } :
        FindOptions).Accepted :=
      .inr ⟨fun n h => Option.some.inj h ▸ small, fun n h => Option.some.inj h ▸ begins⟩
    have page := run_find_accepted { options with offset := some offset, limit := some size } whole
      accepted time
    have split : (docs.drop offset).take ((times.length + 1) * size) =
        (docs.drop offset).take size ++ (docs.drop (offset + size)).take (times.length * size) := by
      rw [Nat.succ_mul, Nat.add_comm, List.take_add, List.drop_drop]
    unfold readPages
    rw [page]
    dsimp only
    rw [ih (offset + size) later, List.length_cons, split]
    rfl

/-- A page holds what remains of the documents of the whole search when those before the offset are
dropped and those beyond the limit are left out; if a bound does not fit into 64 bits, though, the
search fails. The first document after the offset is found whatever the limit. Pages of one size,
one after another, hold the documents of the whole search in their order, as far as they reach.
Nothing of this depends on when a page is read. -/
theorem find_paged (c : Collection) (filter : Option Predicate) (options : FindOptions)
    (whole : (c.find filter options.unpaged).run (Engine.executor clock) st = (.ok docs, st')) :
    (options.Accepted → ∀ clock', (c.find filter options).run (Engine.executor clock') st =
      (.ok (options.slice docs), st)) ∧
    (¬options.Accepted → ∀ clock', (c.find filter options).run (Engine.executor clock') st =
      (.error (.engine .datatypeMismatch), st)) ∧
    ((∀ n, options.offset = some n → n < 2 ^ 63) → ∀ clock',
      (c.findOne filter options).run (Engine.executor clock') st =
        (.ok (docs.drop (options.offset.getD 0)).head?, st)) ∧
    ∀ size < 2 ^ 63, ∀ times : List Int, (∀ i < times.length, i * size < 2 ^ 63) →
      c.readPages filter options size times 0 st =
        (.ok (docs.take (times.length * size)), st) := by
  refine ⟨run_find_accepted options whole, run_find_refused options whole,
    run_findOne options whole, fun size small times fit => ?_⟩
  exact readPages_eq whole small times 0 fun i hi => (Nat.zero_add _).symm ▸ fit i hi

/-! ## Two users -/

theorem find_two {n : Nat} {d e : Document} (hd : Json.Fits n (.object d))
    (he : Json.Fits n (.object e)) (shallow : n ≤ Json.maxReadNesting) (clock : Int) :
    (users.find none {}).run (Engine.executor clock) (usersStorage [] [d, e]) =
      (.ok [d, e], usersStorage [] [d, e]) := by
  rw [run_find_all (by decide) (table?_users ..) rfl]
  have read : List.Forall₂ (fun row d => Document.ofCell (some (.string row.document.text)) = .ok d)
      (usersTable [] [d, e]).rows [d, e] :=
    .cons (Document.ofCell_text hd shallow) (.cons (Document.ofCell_text he shallow) .nil)
  rw [Outcome.mapM_eq_ok_iff.mpr read]

theorem find_annThenBob (clock : Int) :
    (users.find none {}).run (Engine.executor clock) (usersStorage [] annThenBob) =
      (.ok annThenBob, usersStorage [] annThenBob) := by
  have scalar (id : String) : Json.Fits 1 (.string id) := trivial
  have first := fits_user (scalar "a") "Ann"
  have second := fits_user (scalar "b") "Bob"
  have shallow : 2 ≤ Json.maxReadNesting := by decide
  unfold annThenBob
  exact find_two first second shallow clock

theorem find_paged_users :
    (users.find none { offset := some 1 }).run (Engine.executor 1) (usersStorage [] annThenBob) =
      (.ok [user (.string "b") "Bob"], usersStorage [] annThenBob) ∧
    (users.findOne none { offset := some 1, limit := some 0 }).run (Engine.executor 1)
        (usersStorage [] annThenBob) =
      (.ok (some (user (.string "b") "Bob")), usersStorage [] annThenBob) ∧
    users.readPages none {} 1 [1, 2, 3] 0 (usersStorage [] annThenBob) =
      (.ok annThenBob, usersStorage [] annThenBob) := by
  obtain ⟨page, -⟩ := find_paged users none { offset := some 1 } (find_annThenBob 0)
  obtain ⟨-, -, first, -⟩ :=
    find_paged users none { offset := some 1, limit := some 0 } (find_annThenBob 0)
  obtain ⟨-, -, -, pages⟩ := find_paged users none {} (find_annThenBob 0)
  have one : ∀ n, some 1 = some n → n < 2 ^ 63 := fun n h => Option.some.inj h ▸ by decide
  refine ⟨page (.inr ⟨nofun, one⟩) 1, first one 1, pages 1 (by decide) [1, 2, 3] ?_⟩
  intro i hi
  exact (Nat.mul_one i).symm ▸ hi.trans (by decide)

/-- A limit beyond 64 bits, the greatest number for one, is no limit to those who ask, but the
search fails. -/
theorem find_paged_unlimited :
    (usersStorage [] annThenBob).Reachable ∧
    (users.find none {}).run (Engine.executor 0) (usersStorage [] annThenBob) =
      (.ok annThenBob, usersStorage [] annThenBob) ∧
    (users.find none { limit := some 18446744073709551615 }).run (Engine.executor 0)
        (usersStorage [] annThenBob) =
      (.error (.engine .datatypeMismatch), usersStorage [] annThenBob) := by
  have refused : ¬({ limit := some 18446744073709551615 } : FindOptions).Accepted := by
    rintro (none | ⟨small, -⟩)
    · have zero : 18446744073709551615 = 0 := Option.some.inj none
      omega
    · have := small 18446744073709551615 rfl
      omega
  exact ⟨live_annThenBob.reachable.reachable, find_annThenBob 0,
    run_find_refused { limit := some 18446744073709551615 } (find_annThenBob 0) refused 0⟩

end Collection
end DocStore
