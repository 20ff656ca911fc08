import DocStore.Proofs.Collection.Calls
import DocStore.Proofs.Collection.Fetching
import DocStore.Proofs.Query.Grafting

/-! # Reading all documents of a collection

Whatever calls change the documents of a collection, and whether they succeed or fail, each stored
document is an object with readable text. All documents are read back exactly if none is nested too
deep and none has a number out of range (`Collection.find_after`). Insertions keep to both bounds;
updates do if all that they set lies within the nesting that reading accepts, at the end of its path,
and if they add nothing up. -/
set_option autoImplicit false

namespace DocStore

open Engine (Storage Table Row Datum)
open Sql (Column)

/-! ## Reading one document -/

namespace Node

mutual

/-- The literals of a node that has a value are those of numbers. -/
theorem fits_of_toJson? : (n : Node) → (k : Nat) → n.nesting ≤ k → (∃ j, n.toJson? = some j) →
    Fits InRange k n
  | .null, k, _, _ => .null k
  | .bool b, k, _, _ => .bool k b
  | .string s, k, _, _ => .string k s
  | .number literal, k, _, h => by
    obtain ⟨j, value⟩ := h
    rw [toJson?] at value
    obtain ⟨l, read, value⟩ := Option.bind_eq_some_iff.mp value
    obtain ⟨number, inRange, -⟩ := Option.bind_eq_some_iff.mp value
    exact .number k ⟨l, number, read, inRange⟩
  | .array items, k + 1, low, h => by
    obtain ⟨j, value⟩ := h
    obtain ⟨js, values, -⟩ := Option.map_eq_some_iff.mp value
    exact .array (fits_of_toItems? items k (Nat.le_of_succ_le_succ low) ⟨js, values⟩)
  | .object members, k + 1, low, h => by
    obtain ⟨j, value⟩ := h
    obtain ⟨js, values, -⟩ := Option.map_eq_some_iff.mp value
    exact .object (fits_of_toMembers? members k (Nat.le_of_succ_le_succ low) ⟨js, values⟩)

theorem fits_of_toItems? : (items : List Node) → (k : Nat) → nestingItems items ≤ k →
    (∃ js, toItems? items = some js) → ∀ item ∈ items, Fits InRange k item
  | [], _, _, _ => fun item mem => by cases mem
  | item :: items, k, low, h => by
    obtain ⟨first, others⟩ := max_le_iff.mp low
    obtain ⟨js, values⟩ := h
    obtain ⟨j, value, values⟩ := Option.bind_eq_some_iff.mp values
    obtain ⟨rest, values, -⟩ := Option.bind_eq_some_iff.mp values
    exact List.forall_mem_cons.mpr
      ⟨fits_of_toJson? item k first ⟨j, value⟩, fits_of_toItems? items k others ⟨rest, values⟩⟩

theorem fits_of_toMembers? : (members : List (String × Node)) → (k : Nat) →
    nestingMembers members ≤ k → (∃ js, toMembers? members = some js) →
    ∀ m ∈ members, Fits InRange k m.2
  | [], _, _, _ => fun m mem => by cases mem
  | (_, value) :: members, k, low, h => by
    obtain ⟨first, others⟩ := max_le_iff.mp low
    obtain ⟨js, values⟩ := h
    obtain ⟨j, found, values⟩ := Option.bind_eq_some_iff.mp values
    obtain ⟨rest, values, -⟩ := Option.bind_eq_some_iff.mp values
    exact List.forall_mem_cons.mpr
      ⟨fits_of_toJson? value k first ⟨j, found⟩, fits_of_toMembers? members k others ⟨rest, values⟩⟩

end

/-- Whether a node is an object whose literals can be read, nested as deep as it may be. -/
def IsStored (n : Node) : Prop := (∃ members, n = .object members) ∧ ∃ k, n.Fits Readable k

/-- Whether the text of a node is accepted where a value is read. -/
def IsReadable (n : Node) : Prop := n.Fits InRange Json.maxReadNesting

end Node

/-- A stored document is read from its text exactly if its nesting and its numbers are accepted. -/
theorem Document.exists_ofCell_iff {n : Node} (h : n.IsStored) :
    (∃ d, Document.ofCell (some (.string n.text)) = .ok d) ↔ n.IsReadable := by
  obtain ⟨⟨members, rfl⟩, k, readable⟩ := h
  have node := Node.read?_text readable.written
  have read : Json.read? (Node.object members).text =
      if (Node.object members).nesting ≤ Json.maxReadNesting then (Node.object members).toJson?
      else none := by
    rw [Json.read?, node, Option.bind_eq_bind, Option.bind_some, guard]
    split <;> rfl
  constructor
  · rintro ⟨d, h⟩
    rw [ofCell, read] at h
    split_ifs at h with low
    · cases value : (Node.object members).toJson? with
      | none =>
        rw [value] at h
        cases h
      | some j => exact Node.fits_of_toJson? _ _ low ⟨j, value⟩
  · intro fits
    obtain ⟨j, value⟩ := Node.Fits.exists_toJson? fits
    obtain ⟨js, -, rfl⟩ := Option.map_eq_some_iff.mp value
    exact ⟨Json.sortMembers js, by rw [ofCell, read, if_pos fits.nesting_le, value]; rfl⟩

/-! ## What calls keep of all documents -/

theorem UpdateOp.keeps_foldlM {P : Node → Prop} {column : String} {clock : Int}
    {ops : List UpdateOp}
    (kept : ∀ op ∈ ops, ∀ n m, P n → op.stored column clock n = .ok m → P m) {n m : Node} (h : P n)
    (run : ops.foldlM (fun n op => op.stored column clock n) n = .ok m) : P m := by
  induction ops generalizing n with
  | nil =>
    cases run
    exact h
  | cons op ops ih =>
    obtain ⟨first, others⟩ := List.forall_mem_cons.mp kept
    obtain ⟨between, step, run⟩ := Outcome.bind_eq_ok.mp run
    exact ih others (first n between h step) run

namespace Collection

variable {c : Collection} {st : Storage} {clock : Int} {P : Node → Prop} {ops : List UpdateOp}

/-- Whether the table of a collection is in place and all its documents have a property. -/
def Holds (c : Collection) (P : Node → Prop) (st : Storage) : Prop :=
  ∃ t, st.table? c.name = some t ∧ t.column = c.column.name ∧ ∀ row ∈ t.rows, P row.document

theorem Holds.execute_insert {d : Document} (made : Json.Fits (maxNesting + 1) (.object d))
    (new : P (.ofJson (.object d))) (h : c.Holds P st) (onConflict : OnConflict)
    (returning : Bool) :
    c.Holds P (Engine.execute clock (.insert c.name c.column.name onConflict returning)
      [.string d.text] st).2 := by
  refine Engine.execute_keeps h fun o performed => ?_
  obtain ⟨t, found, -, ⟨-, rfl⟩ | ⟨t', inserted, rfl⟩⟩ := perform_insert_ok made performed
  · exact h
  · obtain ⟨t₀, found₀, column, documents⟩ := h
    obtain rfl : t = t₀ := Option.some.inj (found.symm.trans found₀)
    obtain ⟨kept, rfl, from_rows, -⟩ := Table.insert_some inserted
    refine ⟨_, Storage.table?_replaceTable_self found rfl, column, fun row mem => ?_⟩
    rcases List.mem_append.mp mem with mem | mem
    · exact documents row (from_rows.subset mem)
    · rw [List.mem_singleton.mp mem]
      exact new

theorem Holds.execute_update {u : Update}
    (kept : ∀ op ∈ u.ops, ∀ n m, P n → op.stored c.column.name clock n = .ok m → P m)
    (h : c.Holds P st) (filter : Option Sql.Condition) (onlyFirst : Bool) (more : List Json) :
    c.Holds P (Engine.execute clock
      (.update c.name c.column.name (u.expr c.column.name) filter onlyFirst) (u.params ++ more)
      st).2 := by
  refine Engine.execute_keeps h fun o performed => ?_
  obtain ⟨t, ref, bound, left, condition, targets, t', found, resolved, bind, chosen, updated,
    storage⟩ := Engine.updateDocuments_ok (Engine.perform_update performed)
  obtain ⟨t₀, found₀, column, documents⟩ := h
  obtain rfl : t = t₀ := Option.some.inj (found.symm.trans found₀)
  have own := column?_of_eq column
  obtain rfl : ref = .document := Option.some.inj (resolved.symm.trans own)
  have filled := u.bind_expr c.column.name more
  obtain ⟨rfl, -⟩ := Prod.mk.inj (Option.some.inj (filled.symm.trans bind))
  have new : ∀ row ∈ targets, ∀ row',
      t.revised clock .document (u.filled c.column.name) row = .ok row' →
        t.KeysRow row' → P row'.document := by
    intro row target row' revised _
    obtain ⟨-, changed⟩ := Update.revised_ok own revised
    have old := documents row (Engine.mem_of_targets chosen row target)
    exact UpdateOp.keeps_foldlM kept old changed
  obtain ⟨after, name, same_column, -⟩ :=
    Table.forall_rows_updateRows updated (P := fun row => P row.document) documents new
  rw [storage]
  exact ⟨t', Storage.table?_replaceTable_self found name, same_column.trans column, after⟩

variable (new : ∀ d, Json.Fits (maxNesting + 1) (.object d) → P (.ofJson (.object d)))
include new

/-- What holds of inserted documents and is kept by the operations of a call is kept by the
statements of the call. -/
theorem Holds.execute {s : Statement} {params : List Json}
    (kept : ∀ op ∈ ops, ∀ n m, P n → op.stored c.column.name clock n = .ok m → P m)
    (sent : c.EditStatement ops s params) (h : c.Holds P st) :
    c.Holds P (Engine.execute clock s params st).2 := by
  cases sent with
  | find filter options =>
    have reads : Engine.Reads (.find c.name c.column.name (c.conditionOf filter) options) := trivial
    exact Engine.execute_keeps h fun _ performed => (Engine.perform_reads reads performed).symm ▸ h
  | insert made onConflict returning =>
    have fits := (Document.ofValue_ok made).1
    exact h.execute_insert fits (new _ fits) onConflict returning
  | update same filter onlyFirst more =>
    subst same
    exact h.execute_update kept (c.conditionOf filter) onlyFirst more
  | delete filter onlyFirst =>
    refine Engine.execute_keeps h fun o performed => ?_
    obtain ⟨t, keys, found, storage⟩ := Engine.deleteDocuments_ok (Engine.perform_delete performed)
    obtain ⟨t₀, found₀, column, documents⟩ := h
    obtain rfl : t = t₀ := Option.some.inj (found.symm.trans found₀)
    rw [storage]
    exact ⟨_, Storage.table?_replaceTable_self found rfl, column,
      fun row mem => documents row (List.mem_filter.mp mem).1⟩

theorem Holds.after {edits : List (Int × DocumentEdit)}
    (kept : ∀ e ∈ edits, ∀ op ∈ e.2.ops, ∀ n m, P n →
      op.stored c.column.name e.1 n = .ok m → P m)
    (h : c.Holds P st) : c.Holds P (c.after edits st) :=
  afterEach_keeps (fun e mem _ => Engine.run_keeps
    (fun _ _ _ sent => Holds.execute new (kept e mem) sent) (sends_program e.2)) h

omit new

/-! ## All documents -/

theorem findDocuments_all {t : Table} {table column : String} (found : st.table? table = some t)
    (resolved : t.column? column = some .document) :
    Engine.findDocuments st clock table column none {} [] =
      .ok { rows := t.rows.map fun row => [.string row.document.text] } := by
  have selected : t.selected clock none (Table.reach {}) = .ok t.rows :=
    Table.filterRows_eq_ok.mpr ⟨fun _ _ => rfl, (List.filter_eq_self.mpr fun _ _ => rfl).symm⟩
  have unbound : Engine.bindFilter none [] = .ok none := rfl
  have unsorted : t.sorted clock column {} t.rows = .ok t.rows := rfl
  have whole : Table.page {} t.rows = .ok t.rows := rfl
  simp only [Engine.findDocuments, Storage.tableOf_eq_ok.mpr found,
    Engine.columnOf_eq_ok.mpr resolved, unbound, selected, unsorted, whole, Outcome.ok_bind]
  rfl

/-- A search without a filter answers with all documents in the order of their keys. -/
theorem run_find_all {t : Table} (plain : Sql.isPlainIdentifier c.name = true)
    (found : st.table? c.name = some t) (column : t.column = c.column.name) :
    (c.find none {}).run (Engine.executor clock) st =
      (t.rows.mapM fun row => Document.ofCell (some (.string row.document.text)), st) := by
  have clean : '\x00' ∉ (Statement.find c.name c.column.name none {}).text.toList :=
    Statement.clean_find (Sql.not_nul_quoteIdentifier_iff.mpr (Sql.not_nul_of_plain plain))
      (Sql.not_nul_of_plain c.column.isPlain) (by decide) rfl (by decide)
  have searched : (Engine.executor clock).execute (.find c.name c.column.name none {}) [] st =
      (.ok { rows := t.rows.map fun row => [.string row.document.text] }, st) :=
    Engine.execute_find clean (findDocuments_all found (column?_of_eq column))
  rw [find]
  refine (Program.run_bind_ok (Program.run_send_ok searched)).trans ?_
  rw [Program.run_ofExcept]
  exact congrArg (·, st) (List.mapM_map ..)

theorem Holds.find_ok_iff (plain : Sql.isPlainIdentifier c.name = true)
    (stored : c.Holds Node.IsStored st) :
    (∃ ds, (c.find none {}).run (Engine.executor clock) st = (.ok ds, st)) ↔
      c.Holds Node.IsReadable st := by
  obtain ⟨t, found, column, documents⟩ := stored
  rw [run_find_all plain found column]
  constructor
  · rintro ⟨ds, h⟩
    have read := (Prod.mk.inj h).1
    refine ⟨t, found, column, fun row mem => ?_⟩
    exact (Document.exists_ofCell_iff (documents row mem)).mp
      (Outcome.exists_of_mapM_eq_ok read mem)
  · rintro ⟨t₀, found₀, -, readable⟩
    obtain rfl : t = t₀ := Option.some.inj (found.symm.trans found₀)
    obtain ⟨ds, read⟩ := Outcome.exists_mapM_eq_ok fun row mem =>
      (Document.exists_ofCell_iff (documents row mem)).mpr (readable row mem)
    exact ⟨ds, congrArg (·, st) read⟩

theorem stored_ofJson (d : Document) : (Node.ofJson (.object d)).IsStored :=
  ⟨⟨_, rfl⟩, _, Node.fits_ofJson (fun x => (Node.inRange_chars x).readable) _ _ (Nat.le_refl _)⟩

theorem readable_ofJson {d : Document} (fits : Json.Fits (maxNesting + 1) (.object d)) :
    (Node.ofJson (.object d)).IsReadable :=
  Node.fits_ofJson Node.inRange_chars _ _ ((Node.nesting_le_of_fits fits).trans (by decide))

theorem stored_keeps {column : String} {op : UpdateOp} {n m : Node} (hn : n.IsStored)
    (h : op.stored column clock n = .ok m) : m.IsStored := by
  obtain ⟨object, k, fits⟩ := hn
  exact ⟨UpdateOp.object_stored object h, _, UpdateOp.fits_stored (fun _ sets => sets.readable) fits h⟩

/-- After any calls on a collection that has just been opened, its documents are objects with readable
literals. -/
theorem stored_after {name : String} {column : Column} {start : Storage} {opened : Int}
    (absent : start.table? name = none)
    (h : (openNamed name column).run (Engine.executor opened) start = (.ok c, st))
    (edits : List (Int × DocumentEdit)) : c.Holds Node.IsStored (c.after edits st) := by
  obtain ⟨rfl, -, t, found, -, columns, empty, -⟩ := openNamed_ok absent h
  have fresh : Holds ⟨name, column⟩ Node.IsStored st :=
    ⟨t, found, columns, fun row mem => by simp [empty] at mem⟩
  exact fresh.after (fun d _ => stored_ofJson d) fun _ _ _ _ _ _ hn stored => stored_keeps hn stored

/-- After any calls on a collection that has just been opened, with no escapes in quoted keys, all
documents are read back exactly if none is nested deeper than reading accepts and none has a number
out of range. They are read back if the updates among the calls reach no deeper, at the ends of their
paths, and add nothing up. -/
theorem find_after {name : String} {column : Column} {start : Storage} {opened : Int}
    (absent : start.table? name = none)
    (h : (openNamed name column).run (Engine.executor opened) start = (.ok c, st))
    (edits : List (Int × DocumentEdit)) (clock : Int) :
    (∀ e ∈ edits, ∀ op ∈ e.2.ops, op.field.Unescaped) →
      ((∃ ds, (c.find none {}).run (Engine.executor clock) (c.after edits st) =
          (.ok ds, c.after edits st)) ↔ c.Holds Node.IsReadable (c.after edits st)) ∧
        ((∀ e ∈ edits, ∀ op ∈ e.2.ops, op.levels ≤ Json.maxReadNesting ∧ op.Exact e.1) →
          c.Holds Node.IsReadable (c.after edits st)) := by
  obtain ⟨rfl, plain, t, found, -, columns, empty, -⟩ := openNamed_ok absent h
  refine fun _ => ⟨?_, ?_⟩
  · exact (stored_after absent h edits).find_ok_iff plain
  · intro low
    have fresh : Holds ⟨name, column⟩ Node.IsReadable st :=
      ⟨t, found, columns, fun row mem => by simp [empty] at mem⟩
    refine fresh.after (fun _ => readable_ofJson) fun e mem op inside n m hn h => ?_
    obtain ⟨levels, exact⟩ := low e mem op inside
    have fits := UpdateOp.fits_stored (fun _ sets => sets.inRange exact) hn h
    rwa [max_eq_left levels] at fits

def calmEdits : List (Int × DocumentEdit) :=
  [(0, .insert noTransforms "0" (.ofJson (.object (user (.string "a") "Ann"))) .raise),
    (1, .update none ⟨.set ⟨"address.city"⟩ (.array [.string "Oslo"]), [.setNow ⟨"seen"⟩]⟩),
    (2, .updateOne none ⟨.remove ⟨"name"⟩, []⟩)]

theorem find_after_calm : ∃ ds, (users.find none {}).run (Engine.executor 3)
    (users.after calmEdits (usersStorage [usersIndex] [])) =
      (.ok ds, users.after calmEdits (usersStorage [usersIndex] [])) := by
  have unescaped : ∀ e ∈ calmEdits, ∀ op ∈ e.2.ops, op.field.Unescaped := by
    simp only [calmEdits, List.forall_mem_cons, DocumentEdit.ops, Update.ops]
    exact ⟨List.forall_mem_nil _, ⟨by decide, by decide, List.forall_mem_nil _⟩,
      ⟨by decide, List.forall_mem_nil _⟩, List.forall_mem_nil _⟩
  obtain ⟨answers, low⟩ := find_after rfl run_openNamed_users calmEdits 3 unescaped
  refine answers.mpr (low ?_)
  simp only [calmEdits, List.forall_mem_cons, DocumentEdit.ops, Update.ops, UpdateOp.Exact]
  refine ⟨?_, ⟨⟨by decide, trivial⟩, ⟨by decide, 1, by decide⟩, ?_⟩, ⟨⟨by decide, trivial⟩, ?_⟩, ?_⟩
  all_goals exact fun _ mem => by cases mem

def brackets : Nat → Json
  | 0 => .array []
  | n + 1 => .array [brackets n]

theorem fits_brackets (n : Nat) : Json.Fits (n + 1) (brackets n) := by
  induction n with
  | zero => exact fun item mem => by cases mem
  | succ n ih => exact fun item mem => List.mem_singleton.mp mem ▸ ih

def deepPath (n : Nat) : FieldPath :=
  ⟨String.ofList ('a' :: (List.replicate n ['.', 'a']).flatten)⟩

def deepEdits : List (Int × DocumentEdit) :=
  [(0, .insert noTransforms "0" (.ofJson (.object (user (.string "a") "Ann"))) .raise),
    (0, .update none ⟨.set (deepPath 27) (brackets 99), []⟩)]

set_option maxRecDepth 20000 in
/-- A value that is encoded with the nesting allowed makes a collection unreadable when it is set far
down in a document. -/
theorem find_after_deep :
    UpdateOp.ofSet noTransforms (deepPath 27) (.ofJson (brackets 99)) =
        .ok (.set (deepPath 27) (brackets 99)) ∧
      ¬∃ ds, (users.find none {}).run (Engine.executor 0)
        (users.after deepEdits (usersStorage [usersIndex] [])) =
          (.ok ds, users.after deepEdits (usersStorage [usersIndex] [])) := by
  constructor
  · have encoded : (Value.ofJson (brackets 99)).toJson noTransforms = .ok (brackets 99) :=
      Value.encodeWithin_ofJson noTransforms ⟨rfl, rfl⟩ ((fits_brackets 99).mono (by decide))
    rw [UpdateOp.ofSet, encoded]
    rfl
  · rw [(stored_after rfl run_openNamed_users deepEdits).find_ok_iff (by decide)]
    rintro ⟨t, found, -, readable⟩
    have deep : (((users.after deepEdits (usersStorage [usersIndex] [])).table? users.name).any
        fun t => t.rows.any fun row => Json.maxReadNesting < row.document.nesting) = true := by
      decide +kernel
    rw [found, Option.any_some, List.any_eq_true] at deep
    obtain ⟨row, mem, deeper⟩ := deep
    exact absurd (readable row mem).nesting_le (Nat.not_le.mpr (of_decide_eq_true deeper))

end Collection
end DocStore
