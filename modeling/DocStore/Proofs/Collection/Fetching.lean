import DocStore.Proofs.Collection.Calls
import DocStore.Proofs.Engine.Uniqueness
import DocStore.Proofs.Statement.Clauses
import DocStore.Proofs.Value.Storable

/-! # Fetching a document by its id

What an insertion answers has an id, and as long as the built-in index keeps the ids of a collection
apart, the document is fetched by that id, unless the id is null or holds a float: a comparison with
null selects nothing, and a float need not be read from its text as the same double. -/
set_option autoImplicit false

namespace DocStore

open Engine (Storage Table Row StoredIndex Scalar Datum)

/-! ## Members -/

namespace Json

theorem lookup?_insertMember (key : String) (value : Json) (members : List (String × Json)) :
    lookup? key (insertMember key value members) = some value := by
  induction members with
  | nil => simp [insertMember, lookup?]
  | cons m members ih =>
    rw [insertMember]
    split_ifs with below same
    · simp [lookup?]
    · simp [lookup?]
    · rw [lookup?, List.find?_cons_of_neg (by simpa using Ne.symm same)]
      exact ih

theorem exists_lookup? {key : String} {members : List (String × Json)}
    (h : members.any (fun m => m.1 == key) = true) : ∃ value, lookup? key members = some value := by
  obtain ⟨m, mem, same⟩ := List.any_eq_true.mp h
  obtain ⟨found, hfound⟩ := Option.isSome_iff_exists.mp
    (List.find?_isSome (p := fun m : String × Json => m.1 == key) |>.mpr ⟨m, mem, same⟩)
  exact ⟨found.2, by rw [lookup?, hfound]; rfl⟩

theorem mem_of_lookup? {key : String} {value : Json} {members : List (String × Json)}
    (h : lookup? key members = some value) : ∃ m ∈ members, m.2 = value := by
  obtain ⟨m, found, rfl⟩ := Option.map_eq_some_iff.mp h
  exact ⟨m, List.mem_of_find?_eq_some found, rfl⟩

end Json

theorem Node.member?_ofMembers (key : String) (members : List (String × Json)) :
    member? key (ofMembers members) = (Json.lookup? key members).map ofJson := by
  induction members with
  | nil => rfl
  | cons m members ih =>
    rw [member?, Json.lookup?] at ih
    rw [ofMembers, member?, Json.lookup?, List.find?_cons, List.find?_cons]
    cases m.1 == key with
    | true => rfl
    | false => exact ih

namespace Document

/-- The document that a value makes is canonical and has an id. -/
theorem ofValue_ok {transforms : Transforms} {freshId : String} {v : Value} {d : Document}
    (h : ofValue transforms freshId v = .ok d) :
    Json.Fits (maxNesting + 1) (.object d) ∧ ∃ id, d.id? = some id := by
  obtain ⟨j, encoded, h⟩ := Outcome.bind_eq_ok.mp h
  have fits : Json.Fits (maxNesting + 1) j := Value.fits_encodeWithin transforms _ {} v j encoded
  cases j with
  | object members =>
    dsimp only at h
    split at h
    · rename_i named
      cases h
      exact ⟨fits, Json.exists_lookup? named⟩
    · cases h
      refine ⟨⟨fits.1.insertMember _ _, fun m mem => ?_⟩, _, Json.lookup?_insertMember ..⟩
      rcases Json.mem_of_mem_insertMember mem with rfl | mem
      · trivial
      · exact fits.2 m mem
  | null | bool b | number n | string s | array items => cases h

/-- A canonical document that has an id is the document that it makes as a value. -/
theorem ofValue_ofJson {transforms : Transforms} {freshId : String} {d : Document} {id : Json}
    (fits : Json.Fits (maxNesting + 1) (.object d)) (hid : d.id? = some id) :
    ofValue transforms freshId (.ofJson (.object d)) = .ok d := by
  have encoded : (Value.ofJson (.object d)).toJson transforms = .ok (.object d) :=
    Value.encodeWithin_ofJson transforms ⟨rfl, rfl⟩ fits
  obtain ⟨m, found, -⟩ := Option.map_eq_some_iff.mp hid
  have named : (d.any fun m => m.1 == idField) = true :=
    List.any_eq_true.mpr ⟨m, List.mem_of_find?_eq_some found,
      List.find?_some (p := fun m : String × Json => m.1 == idField) found⟩
  rw [ofValue, encoded]
  exact if_pos named

theorem fits_of_id? {n : Nat} {d : Document} {id : Json} (h : Json.Fits (n + 1) (.object d))
    (hid : d.id? = some id) : Json.Fits n id := by
  obtain ⟨m, mem, rfl⟩ := Json.mem_of_lookup? hid
  exact h.2 m mem

end Document

/-! ## Fields of rows -/

namespace Engine

/-- The id that a stored document is found by is what the engine reads out of its text. -/
theorem fieldOf_id {d : Document} {id : Json} (hid : d.id? = some id) :
    fieldOf ⟨Document.idField⟩ (.ofJson (.object d)) =
      .ok (Datum.ofNode (.ofJson id)).toScalar := by
  have path : pathSteps (.scalar (.text (FieldPath.jsonPath ⟨Document.idField⟩))) =
      [.key Document.idField] := by decide
  have found : Node.member? Document.idField (Node.ofMembers d) = some (.ofJson id) := by
    rw [Node.member?_ofMembers, ← Document.id?, hid, Option.map_some]
  have part : Node.follow [.key Document.idField] (.ofJson (.object d)) =
      .ok (some (.ofJson id)) := by
    rw [Node.ofJson, Node.follow, found]
    rfl
  rw [fieldOf, jsonExtract, Datum.document?, Outcome.ok_bind, path]
  dsimp only
  rw [part]
  rfl

/-! ## Selecting by id -/

/-- Whether an index keeps the ids of documents apart. -/
def Table.IsIdIndex (t : Table) (ix : StoredIndex) : Prop :=
  ix.isUnique = true ∧ ix.descriptor.field = ⟨Document.idField⟩ ∧ t.column? ix.column = some .document

theorem isNull_ofJson {j : Json} (h : j ≠ .null) : (Scalar.ofJson j).isNull = false := by
  cases j with
  | null => exact absurd rfl h
  | bool b | number n | string s | array items | object members => rfl

/-- A value equals the given one if they collide as keys of a unique index. -/
theorem answer?_eq {a b : Scalar} (h : b.isNull = false) :
    (Sql.CompareOp.eq.answer? a b == some true) = b.collides a := by
  rw [Sql.CompareOp.answer?, Scalar.collides, h, Bool.or_false, Bool.not_false, Bool.true_and,
    Scalar.compare_beq_eq_comm]
  cases a with
  | null =>
    cases b with
    | null => cases h
    | number q => rfl
    | text s => rfl
  | number q => simp [Sql.CompareOp.accepts, Scalar.isNull]
  | text s => simp [Sql.CompareOp.accepts, Scalar.isNull]

variable {st : Storage} {t : Table} {kept : List Row} {row : Row} {id : Json}

def idCondition (column : String) (id : Json) : Sql.Condition :=
  .compare .eq (.field column ⟨Document.idField⟩) (.bound id)

/-- A search for an id is answered from an index on ids. -/
theorem viewFor_idCondition {column : String} (hc : t.column? column = some .document)
    {ix : StoredIndex} (mem : ix ∈ t.indexes) (own : t.IsIdIndex ix) :
    t.viewFor (idCondition column id) = .json := by
  obtain ⟨-, field, document⟩ := own
  have answers : ix.answers t (idCondition column id) = true := by
    change (t.column? column == t.column? ix.column &&
      FieldPath.jsonPath ⟨Document.idField⟩ == ix.descriptor.field.jsonPath) = true
    rw [hc, document, field, beq_self_eq_true, beq_self_eq_true]
    rfl
  exact if_pos (List.any_eq_true.mpr ⟨ix, mem, answers⟩)

/-- If the last row has an id other than null and no other row has one that collides with it, then
the search for the id finds the last row in the index. -/
theorem selected_id {column : String} (hc : t.column? column = some .document) {ix : StoredIndex}
    (mem : ix ∈ t.indexes) (own : t.IsIdIndex ix) (rows : t.rows = kept ++ [row]) (hid : id ≠ .null)
    (last : fieldOf ⟨Document.idField⟩ row.document = .ok (.ofJson id))
    (others : ∀ r ∈ kept, ∃ a, fieldOf ⟨Document.idField⟩ r.document = .ok a ∧
      (Scalar.ofJson id).collides a = false) (clock : Int) :
    t.selected clock (some (idCondition column id)) (some 1) = .ok [row] := by
  have some_id := isNull_ofJson hid
  have view : t.viewFor (idCondition column id) = .json := viewFor_idCondition hc mem own
  have test (r : Row) {a : Scalar} (h : fieldOf ⟨Document.idField⟩ r.document = .ok a) :
      t.selects clock (some (idCondition column id)) r = .ok ((Scalar.ofJson id).collides a) := by
    dsimp only [Table.selects]
    rw [view, idCondition, Sql.Condition.holds, evalScalar_field hc, h, Outcome.ok_bind,
      ← answer?_eq some_id]
    rfl
  have exist : t.checkColumns (Table.filterColumns (some (idCondition column id))) = .ok () := by
    simp [Table.checkColumns, Table.filterColumns, idCondition, Sql.Condition.columns,
      Sql.Expr.field, Sql.Expr.columns, hc]
  have same : (Scalar.ofJson id).collides (.ofJson id) = true := by
    rw [Scalar.collides, some_id, Scalar.compare_self]
    rfl
  have found : Table.filterRows (t.selects clock (some (idCondition column id))) t.rows =
      .ok [row] := by
    have passes := (test row last).trans (congrArg _ same)
    refine Table.filterRows_eq_cons.mpr ⟨kept, [], rows, fun r mem => ?_, passes, rfl⟩
    obtain ⟨a, read, apart⟩ := others r mem
    exact (test r read).trans (congrArg _ apart)
  exact Table.selected_limit (Outcome.bind_eq_ok.mpr ⟨(), exist, found⟩) (some 1)

theorem findDocuments_id {table column : String} (found : st.table? table = some t)
    (hc : t.column? column = some .document) (clock : Int)
    (selected : t.selected clock (some (idCondition column id)) (some 1) = .ok [row]) :
    findDocuments st clock table column
        (some (.compare .eq (.field column ⟨Document.idField⟩) .placeholder)) { limit := some 1 }
        [id] = .ok { rows := [[.string row.document.text]] } := by
  have bound : bindFilter (some (.compare .eq (.field column ⟨Document.idField⟩) .placeholder)) [id] =
      .ok (some (idCondition column id)) := rfl
  have reach : Table.reach { limit := some 1 } = some 1 := rfl
  rw [findDocuments, Storage.tableOf_eq_ok.mpr found, Outcome.ok_bind, columnOf_eq_ok.mpr hc,
    Outcome.ok_bind, bound, Outcome.ok_bind, reach, selected]
  rfl

end Engine

/-! ## Texts without NUL -/

namespace Statement

variable {table column : String} {filter : Option Sql.Condition}

theorem text_insert (onConflict : OnConflict) (returning : Bool) :
    (insert table column onConflict returning).text =
      onConflict.verb ++ " INTO " ++ Sql.quoteIdentifier table ++ " (" ++ column ++
        ") VALUES (json(?))" ++ (if returning then " RETURNING " ++ column else "") := rfl

theorem clean_names_of_insert {onConflict : OnConflict} {returning : Bool}
    (h : '\x00' ∉ (insert table column onConflict returning).text.toList) :
    '\x00' ∉ (Sql.quoteIdentifier table).toList ∧ '\x00' ∉ column.toList := by
  rw [text_insert] at h
  simp only [String.toList_append, List.mem_append, not_or] at h
  obtain ⟨⟨⟨⟨⟨-, table_clean⟩, -⟩, column_clean⟩, -⟩, -⟩ := h
  exact ⟨table_clean, column_clean⟩

theorem clean_insert {onConflict : OnConflict} {returning : Bool}
    (ht : '\x00' ∉ (Sql.quoteIdentifier table).toList) (hc : '\x00' ∉ column.toList) :
    '\x00' ∉ (insert table column onConflict returning).text.toList := by
  have verb : '\x00' ∉ onConflict.verb.toList := by cases onConflict <;> decide
  have into : '\x00' ∉ " INTO ".toList := by decide
  have «open» : '\x00' ∉ " (".toList := by decide
  have values : '\x00' ∉ ") VALUES (json(?))".toList := by decide
  have answer : '\x00' ∉ (if returning then " RETURNING " ++ column else "").toList := by
    split
    · simp [hc]
    · simp
  rw [text_insert]
  simp only [String.toList_append, List.mem_append, not_or]
  exact ⟨⟨⟨⟨⟨⟨verb, into⟩, ht⟩, «open»⟩, hc⟩, values⟩, answer⟩

theorem clean_find {options : FindOptions} (ht : '\x00' ∉ (Sql.quoteIdentifier table).toList)
    (hc : '\x00' ∉ column.toList) (hf : '\x00' ∉ (whereText filter).toList)
    (ho : options.orderBy = none) (hp : '\x00' ∉ (pagingText options).toList) :
    '\x00' ∉ (find table column filter options).text.toList := by
  have select : '\x00' ∉ "SELECT ".toList := by decide
  have «from» : '\x00' ∉ " FROM ".toList := by decide
  have unordered : orderText column options = "" := by rw [orderText, ho]
  rw [text_find, selectText, unordered, String.append_empty]
  simp only [String.toList_append, List.mem_append, not_or]
  exact ⟨⟨⟨⟨⟨select, hc⟩, «from»⟩, ht⟩, hf⟩, hp⟩

end Statement

/-! ## Inserting and fetching -/

namespace Collection

variable {c : Collection} {st st' : Storage} {clock : Int} {transforms : Transforms}
  {freshId : String} {v : Value} {onConflict : OnConflict} {d : Document} {id : Json}

theorem column?_of_eq {t : Table} {name : String} (h : t.column = name) :
    t.column? name = some .document := by
  have own : t.ownColumn? name = some .document := by
    rw [Table.ownColumn?, h]
    exact if_pos (Engine.sameName_iff.mpr rfl)
  rw [Table.column?, own, Option.orElse_some]

/-- Whether the table of a collection has the index that keeps ids apart. -/
def KeepsIds (c : Collection) (st : Storage) : Prop :=
  ∃ t, st.table? c.name = some t ∧ ∃ ix ∈ t.indexes, t.IsIdIndex ix

theorem jsonOf_document (h : Json.Fits (maxNesting + 1) (.object d)) :
    Engine.jsonOf (.scalar (.ofJson (.string d.text))) = .ok (.json (.ofJson (.object d))) := by
  have shallow : (Node.ofJson (.object d)).nesting ≤ Datum.maxDocumentNesting :=
    (Node.nesting_le_of_fits h).trans (by decide)
  exact (Engine.jsonOf_text (.object d)).trans (if_pos shallow)

/-- An insertion that is carried out leaves the storage or adds the document to the table. -/
theorem perform_insert_ok {returning : Bool} {o : Engine.Outcome}
    (fits : Json.Fits (maxNesting + 1) (.object d))
    (h : Engine.perform clock (.insert c.name c.column.name onConflict returning)
      [.string d.text] st = .ok o) :
    ∃ t, st.table? c.name = some t ∧ t.column? c.column.name = some .document ∧
      (t.insert onConflict (.ofJson (.object d)) = .ok none ∧ o = .silent st ∨
        ∃ t', t.insert onConflict (.ofJson (.object d)) = .ok (some t') ∧
          o = { output := { rows := if returning then [[.string d.text]] else [], affected := 1 },
                storage := st.replaceTable t' }) := by
  obtain ⟨t, p, value, document, found, column, sole, read, stored, inserted⟩ :=
    Engine.insertDocument_ok (Engine.perform_insert h)
  obtain rfl : Json.string d.text = p := (List.cons.inj sole).1
  obtain rfl : .json (.ofJson (.object d)) = value :=
    Except.ok.inj ((jsonOf_document fits).symm.trans read)
  obtain rfl : .ofJson (.object d) = document := Except.ok.inj stored
  exact ⟨t, found, column, inserted⟩

theorem insert_ok (hc : onConflict ≠ .ignore)
    (h : (c.insert transforms freshId v onConflict).run (Engine.executor clock) st = (.ok d, st')) :
    Document.ofValue transforms freshId v = .ok d ∧
      '\x00' ∉ (Statement.insert c.name c.column.name onConflict true).text.toList ∧
      ∃ t t', st.table? c.name = some t ∧ t.column? c.column.name = some .document ∧
        t.insert onConflict (.ofJson (.object d)) = .ok (some t') ∧ st' = st.replaceTable t' := by
  obtain ⟨made, between, hmade, h⟩ := Program.of_run_bind_ok h
  rw [Program.run_ofExcept] at hmade
  obtain ⟨made_ok, rfl⟩ := Prod.mk.inj hmade
  obtain ⟨out, between, sent, h⟩ := Program.of_run_bind_ok h
  obtain ⟨o, performed, rfl, rfl⟩ := Engine.run_send_ok sent
  have fits := (Document.ofValue_ok made_ok).1
  have clean := Engine.clean_of_perform performed
  obtain ⟨t, found, column, ⟨skipped, -⟩ | ⟨t', inserted, rfl⟩⟩ := perform_insert_ok fits performed
  · exact absurd skipped (Table.insert_ne_none hc _)
  · change (Program.ofExcept (Document.ofCell (some (.string made.text)))).run _ _ = _ at h
    rw [Document.ofCell_text fits (by decide), Program.run_ofExcept] at h
    obtain ⟨same, rfl⟩ := Prod.mk.inj h
    cases same
    exact ⟨made_ok, clean, t, t', found, column, inserted, rfl⟩

theorem run_insert {t t' : Table} (made : Document.ofValue transforms freshId v = .ok d)
    (clean : '\x00' ∉ (Statement.insert c.name c.column.name onConflict true).text.toList)
    (found : st.table? c.name = some t) (column : t.column? c.column.name = some .document)
    (inserted : t.insert onConflict (.ofJson (.object d)) = .ok (some t')) :
    (c.insert transforms freshId v onConflict).run (Engine.executor clock) st =
      (.ok d, st.replaceTable t') := by
  have fits := (Document.ofValue_ok made).1
  have chosen : (Program.ofExcept (Document.ofValue transforms freshId v)).run
      (Engine.executor clock) st = (.ok d, st) := by
    rw [made, Program.run_ofExcept]
  have stored : Engine.insertDocument st c.name c.column.name onConflict true [.string d.text] =
      .ok ⟨⟨[[.string d.text]], 1⟩, st.replaceTable t'⟩ := by
    rw [Engine.insertDocument_eq found column (jsonOf_document fits) rfl, inserted]
    rfl
  have performed : Engine.perform clock (.insert c.name c.column.name onConflict true)
      [.string d.text] st = .ok _ := Engine.perform_insert_of_clean clean stored
  rw [insert]
  refine (Program.run_bind_ok chosen).trans
    ((Program.run_bind_ok (Engine.run_send_performed performed)).trans ?_)
  change (Program.ofExcept (Document.ofCell (some (.string d.text)))).run _ _ = _
  rw [Document.ofCell_text fits (by decide), Program.run_ofExcept]

theorem hasId_ofJson {n : Nat} (others : Transforms) (h : Json.Fits n id)
    (shallow : n ≤ maxNesting + 1) :
    hasId others (.ofJson id) = .ok (.compare (.scalar ⟨Document.idField⟩ .eq id)) := by
  have encoded : (Value.ofJson id).toJson others = .ok id :=
    Value.encodeWithin_ofJson others ⟨rfl, rfl⟩ (h.mono shallow)
  rw [hasId, Comparison.ofValue, encoded]
  rfl

/-- Where ids are kept apart, no row has an id that collides with that of the row after it. -/
theorem apart_of_last {kept : List Row} {row : Row} {k : Scalar}
    (apart : ((kept ++ [row]).map Row.document).Pairwise (Table.ApartIn ⟨Document.idField⟩))
    (last : Engine.fieldOf ⟨Document.idField⟩ row.document = .ok k) :
    ∀ r ∈ kept, ∃ a, Engine.fieldOf ⟨Document.idField⟩ r.document = .ok a ∧
      k.collides a = false := by
  intro r mem
  rw [List.map_append] at apart
  obtain ⟨a, b, ha, hb, differ⟩ := (List.pairwise_append.mp apart).2.2 _ (List.mem_map_of_mem mem)
    row.document (List.mem_singleton.mpr rfl)
  obtain rfl : k = b := Except.ok.inj (last.symm.trans hb)
  exact ⟨a, ha, (Scalar.collides_comm ..).trans differ⟩

/-- An id is fetched as the document in the first row that its condition selects. -/
theorem run_get {table : Table} {row : Row} {n : Nat} (others : Transforms)
    (found : st.table? c.name = some table)
    (column : table.column? c.column.name = some .document)
    (clean : '\x00' ∉ (Sql.quoteIdentifier c.name).toList ∧ '\x00' ∉ c.column.name.toList)
    (small : Json.Fits n id) (shallow : n ≤ maxNesting + 1)
    (selected : table.selected clock (some (Engine.idCondition c.column.name id)) (some 1) =
      .ok [row])
    (read : Document.ofCell (some (.string row.document.text)) = .ok d) :
    (c.get others (.ofJson id)).run (Engine.executor clock) st = (.ok (some d), st) := by
  let p : Predicate := .compare (.scalar ⟨Document.idField⟩ .eq id)
  have where_clean : '\x00' ∉ (Statement.whereText (c.conditionOf (some p))).toList := by
    have text : Statement.whereText (c.conditionOf (some p)) =
        " WHERE " ++ ((Sql.Expr.field c.column.name ⟨Document.idField⟩).text ++ " = ?") := by
      change " WHERE " ++ (_ ++ " " ++ Sql.CompareOp.eq.text ++ " " ++ "?") = _
      rw [String.append_assoc, String.append_assoc, String.append_assoc]
      rfl
    have path : '\x00' ∉ (Sql.quoteLiteral (FieldPath.jsonPath ⟨Document.idField⟩)).toList := by
      decide
    rw [text, Sql.text_field]
    simp only [String.toList_append, List.mem_append, not_or, clean.2, path]
    decide
  have searched : (Engine.executor clock).execute
      (.find c.name c.column.name (c.conditionOf (some p)) { limit := some 1 }) [id] st =
        (.ok { rows := [[.string row.document.text]] }, st) :=
    Engine.execute_find (Statement.clean_find clean.1 clean.2 where_clean rfl (by decide))
      (Engine.findDocuments_id found column clock selected)
  have answered : (c.find (some p) { limit := some 1 }).run (Engine.executor clock) st =
      (.ok [d], st) := by
    rw [find]
    refine (Program.run_bind_ok (Program.run_send_ok searched)).trans ?_
    rw [Program.run_ofExcept, List.mapM_cons, List.head?_cons, read]
    rfl
  have chosen : (Program.ofExcept (hasId others (.ofJson id))).run (Engine.executor clock) st =
      (.ok p, st) := by
    rw [hasId_ofJson others small shallow, Program.run_ofExcept]
  exact (Program.run_bind_ok chosen).trans (Program.run_bind_ok answered)

/-- The document that an insertion answers has an id. If the index on ids is in place, and the id is
not null and holds no float, the document is fetched by its id, with the same members, and fetching
changes nothing. A float need not come back from its text as the same double, neither where ids are
compared nor where documents are read. -/
theorem get_inserted (reachable : st.Reachable) (hc : onConflict ≠ .ignore)
    (h : (c.insert transforms freshId v onConflict).run (Engine.executor clock) st = (.ok d, st')) :
    ∃ id, d.id? = some id ∧ (c.KeepsIds st → id ≠ .null → id.FloatFree →
      ∀ (others : Transforms) (clock' : Int),
        (c.get others (.ofJson id)).run (Engine.executor clock') st' = (.ok (some d), st')) := by
  obtain ⟨made, clean, t, t', found, column, inserted, rfl⟩ := insert_ok hc h
  obtain ⟨fits, id, hid⟩ := Document.ofValue_ok made
  refine ⟨id, hid, fun keeps not_null free others clock' => ?_⟩
  obtain ⟨t₀, found₀, ix, mem, idIndex⟩ := keeps
  obtain ⟨unique, field, own⟩ := idIndex
  obtain rfl : t = t₀ := Option.some.inj (found.symm.trans found₀)
  obtain ⟨kept, rfl, -⟩ := Table.insert_some inserted
  let row := t.newRow (.ofJson (.object d))
  let after : Table := { t with rows := kept ++ [row] }
  have found' : (st.replaceTable after).table? c.name = some after :=
    Storage.table?_replaceTable_self found rfl
  -- The document is the last one, and no other document of the new table has its id.
  have reached := reachable.run (c.insert transforms freshId v onConflict) clock
  rw [h] at reached
  have mem' := Storage.mem_of_table? found'
  have apart := (reached.separated _ mem').apartIn (reached.keyed _ mem') mem unique own
  rw [field] at apart
  have last : Engine.fieldOf ⟨Document.idField⟩ row.document = .ok (.ofJson id) :=
    (Engine.fieldOf_id hid).trans (congrArg _ (Engine.toScalar_ofNode_ofJson free.ne_float))
  have selected := Engine.selected_id (t := after) column mem ⟨unique, field, own⟩ rfl not_null last
    (apart_of_last apart last) clock'
  exact run_get others found' column
    (Statement.clean_names_of_insert clean) (Document.fits_of_id? fits hid) (by decide) selected
    (Document.ofCell_text fits (by decide))

/-! ## A collection of users -/

def users : Collection := ⟨"users", .standard⟩

/-- The index that opening the collection creates. -/
def usersIndex : StoredIndex :=
  ⟨users.qualified idIndex, "data", (users.qualified idIndex).catalogText "users" "data"⟩

def usersTable (indexes : List StoredIndex) (documents : List Document) : Table where
  name := "users"
  column := "data"
  rows := documents.mapIdx fun i d => ⟨i + 1, .ofJson (.object d)⟩
  indexes := indexes

def usersStorage (indexes : List StoredIndex) (documents : List Document) : Storage :=
  { tables := [usersTable indexes documents] }

set_option maxRecDepth 20000 in
theorem run_openNamed_users : (openNamed "users" .standard).run (Engine.executor 0) {} =
    (.ok users, usersStorage [usersIndex] []) := by
  with_unfolding_all rfl

theorem reachable_users :
    (usersStorage [usersIndex] []).ReachableBy fun s _ => s.WritesUnescaped := by
  have sends : (openNamed "users" .standard).Sends fun s _ => s.WritesUnescaped :=
    sends_openNamed trivial fun _ => trivial
  have opened := Storage.ReachableBy.run .empty sends 0
  rw [run_openNamed_users] at opened
  exact opened

set_option maxRecDepth 20000 in
/-- The index on ids can be dropped by its name. -/
theorem reachable_unindexed :
    (usersStorage [] []).ReachableBy fun s _ => s.WritesUnescaped := by
  have sends : (dropIndexByName usersIndex.name).Sends fun s _ => s.WritesUnescaped :=
    sends_dropByName trivial
  have dropped := reachable_users.run sends 0
  have left : ((dropIndexByName usersIndex.name).run (Engine.executor 0)
      (usersStorage [usersIndex] [])).2 = usersStorage [] [] := by
    with_unfolding_all rfl
  rw [left] at dropped
  exact dropped

section Users

variable (indexes : List StoredIndex) (documents more : List Document)

theorem table?_users :
    (usersStorage indexes documents).table? users.name = some (usersTable indexes documents) := by
  have same : Engine.sameName "users" "users" = true := by decide
  exact List.find?_cons_of_pos same

theorem column?_users :
    (usersTable indexes documents).column? users.column.name = some .document := by
  have same : Engine.sameName "data" "data" = true := by decide
  have own : (usersTable indexes documents).ownColumn? "data" = some .document := if_pos same
  change ((usersTable indexes documents).ownColumn? "data").orElse _ = _
  rw [own, Option.orElse_some]

theorem replaceTable_users : (usersStorage indexes documents).replaceTable (usersTable indexes more) =
    usersStorage indexes more := by
  have same : Engine.sameName "users" "users" = true := by decide
  have kept : (if Engine.sameName "users" "users" then usersTable indexes more
    else usersTable indexes documents) = usersTable indexes more := if_pos same
  exact congrArg (fun t : Table => Storage.mk [t]) kept

theorem keepsIds_users : users.KeepsIds (usersStorage [usersIndex] documents) :=
  ⟨_, table?_users .., usersIndex, List.mem_singleton.mpr rfl, rfl, rfl, column?_users ..⟩

variable {indexes documents more} {d : Document}
  (made : Document.ofValue noTransforms "0" (.ofJson (.object d)) = .ok d)
  (taken : (usersTable indexes documents).insert .raise (.ofJson (.object d)) =
    .ok (some (usersTable indexes more)))
include made taken

theorem run_insert_users :
    (users.insert noTransforms "0" (.ofJson (.object d)) .raise).run (Engine.executor 0)
        (usersStorage indexes documents) = (.ok d, usersStorage indexes more) := by
  have clean : '\x00' ∉ (Statement.insert "users" "data" .raise true).text.toList := by decide
  rw [← replaceTable_users indexes documents more]
  exact run_insert made clean (table?_users ..) (column?_users ..) taken

theorem reachable_insert_users
    (reachable : (usersStorage indexes documents).ReachableBy fun s _ => s.WritesUnescaped) :
    (usersStorage indexes more).ReachableBy fun s _ => s.WritesUnescaped := by
  have sends : (users.insert noTransforms "0" (.ofJson (.object d)) .raise).Sends
      fun s _ => s.WritesUnescaped :=
    (sends_insert ..).mono fun _ _ sent => sent.writesUnescaped (List.forall_mem_nil _)
  have inserted := reachable.run sends 0
  rwa [run_insert_users made taken] at inserted

end Users

def user (id : Json) (name : String) : Document := [("id", id), ("name", .string name)]

section User

variable {id : Json} (h : Json.Fits 1 id) (name : String)
include h

theorem fits_user : Json.Fits 2 (.object (user id name)) := by
  have ordered : "id" < "name" := by decide
  refine ⟨List.pairwise_pair.mpr ordered, List.forall_mem_cons.mpr ⟨h, ?_⟩⟩
  exact fun m mem => List.mem_singleton.mp mem ▸ trivial

theorem ofValue_user (freshId : String) :
    Document.ofValue noTransforms freshId (.ofJson (.object (user id name))) =
      .ok (user id name) :=
  Document.ofValue_ofJson ((fits_user h name).mono (by decide)) rfl

end User

theorem insert_first_user {id : Json} (name : String) :
    (usersTable [usersIndex] []).insert .raise (.ofJson (.object (user id name))) =
      .ok (some (usersTable [usersIndex] [user id name])) := by
  let row : Row := ⟨1, .ofJson (.object (user id name))⟩
  have key : usersIndex.keyOf (usersTable [usersIndex] []) row = .ok _ :=
    (Engine.evalScalar_field (column?_users ..) 0 row _).trans (Engine.fieldOf_id rfl)
  have accepted : (usersTable [usersIndex] []).accept .raise row [usersIndex] [] =
      .ok (some []) := by
    rw [Table.accept, key]
    rfl
  exact Outcome.bind_eq_ok.mpr ⟨some [], accepted, rfl⟩

theorem get_inserted_user :
    (users.insert noTransforms "0" (.ofJson (.object (user (.string "a") "Ann"))) .raise).run
        (Engine.executor 0) (usersStorage [usersIndex] []) =
      (.ok (user (.string "a") "Ann"), usersStorage [usersIndex] [user (.string "a") "Ann"]) ∧
    (users.get noTransforms (.ofJson (.string "a"))).run (Engine.executor 0)
        (usersStorage [usersIndex] [user (.string "a") "Ann"]) =
      (.ok (some (user (.string "a") "Ann")),
        usersStorage [usersIndex] [user (.string "a") "Ann"]) := by
  have scalar : Json.Fits 1 (.string "a") := trivial
  have inserted := run_insert_users (ofValue_user scalar "Ann" "0") (insert_first_user "Ann")
  obtain ⟨id, hid, fetched⟩ := get_inserted reachable_users.reachable (by decide) inserted
  obtain rfl : Json.string "a" = id := Option.some.inj hid
  exact ⟨inserted, fetched (keepsIds_users []) (by simp) (Json.floatFree_string "a") noTransforms 0⟩

/-- The double 4.366119984033904. The engine reads this text as the double below. -/
def drifting : Json :=
  .number (.float (.ofDecimal false ⟨4366119984033904, -15⟩) (by decide +kernel))

set_option maxRecDepth 20000 in
theorem get_drifting :
    (users.get noTransforms (.ofJson drifting)).run (Engine.executor 0)
        (usersStorage [usersIndex] [user drifting "Ann"]) =
      (.ok none, usersStorage [usersIndex] [user drifting "Ann"]) := by
  have answer : ((users.get noTransforms (.ofJson drifting)).run (Engine.executor 0)
      (usersStorage [usersIndex] [user drifting "Ann"])).1.toOption.map Option.isNone =
        some true := by
    decide +kernel
  obtain ⟨found, answered, none⟩ := Option.map_eq_some_iff.mp answer
  obtain rfl := Option.isNone_iff_eq_none.mp none
  have reads : (users.get noTransforms (.ofJson drifting)).Sends fun s _ => Engine.Reads s :=
    sends_get (fun _ _ _ => trivial) ..
  exact (Outcome.eq_of_toOption answered).trans (congrArg _ (Engine.run_reads reads))

/-- A document is not fetched by the id null, although it is inserted with it, nor by a float that
the engine misreads. Without the index, an id may fetch another document that has it. -/
theorem get_inserted_exceptions :
    (∃ st st', Storage.Reachable st ∧ users.KeepsIds st ∧
      (users.insert noTransforms "0" (.ofJson (.object (user .null "Ann"))) .raise).run
        (Engine.executor 0) st = (.ok (user .null "Ann"), st') ∧
      (users.get noTransforms (.ofJson .null)).run (Engine.executor 0) st' = (.ok none, st')) ∧
    (∃ st st', Storage.Reachable st ∧ users.KeepsIds st ∧
      (users.insert noTransforms "0" (.ofJson (.object (user drifting "Ann"))) .raise).run
        (Engine.executor 0) st = (.ok (user drifting "Ann"), st') ∧
      (users.get noTransforms (.ofJson drifting)).run (Engine.executor 0) st' = (.ok none, st')) ∧
    ∃ st st', Storage.Reachable st ∧
      (users.insert noTransforms "0" (.ofJson (.object (user (.string "a") "Bob"))) .raise).run
        (Engine.executor 0) st = (.ok (user (.string "a") "Bob"), st') ∧
      (users.get noTransforms (.ofJson (.string "a"))).run (Engine.executor 0) st' =
        (.ok (some (user (.string "a") "Ann")), st') := by
  refine ⟨?_, ?_, ?_⟩
  · have scalar : Json.Fits 1 .null := trivial
    have inserted := run_insert_users (ofValue_user scalar "Ann" "0") (insert_first_user "Ann")
    have fetched : (users.get noTransforms (.ofJson .null)).run (Engine.executor 0)
        (usersStorage [usersIndex] [user .null "Ann"]) =
          (.ok none, usersStorage [usersIndex] [user .null "Ann"]) := by
      with_unfolding_all rfl
    exact ⟨_, _, reachable_users.reachable, keepsIds_users [], inserted, fetched⟩
  · have scalar : Json.Fits 1 drifting := trivial
    have inserted := run_insert_users (ofValue_user scalar "Ann" "0") (insert_first_user "Ann")
    exact ⟨_, _, reachable_users.reachable, keepsIds_users [], inserted, get_drifting⟩
  · have scalar : Json.Fits 1 (.string "a") := trivial
    let ann := user (.string "a") "Ann"
    let bob := user (.string "a") "Bob"
    have first : (usersTable [] []).insert .raise (.ofJson (.object ann)) =
        .ok (some (usersTable [] [ann])) := rfl
    have second : (usersTable [] [ann]).insert .raise (.ofJson (.object bob)) =
        .ok (some (usersTable [] [ann, bob])) := rfl
    have reachable := reachable_insert_users (ofValue_user scalar "Ann" "0") first
      reachable_unindexed
    have inserted := run_insert_users (ofValue_user scalar "Bob" "0") second
    have fits : Json.Fits (maxNesting + 1) (.object ann) :=
      (fits_user scalar "Ann").mono (by decide)
    have selected : (usersTable [] [user (.string "a") "Ann", user (.string "a") "Bob"]).selected 0
        (some (Engine.idCondition users.column.name (.string "a"))) (some 1) =
          .ok [⟨1, .ofJson (.object ann)⟩] := by
      with_unfolding_all rfl
    have fetched := run_get (c := users) noTransforms (table?_users _ _) (column?_users _ _)
      (by decide) (Document.fits_of_id? fits rfl) (by decide) selected
      (Document.ofCell_text fits (by decide))
    exact ⟨_, _, reachable.reachable, inserted, fetched⟩

end Collection
end DocStore
