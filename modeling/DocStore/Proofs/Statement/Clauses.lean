import DocStore.Collection
import DocStore.Proofs.Query.Predicate
import DocStore.Proofs.Query.Update
import DocStore.Proofs.Text.Digits
import DocStore.Statement.Script

/-! # Statements about documents, clause by clause

Finding, counting, changing and deleting documents send one statement each. Its text is put together
from the fragment of the update, if there is one, the fragment of the filter, if there is one, and
fixed parts around them; its parameters are those of the two fragments in the same order. So binding
the parameters of the statement binds each fragment to its own parameters
(`DocumentRequest.sends_clauses`). -/
set_option autoImplicit false

namespace DocStore

open Sql (Column Expr Fills Fragment countPlaceholders)

/-! ## Texts of statements -/

namespace Statement

variable (table column : String) (filter : Option Sql.Condition)

theorem text_find (options : FindOptions) : (find table column filter options).text =
    selectText column table filter ++ orderText column options ++ pagingText options := rfl

theorem text_count : (count table filter).text = selectText "COUNT(*)" table filter := rfl

theorem text_update (value : Expr) (onlyFirst : Bool) :
    (update table column value filter onlyFirst).text =
      "UPDATE " ++ Sql.quoteIdentifier table ++ " SET " ++ column ++ " = " ++ value.text ++
        targetText table filter onlyFirst := rfl

theorem text_delete (onlyFirst : Bool) : (delete table filter onlyFirst).text =
    "DELETE FROM " ++ Sql.quoteIdentifier table ++ targetText table filter onlyFirst := rfl

theorem targetText_all : targetText table filter false = whereText filter := rfl

theorem targetText_first : targetText table filter true =
    " WHERE rowid IN (SELECT rowid FROM " ++ Sql.quoteIdentifier table ++ whereText filter ++
      " ORDER BY rowid LIMIT 1)" := by
  simp only [targetText, if_true, firstRowText, selectText, String.append_assoc]
  rfl

end Statement

/-! ## Requests -/

/-- The requests that send one statement about the documents that match a filter. -/
inductive DocumentRequest where
  | find (options : FindOptions)
  | count
  | update (u : Update)
  | updateOne (u : Update)
  | delete
  | deleteOne

/-- Whether a program sends one statement and no more, whatever the answer. -/
def Program.SendsOnce {α : Type} (p : Program α) (call : RecordedCall) : Prop :=
  ∀ s : Script, (p.run Script.executor s).2.calls = s.calls ++ [call]

theorem Program.sendsOnce_execute {α : Type} (s : Statement) (params : List Json)
    (f : QueryOutput → Except Error α) :
    SendsOnce (.execute s params fun o => ofExcept (f o)) { text := s.text, params } := by
  intro script
  have settled (r : Except Error α) (st : Script) : ((ofExcept r).run Script.executor st).2 = st := by
    cases r <;> rfl
  rw [run]
  simp only [Script.executor, Script.sendText]
  cases script.responses with
  | nil => exact congrArg Script.calls (settled _ _)
  | cons response responses =>
    cases response with
    | error text => rfl
    | rows rows => exact congrArg Script.calls (settled _ _)
    | affected count => exact congrArg Script.calls (settled _ _)

/-- The text of a fragment with its own parameters in their places. -/
def Sql.Fragment.filled (shown : Json → String) (f : Fragment) : String :=
  Sql.fill f.text (f.params.map shown)

/-- The fragment of an optional filter. -/
def Collection.filterFragment (c : Collection) (filter : Option Predicate) : Option Fragment :=
  filter.map (Predicate.fragment c.column)

/-- The clause of a filter, given how its fragment is written. -/
def filterClause (written : Fragment → String) : Option Fragment → String
  | none => ""
  | some f => " WHERE " ++ written f

namespace DocumentRequest

/-- What a request answers with. -/
def Answer : DocumentRequest → Type
  | find _ => List Document
  | _ => Nat

def program (c : Collection) (filter : Option Predicate) : (r : DocumentRequest) → Program r.Answer
  | find options => c.find filter options
  | count => c.count filter
  | update u => c.update filter u
  | updateOne u => c.updateOne filter u
  | delete => c.delete filter
  | deleteOne => c.deleteOne filter

/-! ## The parts of the statement -/

/-- How the selection of the first row that matches begins and ends; the filter stands between. -/
def firstRowOpening (c : Collection) : String :=
  " WHERE rowid IN (SELECT rowid FROM " ++ Sql.quoteIdentifier c.name

def firstRowClosing : String := " ORDER BY rowid LIMIT 1)"

/-- The start of an update, given how the fragment of the update is written. -/
def updateOpening (c : Collection) (written : Fragment → String) (u : Update) : String :=
  "UPDATE " ++ Sql.quoteIdentifier c.name ++ " SET " ++ c.column.name ++ " = " ++
    written (u.fragment c.column)

/-- What stands before the clause of the filter. -/
def opening (c : Collection) (written : Fragment → String) : DocumentRequest → String
  | find _ => "SELECT " ++ c.column.name ++ " FROM " ++ Sql.quoteIdentifier c.name
  | count => "SELECT COUNT(*) FROM " ++ Sql.quoteIdentifier c.name
  | update u => updateOpening c written u
  | updateOne u => updateOpening c written u ++ firstRowOpening c
  | delete => "DELETE FROM " ++ Sql.quoteIdentifier c.name
  | deleteOne => "DELETE FROM " ++ Sql.quoteIdentifier c.name ++ firstRowOpening c

/-- What stands after the clause of the filter. -/
def closing (c : Collection) : DocumentRequest → String
  | find options => Statement.orderText c.column.name options ++ Statement.pagingText options
  | updateOne _ => firstRowClosing
  | deleteOne => firstRowClosing
  | count => ""
  | update _ => ""
  | delete => ""

/-- The parameters that come before those of the filter. -/
def openingParams (c : Collection) : DocumentRequest → List Json
  | update u | updateOne u => (u.fragment c.column).params
  | _ => []

def text (c : Collection) (filter : Option Predicate) (r : DocumentRequest) : String :=
  r.opening c Fragment.text ++ filterClause Fragment.text (c.filterFragment filter) ++ r.closing c

def params (c : Collection) (filter : Option Predicate) (r : DocumentRequest) : List Json :=
  r.openingParams c ++ ((c.filterFragment filter).map Fragment.params).getD []

/-! ## What is sent -/

section
variable (c : Collection) (filter : Option Predicate)

/-- The statement of a request. -/
def statement : DocumentRequest → Statement
  | find options => .find c.name c.column.name (c.conditionOf filter) options
  | count => .count c.name (c.conditionOf filter)
  | update u => .update c.name c.column.name (u.expr c.column.name) (c.conditionOf filter) false
  | updateOne u => .update c.name c.column.name (u.expr c.column.name) (c.conditionOf filter) true
  | delete => .delete c.name (c.conditionOf filter) false
  | deleteOne => .delete c.name (c.conditionOf filter) true

theorem filterClause_text : filterClause Fragment.text (c.filterFragment filter) =
    Statement.whereText (c.conditionOf filter) := by
  cases filter <;> rfl

theorem text_statement (r : DocumentRequest) :
    (r.statement c filter).text = r.text c filter := by
  rw [text, filterClause_text]
  cases r with
  | find options =>
    rw [statement, Statement.text_find, Statement.selectText, String.append_assoc]
    rfl
  | count =>
    rw [statement, Statement.text_count, Statement.selectText, closing, String.append_empty]
    rfl
  | update u =>
    rw [statement, Statement.text_update, Statement.targetText_all, closing, String.append_empty]
    rfl
  | updateOne u =>
    change _ = updateOpening c Fragment.text u ++ firstRowOpening c ++ _ ++ firstRowClosing
    rw [statement, Statement.text_update, Statement.targetText_first]
    unfold updateOpening firstRowOpening firstRowClosing
    simp only [Update.fragment, String.append_assoc]
  | delete =>
    rw [statement, Statement.text_delete, Statement.targetText_all, closing, String.append_empty]
    rfl
  | deleteOne =>
    change _ = "DELETE FROM " ++ Sql.quoteIdentifier c.name ++ firstRowOpening c ++ _ ++
      firstRowClosing
    rw [statement, Statement.text_delete, Statement.targetText_first]
    unfold firstRowOpening firstRowClosing
    simp only [String.append_assoc]

theorem sendsOnce_program (r : DocumentRequest) :
    (r.program c filter).SendsOnce { text := r.text c filter, params := r.params c filter } := by
  have filterParams : ((c.filterFragment filter).map Fragment.params).getD [] =
      Collection.paramsOf filter := by
    cases filter <;> rfl
  have sent (f : QueryOutput → Except Error r.Answer) :=
    Program.sendsOnce_execute (r.statement c filter)
      (r.openingParams c ++ Collection.paramsOf filter) f
  rw [text_statement] at sent
  rw [params, filterParams]
  cases r with
  | find options => exact sent fun o => o.rows.mapM fun row => Document.ofCell row.head?
  | count => exact sent Collection.countOf
  | update u => exact sent fun o => .ok o.affected
  | updateOne u => exact sent fun o => .ok o.affected
  | delete => exact sent fun o => .ok o.affected
  | deleteOne => exact sent fun o => .ok o.affected

/-! ## What the statement reads when it is bound -/

variable (shown : Json → String)

theorem fills_natText (n : Nat) : Fills (Statement.natText n) [] (Statement.natText n) := by
  have digits : ∀ d ∈ (Statement.natText n).toList, Text.isDigit d = true := by
    rw [Statement.natText, String.toList_ofList]
    exact Text.isDigit_of_mem_decimal n
  have other {d e : Char} (hd : d ∈ (Statement.natText n).toList) (he : Text.isDigit e = false) :
      d ≠ e := by
    rintro rfl
    exact Bool.false_ne_true (he.symm.trans (digits d hd))
  have unquoted : ∀ d ∈ (Statement.natText n).toList, ¬Sql.IsQuote d := by
    rintro d hd (quote | quote)
    · exact other hd rfl quote
    · exact other hd rfl quote
  exact Fills.fixed (Sql.scanFrom_unquoted _ unquoted)
    (Sql.placeholdersFrom_unquoted _ fun d hd => ⟨unquoted d hd, other hd rfl⟩)

theorem fills_orderText (options : FindOptions) :
    Fills (Statement.orderText c.column.name options) []
      (Statement.orderText c.column.name options) := by
  unfold Statement.orderText
  cases options.orderBy with
  | none => exact Fills.empty
  | some f =>
    have by_ : Fills " ORDER BY " [] " ORDER BY " := Fills.fixed (by decide) (by decide)
    have space : Fills " " [] " " := Fills.fixed (by decide) (by decide)
    have direction : Fills options.direction.text [] options.direction.text := by
      cases options.direction <;> exact Fills.fixed (by decide) (by decide)
    exact ((Sql.fills_field c.column f).after by_ |>.append space).append direction

theorem fills_pagingText (options : FindOptions) :
    Fills (Statement.pagingText options) [] (Statement.pagingText options) := by
  have limit : Fills " LIMIT " [] " LIMIT " := Fills.fixed (by decide) (by decide)
  have unlimited : Fills " LIMIT -1" [] " LIMIT -1" := Fills.fixed (by decide) (by decide)
  have offset : Fills " OFFSET " [] " OFFSET " := Fills.fixed (by decide) (by decide)
  unfold Statement.pagingText
  cases options.limit with
  | none =>
    cases options.offset with
    | none => exact Fills.empty.append Fills.empty
    | some m => exact unlimited.append (offset.append (fills_natText m))
  | some n =>
    cases options.offset with
    | none => exact (limit.append (fills_natText n)).append Fills.empty
    | some m => exact (limit.append (fills_natText n)).append (offset.append (fills_natText m))

theorem fills_table : Fills (Sql.quoteIdentifier c.name) [] (Sql.quoteIdentifier c.name) :=
  Fills.quoted (.inr rfl) c.name

theorem fills_updateOpening (u : Update) :
    Fills (updateOpening c Fragment.text u) ((u.fragment c.column).params.map shown)
      (updateOpening c (Fragment.filled shown) u) := by
  have head : Fills "UPDATE " [] "UPDATE " := Fills.fixed (by decide) (by decide)
  have set : Fills " SET " [] " SET " := Fills.fixed (by decide) (by decide)
  have equals : Fills " = " [] " = " := Fills.fixed (by decide) (by decide)
  have value := (Update.fills_text shown c.column u).self
  exact ((((head.append (fills_table c)).append set).append (Fills.plain c.column.isPlain)).append
    equals).append value

theorem fills_firstRowOpening : Fills (firstRowOpening c) [] (firstRowOpening c) := by
  have head : Fills " WHERE rowid IN (SELECT rowid FROM " []
      " WHERE rowid IN (SELECT rowid FROM " := Fills.fixed (by decide) (by decide)
  exact head.append (fills_table c)

theorem fills_opening (r : DocumentRequest) :
    Fills (r.opening c Fragment.text) ((r.openingParams c).map shown)
      (r.opening c (Fragment.filled shown)) := by
  have from_ : Fills " FROM " [] " FROM " := Fills.fixed (by decide) (by decide)
  have deleteFrom : Fills "DELETE FROM " [] "DELETE FROM " := Fills.fixed (by decide) (by decide)
  cases r with
  | find options =>
    have select : Fills "SELECT " [] "SELECT " := Fills.fixed (by decide) (by decide)
    exact ((select.append (Fills.plain c.column.isPlain)).append from_).append (fills_table c)
  | count =>
    have select : Fills "SELECT COUNT(*) FROM " [] "SELECT COUNT(*) FROM " :=
      Fills.fixed (by decide) (by decide)
    exact select.append (fills_table c)
  | update u => exact fills_updateOpening c shown u
  | updateOne u => exact (fills_updateOpening c shown u).before (fills_firstRowOpening c)
  | delete => exact deleteFrom.append (fills_table c)
  | deleteOne => exact (deleteFrom.append (fills_table c)).append (fills_firstRowOpening c)

theorem fills_filterClause :
    Fills (filterClause Fragment.text (c.filterFragment filter))
      ((((c.filterFragment filter).map Fragment.params).getD []).map shown)
      (filterClause (Fragment.filled shown) (c.filterFragment filter)) := by
  cases filter with
  | none => exact Fills.empty
  | some p =>
    have where_ : Fills " WHERE " [] " WHERE " := Fills.fixed (by decide) (by decide)
    exact (Predicate.fills_text shown c.column p).self.after where_

theorem fills_closing (r : DocumentRequest) : Fills (r.closing c) [] (r.closing c) := by
  have first : Fills firstRowClosing [] firstRowClosing := Fills.fixed (by decide) (by decide)
  cases r with
  | find options => exact (fills_orderText c options).append (fills_pagingText options)
  | updateOne u => exact first
  | deleteOne => exact first
  | count => exact Fills.empty
  | update u => exact Fills.empty
  | delete => exact Fills.empty

/-- A request about documents sends one statement. The statement has one parameter for each of its
places. Its text is a fixed opening, the clause of the filter and a fixed closing, and its parameters
are those of the update and those of the filter. With the parameters in their places, left to right,
the update reads what it reads with its own parameters, and so does the clause of the filter. The
clause is the same in all requests, and it is empty exactly if there is no filter. -/
theorem sends_clauses (r : DocumentRequest) :
    ∃ call : RecordedCall, (r.program c filter).SendsOnce call ∧
      countPlaceholders call.text = call.params.length ∧
      call.text = r.opening c Fragment.text ++
        filterClause Fragment.text (c.filterFragment filter) ++ r.closing c ∧
      call.params = r.openingParams c ++
        ((c.filterFragment filter).map Fragment.params).getD [] ∧
      (∀ shown : Json → String, Sql.fill call.text (call.params.map shown) =
        r.opening c (Fragment.filled shown) ++
          filterClause (Fragment.filled shown) (c.filterFragment filter) ++ r.closing c) ∧
      (filterClause Fragment.text (c.filterFragment filter) = "" ↔ filter = none) := by
  have bound (shown : Json → String) : Fills (r.text c filter) ((r.params c filter).map shown)
      (r.opening c (Fragment.filled shown) ++
        filterClause (Fragment.filled shown) (c.filterFragment filter) ++ r.closing c) := by
    rw [params, List.map_append]
    exact ((fills_opening c shown r).append (fills_filterClause c filter shown)).before
      (fills_closing c r)
  refine ⟨_, sendsOnce_program c filter r, ?_, rfl, rfl, fun shown => (bound shown).reads, ?_⟩
  · have count := (bound fun _ => "").count
    rwa [List.length_map] at count
  · cases filter with
    | none => exact ⟨fun _ => rfl, fun _ => rfl⟩
    | some p =>
      refine ⟨fun empty => ?_, fun absent => nomatch absent⟩
      have chars := congrArg String.toList empty
      simp [filterClause, Collection.filterFragment] at chars

end

end DocumentRequest
end DocStore
