import DocStore.Index.Catalog
import DocStore.Proofs.Sql.Scanning
import DocStore.Proofs.Text.Words
import Mathlib.Data.List.Infix

/-! # Reading descriptors back from their statements

A catalog tells what its indexes are for only through the statements that made them. The statement
of a descriptor with a field reads back as that descriptor, in the form that is sent and in the form
that a catalog may keep, whatever the field and as long as the name does not itself hold the three
characters that open a path. -/
set_option autoImplicit false

namespace DocStore.IndexDescriptor

/-! ## Searching -/

/-- What follows the first occurrence begins no later than what follows a given one. -/
theorem after?_append (text before rest : List Char) :
    ∃ skipped, skipped <:+ before ++ text ∧
      after? text (before ++ text ++ rest) = some (skipped ++ rest) := by
  induction before with
  | nil =>
    refine ⟨[], List.nil_suffix, ?_⟩
    cases text with
    | nil => cases rest <;> rfl
    | cons c text =>
      have found : (c :: text).isPrefixOf (c :: (text ++ rest)) = true := by
        rw [List.isPrefixOf_iff_prefix]
        exact List.prefix_append (c :: text) rest
      rw [List.nil_append, List.cons_append, after?, if_pos found]
      simp
  | cons c before ih =>
    obtain ⟨skipped, suffix, e⟩ := ih
    by_cases found : text.isPrefixOf (c :: (before ++ text ++ rest)) = true
    · refine ⟨(c :: before ++ text).drop text.length, List.drop_suffix .., ?_⟩
      rw [List.cons_append, List.cons_append, after?, if_pos found]
      have fits : text.length ≤ (c :: (before ++ text)).length := by simp; omega
      rw [← List.drop_append_of_le_length fits]
      rfl
    · refine ⟨skipped, suffix.trans (List.suffix_cons ..), ?_⟩
      rw [List.cons_append, List.cons_append, after?, if_neg found]
      exact e

/-! ## The opening of a path -/

/-- The characters that open the path in an indexed expression. -/
def opening : List Char := ['\'', '$', '.']

def HoldsOpening (name : String) : Prop := opening <:+: name.toList

instance (name : String) : Decidable (HoldsOpening name) :=
  inferInstanceAs (Decidable (_ <:+: _))

/-- The opening of a path does not overlap itself, so it is found where it first stands. -/
theorem after?_opening {before : List Char} (rest : List Char) (h : ¬opening <:+: before) :
    after? opening (before ++ opening ++ rest) = some rest := by
  induction before with
  | nil => rfl
  | cons c before ih =>
    have absent : ¬opening <+: c :: (before ++ opening ++ rest) := by
      intro found
      obtain ⟨e, found⟩ := List.cons_prefix_cons.mp found
      match before, found with
      | [], found => simp [opening] at found
      | [d], found => simp [opening] at found
      | d :: d' :: before, found =>
        obtain ⟨e', found⟩ := List.cons_prefix_cons.mp found
        obtain ⟨e'', -⟩ := List.cons_prefix_cons.mp found
        subst e e' e''
        exact h (List.prefix_append opening before).isInfix
    rw [← List.isPrefixOf_iff_prefix] at absent
    rw [List.cons_append, List.cons_append, after?, if_neg absent]
    exact ih fun inner => h (inner.trans (List.suffix_cons ..).isInfix)

theorem not_opening_of_unquoted {cs : List Char} (h : '\'' ∉ cs) : ¬opening <:+: cs :=
  fun found => h (found.subset (List.mem_cons_self ..))

/-- A character that is not in the opening keeps apart what stands around it. -/
theorem opening_infix_of_apart {a b : List Char} {c : Char} (hc : c ∉ opening)
    (h : opening <:+: a ++ c :: b) : opening <:+: a ∨ opening <:+: b := by
  rcases List.infix_append_iff_ne_nil.mp h with h | h | ⟨l, r, -, hr, e, -, found⟩
  · exact .inl h
  · rcases List.infix_cons_iff.mp h with found | h
    · obtain ⟨rfl, -⟩ := List.cons_prefix_cons.mp found
      exact absurd (List.mem_cons_self ..) hc
    · exact .inr h
  · obtain ⟨d, r, rfl⟩ := List.exists_cons_of_ne_nil hr
    obtain ⟨rfl, -⟩ := List.cons_prefix_cons.mp found
    exact absurd (e ▸ List.mem_append_right l (List.mem_cons_self ..)) hc

theorem prefix_of_prefix_doubled {q : Char} {text cs : List Char} (hq : q ∉ text)
    (h : text <+: Sql.doubled q cs) : text <+: cs := by
  induction text generalizing cs with
  | nil => exact List.nil_prefix
  | cons t text ih =>
    have ht : t ≠ q := fun e => hq (e ▸ List.mem_cons_self ..)
    cases cs with
    | nil => exact h
    | cons c cs =>
      by_cases e : c = q
      · subst e
        rw [Sql.doubled_cons_quote] at h
        exact absurd (List.cons_prefix_cons.mp h).1 ht
      · rw [Sql.doubled_cons_other e] at h
        obtain ⟨e', rest⟩ := List.cons_prefix_cons.mp h
        exact List.cons_prefix_cons.mpr ⟨e', ih (fun m => hq (List.mem_cons_of_mem t m)) rest⟩

/-- Quoting a name brings no opening into it. -/
theorem opening_infix_of_doubled {cs : List Char} (h : opening <:+: Sql.doubled '"' cs) :
    opening <:+: cs := by
  induction cs with
  | nil => exact h
  | cons c cs ih =>
    have intro_tail (inner : opening <:+: Sql.doubled '"' cs) : opening <:+: c :: cs :=
      (ih inner).trans (List.suffix_cons ..).isInfix
    by_cases e : c = '"'
    · subst e
      rw [Sql.doubled_cons_quote] at h
      rcases opening_infix_of_apart (a := ['"']) (by decide) h with h | h
      · exact absurd h (by decide)
      · exact intro_tail h
    · rcases List.infix_cons_iff.mp (Sql.doubled_cons_other e cs ▸ h) with found | inner
      · rw [← Sql.doubled_cons_other e] at found
        exact (prefix_of_prefix_doubled (by decide) found).isInfix
      · exact intro_tail inner

/-! ## The kind -/

/-- The words before the name: those of the kind, and those that spare a name that is taken. -/
def heading (kind : IndexKind) (sparing : Bool) : String :=
  "CREATE " ++ (if kind == .unique then "UNIQUE " else "") ++
    (if sparing then "INDEX IF NOT EXISTS " else "INDEX ")

/-- The statement of a descriptor in the form that is sent or in the form that a catalog keeps. -/
def statementText (d : IndexDescriptor) (sparing : Bool) (table column : String) : String :=
  if sparing then d.createText table column else d.catalogText table column

theorem statementText_eq (d : IndexDescriptor) (sparing : Bool) (table column : String) :
    d.statementText sparing table column = heading d.kind sparing ++ d.target table column := by
  cases sparing <;> rfl

theorem words_create (rest : List Char) :
    Text.words ("CREATE ".toList ++ rest) = "CREATE".toList :: Text.words rest :=
  Text.words_keyword "CREATE" rest (by decide) (by decide)

theorem words_unique (rest : List Char) :
    Text.words ("UNIQUE ".toList ++ rest) = "UNIQUE".toList :: Text.words rest :=
  Text.words_keyword "UNIQUE" rest (by decide) (by decide)

theorem words_index (rest : List Char) :
    Text.words ("INDEX ".toList ++ rest) = "INDEX".toList :: Text.words rest :=
  Text.words_keyword "INDEX" rest (by decide) (by decide)

theorem toList_heading (kind : IndexKind) (sparing : Bool) :
    ∃ rest, (heading kind sparing).toList =
      "CREATE ".toList ++ ((if kind == .unique then "UNIQUE " else "").toList ++
        ("INDEX ".toList ++ rest)) := by
  refine ⟨if sparing then "IF NOT EXISTS ".toList else [], ?_⟩
  cases kind <;> cases sparing <;> decide

/-- The kind is read from the words before the name, whatever follows them. -/
theorem kindOf?_heading (kind : IndexKind) (sparing : Bool) (rest : List Char) :
    kindOf? ((heading kind sparing).toList ++ rest) = some kind := by
  obtain ⟨more, e⟩ := toList_heading kind sparing
  rw [e, List.append_assoc, List.append_assoc, List.append_assoc, kindOf?, words_create]
  cases kind with
  | path =>
    have e : (if IndexKind.path == .unique then "UNIQUE " else "").toList = [] := by decide
    rw [e, List.nil_append, words_index]
    rfl
  | unique =>
    have e : (if IndexKind.unique == .unique then "UNIQUE " else "").toList =
      "UNIQUE ".toList := by decide
    rw [e, words_unique, words_index]
    rfl

/-! ## The field -/

/-- The field is the path after the first opening, if a call stands anywhere before it. -/
theorem fieldOf?_append {before middle rest : List Char} (field : List Char)
    (ho : ¬opening <:+: before ++ "json_extract(".toList ++ middle)
    (hr : rest.head? ≠ some '\'') :
    fieldOf? (before ++ "json_extract(".toList ++ middle ++ opening ++
      (Sql.doubled '\'' field ++ '\'' :: rest)) =
        if field = [] then none else some ⟨String.ofList field⟩ := by
  -- The first call may stand before the given one, but no opening does.
  obtain ⟨skipped, suffix, call⟩ := after?_append "json_extract(".toList before
    (middle ++ opening ++ (Sql.doubled '\'' field ++ '\'' :: rest))
  have unopened : ¬opening <:+: skipped ++ middle := fun found =>
    ho (found.trans (List.suffix_append_self_iff.mpr suffix).isInfix)
  have path : after? opening
      (skipped ++ (middle ++ opening ++ (Sql.doubled '\'' field ++ '\'' :: rest))) =
        some (Sql.doubled '\'' field ++ '\'' :: rest) := by
    rw [← List.append_assoc, ← List.append_assoc skipped]
    exact after?_opening _ unopened
  have spelled : "'$.".toList = opening := by decide
  rw [List.append_assoc _ middle, List.append_assoc _ (middle ++ opening), fieldOf?, call,
    Option.bind_eq_bind, Option.bind_some, spelled, path, Option.bind_eq_bind, Option.bind_some,
    Sql.readQuoted?_doubled field rest hr, Option.bind_eq_bind, Option.bind_some]
  cases field with
  | nil => rfl
  | cons c field => rfl

def beforeCall (d : IndexDescriptor) (sparing : Bool) (table : String) : List Char :=
  (heading d.kind sparing).toList ++ (Sql.quoteIdentifier d.name).toList ++ " ON ".toList ++
    (Sql.quoteIdentifier table).toList ++ " (".toList

theorem toList_statementText (d : IndexDescriptor) (sparing : Bool) (table column : String) :
    (d.statementText sparing table column).toList =
      d.beforeCall sparing table ++ "json_extract(".toList ++ (column ++ ", ").toList ++ opening ++
        (Sql.doubled '\'' d.field.text.toList ++ '\'' :: "))".toList) := by
  have path : (Sql.quoteLiteral d.field.jsonPath).toList =
      opening ++ Sql.doubled '\'' d.field.text.toList ++ ['\''] := by
    rw [Sql.quoteLiteral, Sql.toList_quoted, FieldPath.jsonPath, String.toList_append]
    rfl
  have call : (Sql.Expr.field column d.field).text =
      "json_extract(" ++ column ++ ", " ++ Sql.quoteLiteral d.field.jsonPath ++ ")" := rfl
  have close : "))".toList = ")".toList ++ ")".toList := by decide
  rw [statementText_eq, target, call, beforeCall, close]
  simp only [String.toList_append, path, List.append_assoc, List.cons_append, List.nil_append]

theorem unquoted_of_isPlainIdentifier {name : String} (h : Sql.isPlainIdentifier name = true) :
    '\'' ∉ name.toList :=
  Sql.not_mem_of_plain h (by decide)

/-- An opening before the path could only come from the name. -/
theorem not_opening_beforeCall {d : IndexDescriptor} {table column : String} (sparing : Bool)
    (hn : ¬HoldsOpening d.name) (ht : Sql.isPlainIdentifier table = true)
    (hc : Sql.isPlainIdentifier column = true) :
    ¬opening <:+: d.beforeCall sparing table ++ "json_extract(".toList ++
      (column ++ ", ").toList := by
  have head : '\'' ∉ (heading d.kind sparing).toList := by
    cases d.kind <;> cases sparing <;> decide
  have tail : '\'' ∉ " ON ".toList ++ (Sql.quoteIdentifier table).toList ++ " (".toList ++
      "json_extract(".toList ++ (column ++ ", ").toList := by
    have quoted : '\'' ∉ (Sql.quoteIdentifier table).toList := by
      rw [Sql.quoteIdentifier, Sql.toList_quoted]
      simp only [List.mem_append, List.mem_cons, List.not_mem_nil, or_false]
      rintro ((e | m) | e)
      · exact absurd e (by decide)
      · exact unquoted_of_isPlainIdentifier ht (Sql.mem_of_mem_doubled m)
      · exact absurd e (by decide)
    simp only [List.mem_append, String.toList_append]
    rintro ((((m | m) | m) | m) | (m | m))
    · exact absurd m (by decide)
    · exact quoted m
    · exact absurd m (by decide)
    · exact absurd m (by decide)
    · exact unquoted_of_isPlainIdentifier hc m
    · exact absurd m (by decide)
  have around : d.beforeCall sparing table ++ "json_extract(".toList ++ (column ++ ", ").toList =
      (heading d.kind sparing).toList ++ '"' :: (Sql.doubled '"' d.name.toList ++
        '"' :: (" ON ".toList ++ (Sql.quoteIdentifier table).toList ++ " (".toList ++
          "json_extract(".toList ++ (column ++ ", ").toList)) := by
    rw [beforeCall, Sql.quoteIdentifier, Sql.toList_quoted]
    simp only [List.append_assoc, List.cons_append, List.nil_append]
  intro found
  rw [around] at found
  rcases opening_infix_of_apart (by decide) found with found | found
  · exact not_opening_of_unquoted head found
  · rcases opening_infix_of_apart (by decide) found with found | found
    · exact hn (opening_infix_of_doubled found)
    · exact not_opening_of_unquoted tail found

theorem name_of_ofCatalog {name sql : String} {d : IndexDescriptor}
    (h : ofCatalog name sql = .ok d) : d.name = name := by
  unfold ofCatalog at h
  split at h
  · cases h
    rfl
  · cases h

/-- A statement reads back as its descriptor, unless that is of no field. -/
theorem ofCatalog_statementText_eq {d : IndexDescriptor} {table column : String} (sparing : Bool)
    (hn : ¬HoldsOpening d.name) (ht : Sql.isPlainIdentifier table = true)
    (hc : Sql.isPlainIdentifier column = true) :
    ofCatalog d.name (d.statementText sparing table column) =
      if d.field.text = "" then .error (.invalidIndexSql (d.statementText sparing table column))
      else .ok d := by
  have kind : kindOf? (d.statementText sparing table column).toList = some d.kind := by
    rw [statementText_eq, String.toList_append]
    exact kindOf?_heading ..
  have field : fieldOf? (d.statementText sparing table column).toList =
      if d.field.text.toList = [] then none else some d.field := by
    rw [toList_statementText, fieldOf?_append _ (not_opening_beforeCall sparing hn ht hc)
      (by decide), String.ofList_toList]
  rw [ofCatalog, kind, field]
  by_cases empty : d.field.text = ""
  · rw [if_pos empty, if_pos (String.toList_eq_nil_iff.mpr empty)]
  · rw [if_neg empty, if_neg fun nil => empty (String.toList_eq_nil_iff.mp nil)]

theorem ofCatalog_statementText {d : IndexDescriptor} {table column : String} (sparing : Bool)
    (hf : d.field.text ≠ "") (hn : ¬HoldsOpening d.name)
    (ht : Sql.isPlainIdentifier table = true) (hc : Sql.isPlainIdentifier column = true) :
    ofCatalog d.name (d.statementText sparing table column) = .ok d :=
  (ofCatalog_statementText_eq sparing hn ht hc).trans (if_neg hf)

end DocStore.IndexDescriptor
