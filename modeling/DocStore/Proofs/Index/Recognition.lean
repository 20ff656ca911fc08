import DocStore.Proofs.Collection.IndexNames
import DocStore.Proofs.Index.Reading

/-! # What the catalog is taken to hold

A statement is taken for the index that it makes if it is the statement of a descriptor with a
field. It need not be one to be taken for an index. All that is looked at is how it begins, and a
path and its closing quote after the first call of `json_extract`: the path need not stand in that
call, the call need not be what is indexed, and whatever follows the path is not looked at. -/
set_option autoImplicit false

namespace DocStore.IndexDescriptor

/-! ## Statements of descriptors -/

/-- Whether a statement reads back as a descriptor, or as no statement of an index if the descriptor
is of no field. -/
def ReadsBack (d : IndexDescriptor) (sql : String) : Prop :=
  ofCatalog d.name sql = if d.field.text = "" then .error (.invalidIndexSql sql) else .ok d

theorem not_holdsOpening_of_undotted {name : String} (h : '.' ∉ name.toList) :
    ¬HoldsOpening name := by
  intro found
  have dot : '.' ∈ opening := by decide
  exact h (found.subset dot)

theorem toList_derivedName (kind : IndexKind) (field : FieldPath) :
    (derivedName kind field).toList =
      "idx_".toList ++ kind.text.toList ++ "_".toList ++ field.flattened := by
  simp [derivedName, FieldPath.flattened]

theorem not_dot_mem_derivedName (kind : IndexKind) (field : FieldPath) :
    '.' ∉ (derivedName kind field).toList := by
  have head : '.' ∉ "idx_".toList ++ kind.text.toList ++ "_".toList := by
    cases kind <;> decide
  rw [toList_derivedName, List.mem_append, not_or]
  exact ⟨head, field.not_dot_mem_flattened⟩

theorem not_dot_mem_indexName {c : Collection} (plain : Sql.isPlainIdentifier c.name = true)
    (kind : IndexKind) (field : FieldPath) :
    '.' ∉ (c.indexName (.ofField kind field)).toList := by
  have spelled : (c.indexName (.ofField kind field)).toList =
      c.name.toList ++ '_' :: (derivedName kind field).toList := by
    simp [Collection.indexName, ofField]
  rw [spelled, List.mem_append, List.mem_cons]
  rintro (name | underscore | derived)
  · exact Sql.not_mem_of_plain plain (by decide) name
  · exact absurd underscore (by decide)
  · exact not_dot_mem_derivedName kind field derived

/-- The statement of a descriptor, as it is sent and as a catalog may keep it, reads back as that
descriptor, or not at all if that is of no field, unless the name holds the three characters that
open a path. No derived name holds them, and no catalog name of a collection. -/
theorem readsBack_statements :
    (∀ (d : IndexDescriptor) (table column : String), ¬HoldsOpening d.name →
      Sql.isPlainIdentifier table = true → Sql.isPlainIdentifier column = true →
      ReadsBack d (d.createText table column) ∧ ReadsBack d (d.catalogText table column)) ∧
    (∀ kind field, ¬HoldsOpening (derivedName kind field)) ∧
    ∀ (c : Collection) kind field, Sql.isPlainIdentifier c.name = true →
      ¬HoldsOpening (c.indexName (.ofField kind field)) := by
  refine ⟨?_, ?_, ?_⟩
  · intro d table column hn ht hc
    exact ⟨ofCatalog_statementText_eq true hn ht hc, ofCatalog_statementText_eq false hn ht hc⟩
  · intro kind field
    exact not_holdsOpening_of_undotted (not_dot_mem_derivedName kind field)
  · intro c kind field plain
    exact not_holdsOpening_of_undotted (not_dot_mem_indexName plain kind field)

/-- A descriptor whose name and field hold all that the reading goes by. -/
def misleading : IndexDescriptor where
  kind := .unique
  field := ⟨"'$.a''b') UNIQUE json_extract('"⟩
  name := "\"CREATE INDEX json_extract('$"

theorem readsBack_statements_misleading :
    (¬HoldsOpening misleading.name ∧
      ofCatalog misleading.name (misleading.createText "users" "data") = .ok misleading ∧
      ofCatalog misleading.name (misleading.catalogText "users" "data") = .ok misleading) ∧
    (ofField .path ⟨""⟩).ReadsBack ((ofField .path ⟨""⟩).createText "users" "data") ∧
    ¬HoldsOpening ((⟨"users", .standard⟩ : Collection).indexName (.ofField .unique ⟨"'$.id"⟩)) := by
  have users : Sql.isPlainIdentifier "users" = true := by decide
  have data : Sql.isPlainIdentifier "data" = true := by decide
  have unopened : ¬HoldsOpening misleading.name := by decide
  obtain ⟨back, derived, named⟩ := readsBack_statements
  obtain ⟨sent, kept⟩ := back misleading "users" "data" unopened users data
  obtain ⟨empty, -⟩ := back (ofField .path ⟨""⟩) "users" "data" (derived _ _) users data
  have filled : misleading.field.text ≠ "" := by decide
  exact ⟨⟨unopened, sent.trans (if_neg filled), kept.trans (if_neg filled)⟩, empty,
    named ⟨"users", .standard⟩ .unique ⟨"'$.id"⟩ users⟩

/-! ## First words -/

/-- Whether a word is the first of a text, and what follows it. -/
structure FirstWord (w cs rest : List Char) : Prop where
  filled : w ≠ []
  letters : w.any Text.isBlank = false
  ends : ∀ c ∈ rest.head?, Text.isBlank c = true
  split : ∃ blanks, (∀ c ∈ blanks, Text.isBlank c = true) ∧ cs = blanks ++ (w ++ rest)

theorem FirstWord.words_eq {w cs rest : List Char} (h : FirstWord w cs rest) :
    Text.words cs = w :: Text.words rest := by
  obtain ⟨blanks, blank, rfl⟩ := h.split
  induction blanks with
  | nil => exact Text.words_append h.letters h.filled h.ends
  | cons c blanks ih =>
    obtain ⟨first, others⟩ := List.forall_mem_cons.mp blank
    rw [List.cons_append, Text.words_cons_blank _ first]
    exact ih others ⟨h.filled, h.letters, h.ends, blanks, others, rfl⟩

theorem FirstWord.cons_blank {w cs rest : List Char} {c : Char} (h : FirstWord w cs rest)
    (blank : Text.isBlank c = true) : FirstWord w (c :: cs) rest := by
  obtain ⟨blanks, others, rfl⟩ := h.split
  exact ⟨h.filled, h.letters, h.ends, c :: blanks, List.forall_mem_cons.mpr ⟨blank, others⟩, rfl⟩

theorem firstWord_takeWhile {c : Char} (cs : List Char) (h : Text.isBlank c = false) :
    FirstWord ((c :: cs).takeWhile (!Text.isBlank ·)) (c :: cs)
      ((c :: cs).dropWhile (!Text.isBlank ·)) where
  filled := by simp [h]
  letters := by
    rw [List.any_eq_false]
    intro d mem
    simpa using List.all_eq_true.mp List.all_takeWhile d mem
  ends := by
    intro d first
    have stops := List.head?_dropWhile_not (!Text.isBlank ·) (c :: cs)
    rw [first] at stops
    simpa using stops
  split := ⟨[], fun _ => nofun, by rw [List.nil_append, List.takeWhile_append_dropWhile]⟩

theorem words_eq_cons_iff {w cs : List Char} {ws : List (List Char)} :
    Text.words cs = w :: ws ↔ ∃ rest, FirstWord w cs rest ∧ Text.words rest = ws := by
  constructor
  · intro h
    induction cs with
    | nil => cases h
    | cons c cs ih =>
      cases blank : Text.isBlank c with
      | true =>
        rw [Text.words_cons_blank cs blank] at h
        obtain ⟨rest, first, others⟩ := ih h
        exact ⟨rest, first.cons_blank blank, others⟩
      | false =>
        have first := firstWord_takeWhile cs blank
        rw [first.words_eq] at h
        obtain ⟨rfl, rfl⟩ := List.cons.inj h
        exact ⟨_, first, rfl⟩
  · rintro ⟨rest, first, rfl⟩
    exact first.words_eq

/-- Whether the first word of a text is a keyword, in letters of either case. -/
def Keyword (keyword : String) (cs rest : List Char) : Prop :=
  ∃ w, FirstWord w cs rest ∧ String.ofList (Text.upper w) = keyword

/-- Whether the first words of a text are those of a statement that creates an index. -/
inductive Heads : IndexKind → List Char → Prop where
  | path {cs create index : List Char} (first : Keyword "CREATE" cs create)
    (second : Keyword "INDEX" create index) : Heads .path cs
  | unique {cs create unique index : List Char} (first : Keyword "CREATE" cs create)
    (second : Keyword "UNIQUE" create unique) (third : Keyword "INDEX" unique index) :
    Heads .unique cs

def keywords (cs : List Char) : List String :=
  (Text.words cs).map fun w => String.ofList (Text.upper w)

theorem keywords_eq_cons_iff {keyword : String} {cs : List Char} {others : List String} :
    keywords cs = keyword :: others ↔ ∃ rest, Keyword keyword cs rest ∧ keywords rest = others := by
  rw [keywords, List.map_eq_cons_iff]
  constructor
  · rintro ⟨w, ws, split, spelled, rfl⟩
    obtain ⟨rest, first, rfl⟩ := words_eq_cons_iff.mp split
    exact ⟨rest, ⟨w, first, spelled⟩, rfl⟩
  · rintro ⟨rest, ⟨w, first, spelled⟩, rfl⟩
    exact ⟨w, Text.words rest, first.words_eq, spelled, rfl⟩

theorem kindOf?_eq_some_iff {kind : IndexKind} {cs : List Char} :
    kindOf? cs = some kind ↔ Heads kind cs := by
  constructor
  · intro h
    unfold kindOf? at h
    split at h
    · next words =>
      cases h
      obtain ⟨create, first, words⟩ := keywords_eq_cons_iff.mp words
      obtain ⟨unique, second, words⟩ := keywords_eq_cons_iff.mp words
      obtain ⟨index, third, -⟩ := keywords_eq_cons_iff.mp words
      exact .unique first second third
    · next words =>
      cases h
      obtain ⟨create, first, words⟩ := keywords_eq_cons_iff.mp words
      obtain ⟨index, second, -⟩ := keywords_eq_cons_iff.mp words
      exact .path first second
    · cases h
  · intro h
    cases h with
    | @path _ create index first second =>
      have words : keywords cs = "CREATE" :: "INDEX" :: keywords index :=
        keywords_eq_cons_iff.mpr ⟨create, first, keywords_eq_cons_iff.mpr ⟨index, second, rfl⟩⟩
      unfold keywords at words
      rw [kindOf?, words]
      rfl
    | @unique _ create unique index first second third =>
      have words : keywords cs = "CREATE" :: "UNIQUE" :: "INDEX" :: keywords index :=
        keywords_eq_cons_iff.mpr ⟨create, first, keywords_eq_cons_iff.mpr ⟨unique, second,
          keywords_eq_cons_iff.mpr ⟨index, third, rfl⟩⟩⟩
      unfold keywords at words
      rw [kindOf?, words]
      rfl

/-! ## The first call and the first path -/

/-- Whether a text stands in another, and what follows the first place where it does. -/
def FollowsFirst (text cs rest : List Char) : Prop :=
  ∃ before, cs = before ++ text ++ rest ∧
    ∀ before' rest', cs = before' ++ text ++ rest' → before.length ≤ before'.length

theorem followsFirst_at_start {text cs rest : List Char} (h : text <+: cs) :
    FollowsFirst text cs rest ↔ cs = text ++ rest := by
  constructor
  · rintro ⟨before, split, least⟩
    obtain ⟨more, whole⟩ := h
    have empty : before = [] :=
      List.length_eq_zero_iff.mp (Nat.le_zero.mp (least [] more whole.symm))
    rw [split, empty, List.nil_append]
  · intro split
    exact ⟨[], split, fun _ _ _ => Nat.zero_le _⟩

theorem followsFirst_cons {text cs rest : List Char} {c : Char} (h : ¬text <+: c :: cs) :
    FollowsFirst text (c :: cs) rest ↔ FollowsFirst text cs rest := by
  have nonempty {before more : List Char} (split : c :: cs = before ++ text ++ more) :
      ∃ before', before = c :: before' ∧ cs = before' ++ text ++ more := by
    cases before with
    | nil => exact absurd ⟨more, split.symm⟩ h
    | cons d before =>
      obtain ⟨rfl, inner⟩ := List.cons.inj split
      exact ⟨before, rfl, inner⟩
  constructor
  · rintro ⟨before, split, least⟩
    obtain ⟨before, rfl, inner⟩ := nonempty split
    refine ⟨before, inner, fun before' more other => ?_⟩
    exact Nat.le_of_succ_le_succ (least (c :: before') more (congrArg (c :: ·) other))
  · rintro ⟨before, split, least⟩
    refine ⟨c :: before, congrArg (c :: ·) split, fun before' more other => ?_⟩
    obtain ⟨before', rfl, inner⟩ := nonempty other
    exact Nat.succ_le_succ (least before' more inner)

theorem after?_eq_some_iff {text cs rest : List Char} :
    after? text cs = some rest ↔ FollowsFirst text cs rest := by
  induction cs with
  | nil =>
    cases text with
    | nil =>
      rw [followsFirst_at_start List.nil_prefix]
      simp [after?, eq_comm]
    | cons t text => simp [after?, FollowsFirst]
  | cons c cs ih =>
    unfold after?
    by_cases found : text.isPrefixOf (c :: cs) = true
    · have start := List.isPrefixOf_iff_prefix.mp found
      rw [if_pos found, followsFirst_at_start start, Option.some_inj]
      obtain ⟨more, whole⟩ := start
      rw [← whole, List.drop_left, List.append_cancel_left_eq]
    · rw [if_neg found, ih]
      exact (followsFirst_cons (mt List.isPrefixOf_iff_prefix.mpr found)).symm

/-- What was read was quoted, and ends where no further quote follows. -/
theorem readQuoted?_eq_some_iff {q : Char} {cs text rest : List Char} :
    Sql.readQuoted? q cs = some (text, rest) ↔
      cs = Sql.doubled q text ++ q :: rest ∧ rest.head? ≠ some q := by
  constructor
  · intro h
    fun_induction Sql.readQuoted? q cs generalizing text with
    | case1 => cases h
    | case2 =>
      cases h
      exact ⟨rfl, nofun⟩
    | case3 => cases h
    | case4 more ih =>
      obtain ⟨⟨read, after⟩, inner, same⟩ := Option.map_eq_some_iff.mp h
      obtain ⟨rfl, rfl⟩ := Prod.mk.inj same
      obtain ⟨split, ends⟩ := ih inner
      rw [Sql.doubled_cons_quote, split]
      exact ⟨rfl, ends⟩
    | case5 d more other =>
      cases h
      exact ⟨rfl, fun same => other (Option.some.inj same)⟩
    | case6 c d more other ih =>
      obtain ⟨⟨read, after⟩, inner, same⟩ := Option.map_eq_some_iff.mp h
      obtain ⟨rfl, rfl⟩ := Prod.mk.inj same
      obtain ⟨split, ends⟩ := ih inner
      rw [Sql.doubled_cons_other other, split]
      exact ⟨rfl, ends⟩
  · rintro ⟨rfl, ends⟩
    exact Sql.readQuoted?_doubled text rest ends

/-- Whether a text is named as a path, up to its closing quote, anywhere after the first call. -/
def NamesPath (field cs : List Char) : Prop :=
  ∃ call rest, FollowsFirst "json_extract(".toList cs call ∧
    FollowsFirst opening call (Sql.doubled '\'' field ++ '\'' :: rest) ∧ rest.head? ≠ some '\''

theorem fieldOf?_eq_some_iff {cs : List Char} {field : FieldPath} :
    fieldOf? cs = some field ↔ field.text ≠ "" ∧ NamesPath field.text.toList cs := by
  have spelled : "'$.".toList = opening := by decide
  unfold fieldOf?
  rw [spelled]
  constructor
  · intro h
    obtain ⟨call, first, h⟩ := Option.bind_eq_some_iff.mp h
    obtain ⟨path, second, h⟩ := Option.bind_eq_some_iff.mp h
    obtain ⟨⟨read, rest⟩, quoted, h⟩ := Option.bind_eq_some_iff.mp h
    obtain ⟨_, filled, made⟩ := Option.bind_eq_some_iff.mp h
    obtain ⟨rfl, ends⟩ := readQuoted?_eq_some_iff.mp quoted
    obtain rfl : ⟨String.ofList read⟩ = field := Option.some.inj made
    rw [String.toList_ofList]
    refine ⟨?_, call, rest, after?_eq_some_iff.mp first, after?_eq_some_iff.mp second, ends⟩
    intro empty
    rw [String.ofList_eq_empty_iff] at empty
    subst empty
    cases filled
  · rintro ⟨filled, call, rest, first, second, ends⟩
    have kept : (!field.text.toList.isEmpty) = true := by simpa using filled
    have made : some ⟨String.ofList field.text.toList⟩ = some field := by
      rw [String.ofList_toList]
    apply Option.bind_eq_some_iff.mpr
    refine ⟨call, after?_eq_some_iff.mpr first, Option.bind_eq_some_iff.mpr ?_⟩
    refine ⟨_, after?_eq_some_iff.mpr second, Option.bind_eq_some_iff.mpr ?_⟩
    refine ⟨(_, rest), readQuoted?_eq_some_iff.mpr ⟨rfl, ends⟩, Option.bind_eq_some_iff.mpr ?_⟩
    exact ⟨(), if_pos kept, made⟩

/-! ## What is recognised -/

theorem ofCatalog_eq_ok_iff {name sql : String} {d : IndexDescriptor} :
    ofCatalog name sql = .ok d ↔
      d.name = name ∧ Heads d.kind sql.toList ∧ d.field.text ≠ "" ∧
        NamesPath d.field.text.toList sql.toList := by
  rw [← kindOf?_eq_some_iff, ← fieldOf?_eq_some_iff, ofCatalog]
  constructor
  · intro h
    split at h
    · next kind field =>
      cases h
      exact ⟨rfl, kind, field⟩
    · cases h
  · rintro ⟨rfl, kind, field⟩
    rw [kind, field]

theorem ofCatalog_ok_or_error (name sql : String) :
    (∃ d, ofCatalog name sql = .ok d) ∨ ofCatalog name sql = .error (.invalidIndexSql sql) := by
  unfold ofCatalog
  split
  · exact .inl ⟨_, rfl⟩
  · exact .inr rfl

theorem FollowsFirst.append {text cs rest : List Char} (h : FollowsFirst text cs rest)
    (more : List Char) : FollowsFirst text (cs ++ more) (rest ++ more) := by
  obtain ⟨before, split, least⟩ := h
  refine ⟨before, by rw [split, List.append_assoc], fun before' rest' other => ?_⟩
  by_contra earlier
  -- A place before the first one ends inside the text, so the text has it already.
  have fits : (before' ++ text).length ≤ cs.length := by
    rw [split]
    simp
    omega
  have inside : before' ++ text <+: cs :=
    List.prefix_of_prefix_length_le ⟨rest', other.symm⟩ (List.prefix_append cs more) fits
  obtain ⟨rest', whole⟩ := inside
  exact earlier (least before' rest' whole.symm)

theorem NamesPath.append {field cs more : List Char} (h : NamesPath field cs)
    (ends : more.head? ≠ some '\'') : NamesPath field (cs ++ more) := by
  obtain ⟨call, rest, first, second, single⟩ := h
  have path := second.append more
  rw [List.append_assoc, List.cons_append] at path
  refine ⟨call ++ more, rest ++ more, first.append more, path, ?_⟩
  cases rest with
  | nil => exact ends
  | cons c rest => exact single

/-- A character of no word and no blank stands after the keyword. -/
theorem Keyword.mem {keyword : String} {c : Char} {cs rest : List Char} (h : Keyword keyword cs rest)
    (mem : c ∈ cs) (blank : Text.isBlank c = false) (other : c.toUpper ∉ keyword.toList) :
    c ∈ rest := by
  obtain ⟨w, first, rfl⟩ := h
  obtain ⟨blanks, all, rfl⟩ := first.split
  rw [String.toList_ofList, Text.upper] at other
  rcases List.mem_append.mp mem with mem | mem
  · rw [all c mem] at blank
    cases blank
  · exact (List.mem_append.mp mem).resolve_left fun mem => other (List.mem_map_of_mem mem)

theorem Keyword.append {keyword : String} {c : Char} {cs rest : List Char}
    (h : Keyword keyword cs rest) (mem : c ∈ rest) (more : List Char) :
    Keyword keyword (cs ++ more) (rest ++ more) := by
  obtain ⟨w, first, spelled⟩ := h
  obtain ⟨blanks, all, rfl⟩ := first.split
  refine ⟨w, ⟨first.filled, first.letters, ?_, blanks, all, by simp⟩, spelled⟩
  cases rest with
  | nil => cases mem
  | cons d rest => exact first.ends

theorem Heads.append {kind : IndexKind} {cs : List Char} (h : Heads kind cs) (mem : '(' ∈ cs)
    (more : List Char) : Heads kind (cs ++ more) := by
  -- The bracket is in no keyword, so something follows each of them.
  have blank : Text.isBlank '(' = false := by decide
  cases h with
  | path first second =>
    have afterCreate := first.mem mem blank (by decide)
    have afterIndex := second.mem afterCreate blank (by decide)
    exact .path (first.append afterCreate more) (second.append afterIndex more)
  | unique first second third =>
    have afterCreate := first.mem mem blank (by decide)
    have afterUnique := second.mem afterCreate blank (by decide)
    have afterIndex := third.mem afterUnique blank (by decide)
    exact .unique (first.append afterCreate more) (second.append afterUnique more)
      (third.append afterIndex more)

theorem NamesPath.bracket_mem {field cs : List Char} (h : NamesPath field cs) : '(' ∈ cs := by
  obtain ⟨call, rest, ⟨before, split, -⟩, -⟩ := h
  rw [split]
  exact List.mem_append_left _ (List.mem_append_right _ (by decide))

/-- A statement is recognised exactly if its first words are those of a statement that creates an
index and a path is named after the first call; it is refused as it is otherwise. Whatever is added
to a statement that is recognised is not looked at. -/
theorem ofCatalog_recognises (name sql : String) :
    (∀ d, ofCatalog name sql = .ok d ↔
      d.name = name ∧ Heads d.kind sql.toList ∧ d.field.text ≠ "" ∧
        NamesPath d.field.text.toList sql.toList) ∧
    ((∃ d, ofCatalog name sql = .ok d) ∨ ofCatalog name sql = .error (.invalidIndexSql sql)) ∧
    ∀ d more, ofCatalog name sql = .ok d → more.toList.head? ≠ some '\'' →
      ofCatalog name (sql ++ more) = .ok d := by
  refine ⟨fun d => ofCatalog_eq_ok_iff, ofCatalog_ok_or_error name sql, ?_⟩
  intro d more recognised ends
  obtain ⟨named, head, filled, path⟩ := ofCatalog_eq_ok_iff.mp recognised
  rw [ofCatalog_eq_ok_iff, String.toList_append]
  exact ⟨named, head.append path.bracket_mem _, filled, path.append ends⟩

theorem ofCatalog_recognises_partial :
    ofCatalog "i" "create unique index i on t (json_extract(data, '$.a'))" =
        .ok ⟨.unique, ⟨"a"⟩, "i"⟩ ∧
      ofCatalog "i" ("create unique index i on t (json_extract(data, '$.a'))" ++
        " where name = 'x'") = .ok ⟨.unique, ⟨"a"⟩, "i"⟩ := by
  have whole : ofCatalog "i" "create unique index i on t (json_extract(data, '$.a'))" =
      .ok ⟨.unique, ⟨"a"⟩, "i"⟩ := by rfl
  obtain ⟨-, -, goes_on⟩ :=
    ofCatalog_recognises "i" "create unique index i on t (json_extract(data, '$.a'))"
  exact ⟨whole, goes_on _ " where name = 'x'" whole (by decide)⟩

/-- Taken for an index on a field: one on a column with a condition on the field, one on a column
and the field, one with a condition, and one whose call and path have nothing to do with each
other. -/
theorem ofCatalog_misreadings :
    ofCatalog "i" "CREATE UNIQUE INDEX i ON t (name) WHERE json_extract(data, '$.a') = 1" =
      .ok ⟨.unique, ⟨"a"⟩, "i"⟩ ∧
    ofCatalog "i" "CREATE UNIQUE INDEX i ON t (json_extract(data, '$.a'), name)" =
      .ok ⟨.unique, ⟨"a"⟩, "i"⟩ ∧
    ofCatalog "i" "CREATE UNIQUE INDEX i ON t (json_extract(data, '$.a')) WHERE name = 1" =
      .ok ⟨.unique, ⟨"a"⟩, "i"⟩ ∧
    ofCatalog "i" "CREATE INDEX i ON t (json_extract(data, name)) WHERE name = '$.a'" =
      .ok ⟨.path, ⟨"a"⟩, "i"⟩ := by
  refine ⟨?_, ?_, ?_, ?_⟩ <;> rfl

end DocStore.IndexDescriptor
