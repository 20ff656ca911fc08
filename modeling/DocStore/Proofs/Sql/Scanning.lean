import DocStore.Sql.Quoting

/-! # Scanning statement text

The scanner is a fold, so scanning a text piece by piece is scanning it as a whole. What is quoted
leaves the scanner where it was and hides its question marks, whatever the quoted text is; and
reading it gives the text back and stops where it ends (`quoting_seals`). -/
set_option autoImplicit false

namespace DocStore.Sql

/-! ## Pieces of a text -/

@[simp] theorem scanFrom_nil (inside : Option Char) : scanFrom inside [] = inside := rfl

@[simp] theorem scanFrom_cons (inside : Option Char) (c : Char) (cs : List Char) :
    scanFrom inside (c :: cs) = scanFrom (advance inside c) cs := rfl

theorem scanFrom_append (inside : Option Char) (a b : List Char) :
    scanFrom inside (a ++ b) = scanFrom (scanFrom inside a) b := by
  rw [scanFrom, List.foldl_append]
  rfl

theorem placeholdersFrom_append (inside : Option Char) (a b : List Char) :
    placeholdersFrom inside (a ++ b) =
      placeholdersFrom inside a + placeholdersFrom (scanFrom inside a) b := by
  induction a generalizing inside with
  | nil => simp [placeholdersFrom]
  | cons c a ih => simp [placeholdersFrom, ih, Nat.add_assoc]

/-- A piece that ends outside quotes does not change how the rest is counted. -/
theorem countPlaceholders_append {a b : String} (ha : scanFrom none a.toList = none) :
    countPlaceholders (a ++ b) = countPlaceholders a + countPlaceholders b := by
  rw [countPlaceholders, String.toList_append, placeholdersFrom_append, ha]
  rfl

/-! ## Quotes -/

/-- The two characters that open a quotation. -/
def IsQuote (q : Char) : Prop := q = '\'' ∨ q = '"'

@[simp] theorem advance_quote {q : Char} (hq : IsQuote q) : advance none q = some q := by
  rcases hq with rfl | rfl <;> rfl

@[simp] theorem advance_close (q : Char) : advance (some q) q = none := by
  simp [advance]

theorem advance_inside {q c : Char} (h : c ≠ q) : advance (some q) c = some q := by
  simp [advance, h]

theorem not_isPlaceholder_inside (q c : Char) : isPlaceholder (some q) c = false := rfl

theorem not_isPlaceholder_quote {q : Char} (hq : IsQuote q) : isPlaceholder none q = false := by
  rcases hq with rfl | rfl <;> rfl

@[simp] theorem doubled_nil (q : Char) : doubled q [] = [] := rfl

theorem doubled_cons_quote (q : Char) (cs : List Char) :
    doubled q (q :: cs) = q :: q :: doubled q cs := by
  simp [doubled]

theorem doubled_cons_other {q c : Char} (h : c ≠ q) (cs : List Char) :
    doubled q (c :: cs) = c :: doubled q cs := by
  simp [doubled, h]

theorem mem_of_mem_doubled {q c : Char} {cs : List Char} (h : c ∈ doubled q cs) : c ∈ cs := by
  rw [doubled, List.mem_flatMap] at h
  obtain ⟨d, hd, h⟩ := h
  have e : c = d := by
    by_cases hq : d = q
    · simpa [hq] using h
    · simpa [hq] using h
  exact e ▸ hd

theorem mem_doubled {q c : Char} {cs : List Char} (h : c ∈ cs) : c ∈ doubled q cs := by
  rw [doubled, List.mem_flatMap]
  refine ⟨c, h, ?_⟩
  split
  · exact List.mem_cons.mpr (.inl (by assumption))
  · exact List.mem_singleton.mpr rfl

theorem scanFrom_doubled {q : Char} (hq : IsQuote q) (cs : List Char) :
    scanFrom (some q) (doubled q cs) = some q := by
  induction cs with
  | nil => rfl
  | cons c cs ih =>
    by_cases h : c = q
    · subst h
      rw [doubled_cons_quote, scanFrom_cons, advance_close, scanFrom_cons, advance_quote hq]
      exact ih
    · rw [doubled_cons_other h, scanFrom_cons, advance_inside h]
      exact ih

/-- Inside a quotation every place that seems to lie outside is followed by the quote. -/
theorem eq_quote_of_outside {q : Char} (hq : IsQuote q) {c : Char} {cs before after : List Char}
    (split : doubled q cs ++ [q] = before ++ c :: after)
    (outside : scanFrom (some q) before = none) : c = q := by
  induction cs generalizing before with
  | nil =>
    cases before with
    | nil => exact (List.cons.inj split).1.symm
    | cons d before => simp at split
  | cons d cs ih =>
    by_cases h : d = q
    · subst h
      rw [doubled_cons_quote] at split
      match before, split, outside with
      | [], split, _ => exact (List.cons.inj split).1.symm
      | [_], split, _ => exact (List.cons.inj (List.cons.inj split).2).1.symm
      | _ :: _ :: before, split, outside =>
        -- the pair is behind, and the scanner is inside again
        simp only [List.cons_append, List.cons.injEq] at split
        obtain ⟨rfl, rfl, split⟩ := split
        rw [scanFrom_cons, advance_close, scanFrom_cons, advance_quote hq] at outside
        exact ih split outside
    · rw [doubled_cons_other h] at split
      cases before with
      | nil => cases outside
      | cons e before =>
        simp only [List.cons_append, List.cons.injEq] at split
        obtain ⟨rfl, split⟩ := split
        rw [scanFrom_cons, advance_inside h] at outside
        exact ih split outside

theorem placeholdersFrom_doubled {q : Char} (hq : IsQuote q) (cs : List Char) :
    placeholdersFrom (some q) (doubled q cs) = 0 := by
  induction cs with
  | nil => rfl
  | cons c cs ih =>
    by_cases h : c = q
    · subst h
      simp [doubled_cons_quote, placeholdersFrom, advance_quote hq, not_isPlaceholder_inside,
        not_isPlaceholder_quote hq, ih]
    · simp [doubled_cons_other h, placeholdersFrom, advance_inside h, not_isPlaceholder_inside, ih]

theorem toList_quoted (q : Char) (s : String) :
    (quoted q s).toList = q :: doubled q s.toList ++ [q] := by
  simp [quoted]

theorem scanFrom_quoted {q : Char} (hq : IsQuote q) (s : String) :
    scanFrom none (quoted q s).toList = none := by
  rw [toList_quoted, List.cons_append, scanFrom_cons, advance_quote hq, scanFrom_append,
    scanFrom_doubled hq]
  simp

theorem countPlaceholders_quoted {q : Char} (hq : IsQuote q) (s : String) :
    countPlaceholders (quoted q s) = 0 := by
  rw [countPlaceholders, toList_quoted, List.cons_append, placeholdersFrom,
    not_isPlaceholder_quote hq, advance_quote hq, placeholdersFrom_append,
    placeholdersFrom_doubled hq, scanFrom_doubled hq]
  rfl

/-! ## Texts without quotes -/

theorem scanFrom_unquoted (cs : List Char) (h : ∀ c ∈ cs, ¬IsQuote c) :
    scanFrom none cs = none := by
  induction cs with
  | nil => rfl
  | cons c cs ih =>
    have e : advance none c = none := if_neg (h c (List.mem_cons_self ..))
    rw [scanFrom_cons, e]
    exact ih fun d hd => h d (List.mem_cons_of_mem c hd)

theorem placeholdersFrom_unquoted (cs : List Char) (h : ∀ c ∈ cs, ¬IsQuote c ∧ c ≠ '?') :
    placeholdersFrom none cs = 0 := by
  induction cs with
  | nil => rfl
  | cons c cs ih =>
    obtain ⟨hq, hp⟩ := h c (List.mem_cons_self ..)
    have e : advance none c = none := if_neg hq
    have e' : isPlaceholder none c = false := by simp [isPlaceholder, hp]
    rw [placeholdersFrom, e, e', ih fun d hd => h d (List.mem_cons_of_mem c hd)]
    rfl

/-! ## Names without quotes -/

theorem isIdentifierPart_of_mem {name : String} (h : isPlainIdentifier name = true) :
    ∀ c ∈ name.toList, isIdentifierPart c = true := by
  unfold isPlainIdentifier at h
  split at h
  · cases h
  · rename_i c rest e
    rw [Bool.and_eq_true, List.all_eq_true] at h
    intro d hd
    rw [e, List.mem_cons] at hd
    rcases hd with rfl | hd
    · simp [isIdentifierPart, h.1]
    · exact h.2 d hd

theorem toList_ne_nil_of_isPlainIdentifier {name : String} (h : isPlainIdentifier name = true) :
    name.toList ≠ [] := by
  intro e
  simp [isPlainIdentifier, e] at h

theorem ne_of_isIdentifierPart {c d : Char} (h : isIdentifierPart c = true)
    (hd : isIdentifierPart d = false) : c ≠ d := by
  rintro rfl
  rw [h] at hd
  cases hd

theorem not_isQuote_of_isIdentifierPart {c : Char} (h : isIdentifierPart c = true) :
    ¬IsQuote c := by
  rintro (e | e)
  · exact ne_of_isIdentifierPart h (by decide) e
  · exact ne_of_isIdentifierPart h (by decide) e

theorem scanFrom_identifier {name : String} (h : isPlainIdentifier name = true) :
    scanFrom none name.toList = none :=
  scanFrom_unquoted _ fun c hc => not_isQuote_of_isIdentifierPart (isIdentifierPart_of_mem h c hc)

theorem countPlaceholders_identifier {name : String} (h : isPlainIdentifier name = true) :
    countPlaceholders name = 0 := by
  refine placeholdersFrom_unquoted _ fun c hc => ?_
  have hp := isIdentifierPart_of_mem h c hc
  exact ⟨not_isQuote_of_isIdentifierPart hp, ne_of_isIdentifierPart hp (by decide)⟩

theorem not_mem_of_plain {name : String} {c : Char} (h : isPlainIdentifier name = true)
    (hc : isIdentifierPart c = false) : c ∉ name.toList := by
  intro mem
  exact ne_of_isIdentifierPart (isIdentifierPart_of_mem h c mem) hc rfl

/-! ## Names without NUL -/

theorem not_nul_of_plain {name : String} (h : isPlainIdentifier name = true) :
    '\x00' ∉ name.toList :=
  not_mem_of_plain h (by decide)

theorem not_nul_quoteIdentifier_iff {name : String} :
    '\x00' ∉ (quoteIdentifier name).toList ↔ '\x00' ∉ name.toList := by
  rw [quoteIdentifier, toList_quoted, List.cons_append, List.mem_cons, List.mem_append,
    List.mem_singleton]
  constructor
  · intro h mem
    exact h (.inr (.inl (mem_doubled mem)))
  · rintro h (quote | mem | quote)
    · exact absurd quote (by decide)
    · exact h (mem_of_mem_doubled mem)
    · exact absurd quote (by decide)

/-! ## Reading back -/

/-- What was quoted is read back up to its closing quote. -/
theorem readQuoted?_doubled {q : Char} (cs rest : List Char) (h : rest.head? ≠ some q) :
    readQuoted? q (doubled q cs ++ q :: rest) = some (cs, rest) := by
  induction cs with
  | nil =>
    cases rest with
    | nil => simp [readQuoted?]
    | cons d rest =>
      have hd : d ≠ q := fun e => h (congrArg some e)
      simp [readQuoted?, hd]
  | cons c cs ih =>
    by_cases hc : c = q
    · subst hc
      rw [doubled_cons_quote, List.cons_append, List.cons_append, readQuoted?, if_pos rfl,
        if_pos rfl, ih]
      rfl
    · obtain ⟨d, more, e⟩ : ∃ d more, doubled q cs ++ q :: rest = d :: more :=
        List.exists_cons_of_ne_nil (by simp)
      rw [doubled_cons_other hc, List.cons_append, e, readQuoted?, if_neg hc, ← e, ih]
      rfl

/-- A quotation ends where it seems to end, if no further quote follows. -/
theorem quoted_append_inj {q : Char} {s s' : String} {rest rest' : List Char}
    (hr : rest.head? ≠ some q) (hr' : rest'.head? ≠ some q)
    (h : (quoted q s).toList ++ rest = (quoted q s').toList ++ rest') : s = s' ∧ rest = rest' := by
  simp only [toList_quoted, List.cons_append, List.append_assoc, List.nil_append,
    List.cons.injEq, true_and] at h
  have read := readQuoted?_doubled s.toList rest hr
  rw [h, readQuoted?_doubled s'.toList rest' hr'] at read
  obtain ⟨chars, same⟩ := Prod.mk.inj (Option.some.inj read)
  exact ⟨(String.toList_inj.mp chars).symm, same.symm⟩

/-! ## Texts kept to their quotes -/

/-- Whether a way to write texts between quotes lets none of them out, whatever stands around. -/
structure Seals (quote : Char) (write : String → String) : Prop where
  /-- The placeholders are those before and those after. -/
  counts : ∀ s a b : String, scanFrom none a.toList = none →
    countPlaceholders (a ++ write s ++ b) = countPlaceholders a + countPlaceholders b
  /-- What follows is scanned as if it stood alone. -/
  closes : ∀ s a b : String, scanFrom none a.toList = none →
    scanFrom none (a ++ write s ++ b).toList = scanFrom none b.toList
  /-- Reading on from the opening quote gives the text back and stops at the closing quote. -/
  reads : ∀ s b : String, b.toList.head? ≠ some quote →
    ∃ rest, (write s ++ b).toList = quote :: rest ∧
      readQuoted? quote rest = some (s.toList, b.toList)
  /-- Where the scanner seems to be out before the closing quote, the quote is what comes next. -/
  stays : ∀ (s : String) (c : Char) (before after : List Char), before ≠ [] →
    (write s).toList = before ++ c :: after → scanFrom none before = none → c = quote
  /-- What is written ends in one way only. -/
  ends : ∀ s s' b b' : String, b.toList.head? ≠ some quote → b'.toList.head? ≠ some quote →
    write s ++ b = write s' ++ b' → s = s' ∧ b = b'
  injective : ∀ s s' : String, write s = write s' → s = s'

theorem seals_quoted {q : Char} (hq : IsQuote q) : Seals q (quoted q) where
  counts s a b ha := by
    have hs : scanFrom none (a ++ quoted q s).toList = none := by
      rw [String.toList_append, scanFrom_append, ha, scanFrom_quoted hq]
    rw [countPlaceholders_append hs, countPlaceholders_append ha, countPlaceholders_quoted hq,
      Nat.add_zero]
  closes s a b ha := by
    rw [String.toList_append, String.toList_append, scanFrom_append, scanFrom_append, ha,
      scanFrom_quoted hq]
  reads s b hb := by
    refine ⟨doubled q s.toList ++ q :: b.toList, ?_, readQuoted?_doubled s.toList b.toList hb⟩
    rw [String.toList_append, toList_quoted, List.append_assoc]
    rfl
  stays s c before after nonempty split outside := by
    obtain ⟨d, before, rfl⟩ := List.exists_cons_of_ne_nil nonempty
    rw [toList_quoted, List.cons_append, List.cons_append, List.cons.injEq] at split
    obtain ⟨rfl, split⟩ := split
    rw [scanFrom_cons, advance_quote hq] at outside
    exact eq_quote_of_outside hq split outside
  ends s s' b b' hb hb' same := by
    have chars := congrArg String.toList same
    rw [String.toList_append, String.toList_append] at chars
    obtain ⟨text, rest⟩ := quoted_append_inj hb hb' chars
    exact ⟨text, String.toList_inj.mp rest⟩
  injective s s' same := by
    have alone : ([] : List Char).head? ≠ some q := nofun
    exact (quoted_append_inj alone alone (by rw [same])).1

/-- No text gets out of the quotes that texts and names are written in: neither what counts
placeholders nor what reads a quoted text is led astray by it, and it can be told from what is
written. -/
theorem quoting_seals : Seals '\'' quoteLiteral ∧ Seals '"' quoteIdentifier :=
  ⟨seals_quoted (.inl rfl), seals_quoted (.inr rfl)⟩

example : countPlaceholders ("a = ? AND " ++ quoteLiteral "it's \"?\"''" ++ " = ?") = 2 := by decide

end DocStore.Sql
