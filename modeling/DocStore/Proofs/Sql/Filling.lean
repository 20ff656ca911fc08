import DocStore.Proofs.Sql.Scanning

/-! # Filling the places of a text

Parameters are bound by position: the first placeholder outside quotes takes the first parameter,
and so on from left to right. `fill` does this to a text, with a text for each parameter.

`Fills sql texts filled` says that a text stands by itself, that there is one text for each of its
places, and what it reads with the texts in their places. Such texts can be put one after another
(`Fills.append`), so what a statement reads when it is bound can be told from its parts. -/
set_option autoImplicit false

namespace DocStore.Sql

/-- The characters with the placeholders outside quotes replaced by texts, from left to right; when
the texts run out, the placeholders that are left stay. -/
def fillFrom (inside : Option Char) : List Char → List String → List Char
  | [], _ => []
  | c :: rest, texts =>
    if isPlaceholder inside c then
      (texts.head?.map String.toList).getD [c] ++ fillFrom (advance inside c) rest texts.tail
    else c :: fillFrom (advance inside c) rest texts

/-- The text with its placeholders replaced by texts, from left to right. -/
def fill (sql : String) (texts : List String) : String :=
  String.ofList (fillFrom none sql.toList texts)

theorem fillFrom_append (inside : Option Char) (a b : List Char) (ts us : List String)
    (h : placeholdersFrom inside a = ts.length) :
    fillFrom inside (a ++ b) (ts ++ us) =
      fillFrom inside a ts ++ fillFrom (scanFrom inside a) b us := by
  induction a generalizing inside ts with
  | nil =>
    obtain rfl : ts = [] := List.eq_nil_of_length_eq_zero h.symm
    rfl
  | cons c a ih =>
    by_cases hc : isPlaceholder inside c = true
    · cases ts with
      | nil => simp [placeholdersFrom, hc] at h
      | cons t ts =>
        have ha : placeholdersFrom (advance inside c) a = ts.length := by
          simp only [placeholdersFrom, hc, if_true, List.length_cons] at h
          omega
        simp [fillFrom, hc, ih _ _ ha]
    · have ha : placeholdersFrom (advance inside c) a = ts.length := by
        simpa [placeholdersFrom, hc] using h
      simp [fillFrom, hc, ih _ _ ha]

/-- A text without places stays as it is. -/
theorem fillFrom_eq_self (inside : Option Char) (cs : List Char)
    (h : placeholdersFrom inside cs = 0) : fillFrom inside cs [] = cs := by
  induction cs generalizing inside with
  | nil => rfl
  | cons c cs ih =>
    by_cases hc : isPlaceholder inside c = true
    · simp [placeholdersFrom, hc] at h
    · have hcs : placeholdersFrom (advance inside c) cs = 0 := by
        simpa [placeholdersFrom, hc] using h
      simp [fillFrom, hc, ih _ hcs]

/-! ## Texts that stand by themselves -/

/-- The text ends outside quotes, has one text for each of its places, and with the texts in their
places it reads `filled`. -/
structure Fills (sql : String) (texts : List String) (filled : String) : Prop where
  closed : scanFrom none sql.toList = none
  count : countPlaceholders sql = texts.length
  reads : fill sql texts = filled

namespace Fills

theorem append {a b a' b' : String} {ts us : List String} (ha : Fills a ts a')
    (hb : Fills b us b') : Fills (a ++ b) (ts ++ us) (a' ++ b') where
  closed := by
    rw [String.toList_append, scanFrom_append, ha.closed, hb.closed]
  count := by
    rw [countPlaceholders_append ha.closed, ha.count, hb.count, List.length_append]
  reads := by
    rw [fill, String.toList_append, fillFrom_append _ _ _ _ _ ha.count, ha.closed,
      String.ofList_append, ← ha.reads, ← hb.reads]
    rfl

/-- A text without places that ends outside quotes. -/
theorem fixed {s : String} (hs : scanFrom none s.toList = none) (hc : countPlaceholders s = 0) :
    Fills s [] s where
  closed := hs
  count := hc
  reads := by
    rw [fill, fillFrom_eq_self none _ hc, String.ofList_toList]

theorem empty : Fills "" [] "" := fixed (by decide) (by decide)

theorem quoted {q : Char} (hq : IsQuote q) (s : String) :
    Fills (Sql.quoted q s) [] (Sql.quoted q s) :=
  fixed (scanFrom_quoted hq s) (countPlaceholders_quoted hq s)

theorem literal (s : String) : Fills (quoteLiteral s) [] (quoteLiteral s) := quoted (.inl rfl) s

theorem plain {name : String} (h : isPlainIdentifier name = true) : Fills name [] name :=
  fixed (scanFrom_identifier h) (countPlaceholders_identifier h)

theorem placeholder (t : String) : Fills "?" [t] t where
  closed := by decide
  count := rfl
  reads := by
    have e : fillFrom none "?".toList [t] = t.toList ++ [] := rfl
    rw [fill, e, List.append_nil, String.ofList_toList]

theorem self {sql filled : String} {texts : List String} (h : Fills sql texts filled) :
    Fills sql texts (fill sql texts) :=
  ⟨h.closed, h.count, rfl⟩

/-! ## Texts before, between and after -/

theorem after {a b b' : String} {us : List String} (hb : Fills b us b')
    (ha : Fills a [] a) : Fills (a ++ b) us (a ++ b') := ha.append hb

theorem before {a b a' : String} {ts : List String} (ha : Fills a ts a')
    (hb : Fills b [] b) : Fills (a ++ b) ts (a' ++ b) := by
  have h := ha.append hb
  rwa [List.append_nil] at h

end Fills
end DocStore.Sql
