import DocStore.Proofs.Sql.Scanning

/-! # What stands outside quotes

`StandsIn part sql` says that a text occurs in a statement outside quotes. The texts that the store
writes are put together from solid parts: parts that end outside quotes, are not empty, and show no
open bracket at their end and no closing one at their start. No empty pair of brackets stands in a
solid text. -/
set_option autoImplicit false

namespace DocStore.Sql

/-- The part occurs in the text at a place outside quotes. -/
def StandsIn (part sql : List Char) : Prop :=
  ∃ before after, sql = before ++ part ++ after ∧ scanFrom none before = none

theorem not_standsIn_append {a b : List Char} (hc : scanFrom none a = none)
    (ha : ¬StandsIn ['(', ')'] a) (hb : ¬StandsIn ['(', ')'] b)
    (hab : a.getLast? = some '(' → b.head? ≠ some ')') : ¬StandsIn ['(', ')'] (a ++ b) := by
  rintro ⟨before, after, e, hs⟩
  rw [List.append_assoc] at e
  rcases List.append_eq_append_iff.mp e with ⟨mid, rfl, hmid⟩ | ⟨mid, rfl, hmid⟩
  · rw [scanFrom_append, hc] at hs
    exact hb ⟨mid, after, by rw [hmid, List.append_assoc], hs⟩
  · cases mid with
    | nil => exact hb ⟨[], after, by simpa using hmid.symm, rfl⟩
    | cons c mid =>
      cases mid with
      | nil =>
        simp only [List.cons_append, List.nil_append, List.cons.injEq] at hmid
        obtain ⟨rfl, rfl⟩ := hmid
        exact hab (by simp) (by simp)
      | cons d mid =>
        simp only [List.cons_append, List.nil_append, List.cons.injEq] at hmid
        obtain ⟨rfl, rfl, rfl⟩ := hmid
        exact ha ⟨before, mid, by simp, hs⟩

theorem IsQuote.ne_bracket {q : Char} (hq : IsQuote q) : q ≠ '(' ∧ q ≠ ')' := by
  rcases hq with rfl | rfl <;> decide

theorem not_standsIn_quoted {q : Char} (hq : IsQuote q) (s : String) :
    ¬StandsIn ['(', ')'] (quoted q s).toList := by
  rintro ⟨before, after, e, hs⟩
  rw [toList_quoted] at e
  cases before with
  | nil => exact absurd (List.cons.inj e).1 hq.ne_bracket.1
  | cons c before =>
    simp only [List.cons_append, List.append_assoc, List.nil_append, List.cons.injEq] at e
    obtain ⟨rfl, e⟩ := e
    rw [scanFrom_cons, advance_quote hq] at hs
    exact hq.ne_bracket.1 (eq_quote_of_outside hq e hs).symm

theorem not_standsIn_singleton (c : Char) : ¬StandsIn ['(', ')'] [c] := by
  rintro ⟨before, after, e, -⟩
  have := congrArg List.length e
  simp only [List.length_append, List.length_cons, List.length_nil] at this
  omega

/-! ## Solid texts -/

structure Solid (s : String) : Prop where
  closed : scanFrom none s.toList = none
  bare : ¬StandsIn ['(', ')'] s.toList
  nonempty : s.toList ≠ []
  head : s.toList.head? ≠ some ')'
  last : s.toList.getLast? ≠ some '('

namespace Solid

theorem append {a b : String} (ha : Solid a) (hb : Solid b) : Solid (a ++ b) where
  closed := by rw [String.toList_append, scanFrom_append, ha.closed, hb.closed]
  bare := by
    rw [String.toList_append]
    exact not_standsIn_append ha.closed ha.bare hb.bare fun h => absurd h ha.last
  nonempty := by simp [ha.nonempty]
  head := by
    have h := ha.head
    obtain ⟨c, cs, e⟩ := List.exists_cons_of_ne_nil ha.nonempty
    rw [e] at h
    simpa [e] using h
  last := by
    have h := hb.last
    rw [List.getLast?_eq_some_getLast hb.nonempty] at h
    rw [String.toList_append, List.getLast?_append, List.getLast?_eq_some_getLast hb.nonempty]
    exact h

/-- Characters that are quotes or brackets. -/
def isLoose (c : Char) : Bool := c == '\'' || c == '"' || c == '(' || c == ')'

theorem of_chars {s : String} (h : s.toList.all (fun c => !isLoose c) = true)
    (hne : s.toList.isEmpty = false) : Solid s := by
  have hall : ∀ c ∈ s.toList, isLoose c = false := by simpa using h
  refine { closed := ?_, bare := ?_, nonempty := by simpa using hne, head := ?_, last := ?_ }
  · refine scanFrom_unquoted _ fun c hc hq => ?_
    have := hall c hc
    rcases hq with rfl | rfl <;> cases this
  · rintro ⟨before, after, e, -⟩
    have := hall '(' (by rw [e]; simp)
    cases this
  · exact fun e => by cases hall ')' (List.mem_of_head? e)
  · exact fun e => by cases hall '(' (List.mem_of_getLast? e)

theorem plain {name : String} (h : isPlainIdentifier name = true) : Solid name := by
  refine of_chars ?_ (by simpa using toList_ne_nil_of_isPlainIdentifier h)
  rw [List.all_eq_true]
  intro c hc
  have hp := isIdentifierPart_of_mem h c hc
  simp [isLoose, ne_of_isIdentifierPart (d := '\'') hp (by decide),
    ne_of_isIdentifierPart (d := '"') hp (by decide),
    ne_of_isIdentifierPart (d := '(') hp (by decide),
    ne_of_isIdentifierPart (d := ')') hp (by decide)]

theorem quoted {q : Char} (hq : IsQuote q) (s : String) : Solid (Sql.quoted q s) where
  closed := scanFrom_quoted hq s
  bare := not_standsIn_quoted hq s
  nonempty := by simp [toList_quoted]
  head := by
    rw [toList_quoted]
    simpa using hq.ne_bracket.2
  last := by
    rw [toList_quoted, List.getLast?_concat]
    simpa using hq.ne_bracket.1

theorem bracketed {s : String} (hs : Solid s) : Solid ("(" ++ s ++ ")") where
  closed := by
    simp [scanFrom_append, advance, hs.closed]
  bare := by
    have hopen : ¬StandsIn ['(', ')'] ('(' :: s.toList) :=
      not_standsIn_append (a := ['(']) rfl (not_standsIn_singleton '(') hs.bare fun _ => hs.head
    have hclosed : scanFrom none ('(' :: s.toList) = none := hs.closed
    have e : ("(" ++ s ++ ")").toList = ('(' :: s.toList) ++ [')'] := by simp
    rw [e]
    refine not_standsIn_append hclosed hopen (not_standsIn_singleton ')') fun h => ?_
    rw [List.getLast?_cons_of_ne_nil hs.nonempty] at h
    exact absurd h hs.last
  nonempty := by simp
  head := by simp
  last := by
    rw [String.toList_append, List.getLast?_append]
    simp

/-- A solid text between brackets, with a solid text right before the opening one. -/
theorem enclosed (opening : String) {name s : String} (ho : opening = name ++ "(") (hn : Solid name)
    (hs : Solid s) : Solid (opening ++ s ++ ")") := by
  have h := hn.append hs.bracketed
  rw [← String.append_assoc, ← String.append_assoc, ← ho] at h
  exact h

end Solid
end DocStore.Sql
