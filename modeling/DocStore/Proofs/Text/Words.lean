import DocStore.Text.Blank

/-! # Words split at blanks

A list falls apart at its marks, and a text at its blanks: what stands before the first blank is the
first word. -/
set_option autoImplicit false

namespace DocStore

/-! ## Parts -/

theorem splitBy_append_cons {α : Type} {isMark : α → Bool} {part : List α} {mark : α}
    (rest : List α) (hp : part.any isMark = false) (hm : isMark mark = true) :
    splitBy isMark (part ++ mark :: rest) = part :: splitBy isMark rest := by
  induction part with
  | nil => simp [splitBy, hm]
  | cons a part ih =>
    rw [List.any_cons, Bool.or_eq_false_iff] at hp
    simp [splitBy, hp.1, ih hp.2]

theorem splitBy_unmarked {α : Type} {isMark : α → Bool} {part : List α}
    (hp : part.any isMark = false) : splitBy isMark part = [part] := by
  induction part with
  | nil => rfl
  | cons a part ih =>
    rw [List.any_cons, Bool.or_eq_false_iff] at hp
    simp [splitBy, hp.1, ih hp.2]

namespace Text

/-! ## Words -/

theorem words_cons_blank {c : Char} (rest : List Char) (h : isBlank c = true) :
    words (c :: rest) = words rest := by
  simp [words, splitBy, h]

/-- What stands before the first blank is the first word. -/
theorem words_append {w rest : List Char} (hb : w.any isBlank = false) (hne : w ≠ [])
    (ends : ∀ c ∈ rest.head?, isBlank c = true) :
    words (w ++ rest) = w :: words rest := by
  have filled : w.isEmpty = false := List.isEmpty_eq_false_iff.mpr hne
  cases rest with
  | nil =>
    rw [List.append_nil, words, splitBy_unmarked hb]
    simp [words, splitBy, filled]
  | cons c rest =>
    have blank : isBlank c = true := ends c rfl
    rw [words_cons_blank rest blank, words, splitBy_append_cons rest hb blank]
    simp [words, filled]

theorem words_keyword (w : String) (rest : List Char)
    (hb : w.toList.any isBlank = false) (hne : w.toList ≠ []) :
    words ((w ++ " ").toList ++ rest) = w.toList :: words rest := by
  have space : (w ++ " ").toList ++ rest = w.toList ++ ' ' :: rest := by simp
  have ends : ∀ c ∈ (' ' :: rest).head?, isBlank c = true := by
    rintro c ⟨⟩
    decide
  rw [space, words_append hb hne ends, words_cons_blank rest (by decide)]

end Text
end DocStore
