import DocStore.Proofs.Query.Predicate

/-! # Compiled predicates are uniquely readable

The text of a compiled predicate and its parameters determine the predicate, up to the connective of
a junction with a single part, which is not written. Fields are arbitrary texts, but they stand
between quotes, and the first quote that is not doubled ends them. So a text can be read from the
left: what a part reads is settled before what follows it comes into play, and `readsOnce` carries
the rest of the text and the rest of the parameters along. -/
set_option autoImplicit false

namespace DocStore

open Sql (CompareOp Connective Condition Column Expr)

/-! ## Fixed parts -/

namespace Sql

theorem Connective.separator_append_inj {op op' : Connective} {rest rest' : List Char}
    (h : op.separator.toList ++ rest = op'.separator.toList ++ rest') :
    op = op' ∧ rest = rest' := by
  cases op <;> cases op' <;> simp_all [Connective.separator, Connective.text]

/-- A list of places ends with its bracket, so its length can be read off. -/
theorem places_append_inj {as bs : List Json} {rest rest' : List Char}
    (h : (Condition.renderItems (fun _ => "?") (as.map fun _ => .placeholder)).toList ++
        ')' :: rest =
      (Condition.renderItems (fun _ => "?") (bs.map fun _ => .placeholder)).toList ++
        ')' :: rest') :
    as.length = bs.length ∧ rest = rest' := by
  induction as generalizing bs with
  | nil =>
    cases bs with
    | nil => simpa [Condition.renderItems] using h
    | cons b bs => simp [Condition.renderItems] at h
  | cons a as ih =>
    cases bs with
    | nil => simp [Condition.renderItems] at h
    | cons b bs =>
      simp only [List.map_cons, Condition.renderItems, Expr.render, String.toList_append,
        List.append_assoc, List.append_cancel_left_eq] at h
      obtain ⟨same, rest⟩ := ih h
      exact ⟨by simp [same], rest⟩

end Sql

theorem FieldPath.jsonPath_inj {f g : FieldPath} (h : f.jsonPath = g.jsonPath) : f = g := by
  have chars := congrArg String.toList h
  simp only [jsonPath, String.toList_append, List.append_cancel_left_eq] at chars
  exact congrArg FieldPath.mk (String.toList_inj.mp chars)

/-! ## Comparisons -/

theorem Comparator.text_append_inj {op op' : Comparator} {rest rest' : List Char}
    (h : op.text.toList ++ ' ' :: rest = op'.text.toList ++ ' ' :: rest') :
    op = op' ∧ rest = rest' := by
  cases op with
  | scalar op =>
    cases op' with
    | scalar op' => cases op <;> cases op' <;> simp_all [text, CompareOp.text]
    | membership n' => cases op <;> cases n' <;> simp_all [text, CompareOp.text, Sql.membershipText]
  | membership n =>
    cases op' with
    | scalar op' => cases n <;> cases op' <;> simp_all [text, CompareOp.text, Sql.membershipText]
    | membership n' => cases n <;> cases n' <;> simp_all [text, Sql.membershipText]

namespace Comparison

/-- The places for the operands, as they stand after the operator. -/
def places : Comparison → List Char
  | scalar _ _ _ => ['?']
  | membership _ _ _ rest =>
    '(' :: '?' ::
      ((Condition.renderItems (fun _ => "?") (rest.map fun _ => .placeholder)).toList ++ [')'])

theorem toList_text (column : String) (c : Comparison) :
    (c.condition column).text.toList =
      "json_extract(".toList ++ (column.toList ++ (", ".toList ++
        ((Sql.quoteLiteral c.field.jsonPath).toList ++ ')' :: ' ' ::
          (c.comparator.text.toList ++ ' ' :: c.places)))) := by
  cases c with
  | scalar f op operand =>
    simp [Condition.text, condition, Condition.render, Expr.field, Expr.render, field, comparator,
      Comparator.text, places]
  | membership f negated first rest =>
    simp [Condition.text, condition, Condition.render, Expr.field, Expr.render, field, comparator,
      Comparator.text, places]

/-- The text of a comparison tells its field, its operator and how many parameters it takes. -/
theorem readsOnce (column : String) {c d : Comparison} {rest rest' : List Char}
    {ps ps' : List Json}
    (text : (c.condition column).text.toList ++ rest = (d.condition column).text.toList ++ rest')
    (params : c.operands ++ ps = d.operands ++ ps') : c = d ∧ rest = rest' ∧ ps = ps' := by
  simp only [toList_text, List.append_assoc, List.cons_append, List.append_cancel_left_eq] at text
  obtain ⟨path, text⟩ := Sql.quoted_append_inj (by simp) (by simp) text
  have field := FieldPath.jsonPath_inj path
  simp only [List.cons.injEq, true_and] at text
  obtain ⟨op, text⟩ := Comparator.text_append_inj text
  cases c with
  | scalar f o a =>
    cases d with
    | scalar g o' b =>
      cases field
      cases op
      simp only [places, List.cons_append, List.nil_append, List.cons.injEq, true_and] at text
      simp only [operands, List.cons_append, List.nil_append, List.cons.injEq] at params
      exact ⟨by rw [params.1], text, params.2⟩
    | membership g n b bs => cases op
  | membership f n a as =>
    cases d with
    | scalar g o b => cases op
    | membership g n' b bs =>
      cases field
      cases op
      simp only [places, List.cons_append, List.append_assoc, List.nil_append, List.cons.injEq,
        true_and] at text
      obtain ⟨length, text⟩ := Sql.places_append_inj text
      simp only [operands, List.cons_append, List.cons.injEq] at params
      obtain ⟨items, params'⟩ := List.append_inj params.2 length
      exact ⟨by rw [params.1, items], text, params'⟩

end Comparison

/-! ## Predicates -/

namespace Predicate

mutual

/-- The predicate with AND in every junction that has a single part. -/
def merged : Predicate → Predicate
  | compare c => compare c
  | junction op first rest =>
    junction (if rest.isEmpty then .and else op) (merged first) (mergedRest rest)

def mergedRest : List Predicate → List Predicate
  | [] => []
  | p :: ps => merged p :: mergedRest ps

end

/-- A text that may follow a part of a predicate: nothing, or the bracket that closes the part. -/
def Closes (rest : List Char) : Prop := ∀ c ∈ rest.head?, c = ')'

theorem closes_bracket (rest : List Char) : Closes (')' :: rest) := by
  rintro c ⟨⟩
  rfl

theorem toList_bracket_append (rest : List Char) : ")".toList ++ rest = ')' :: rest := rfl

theorem not_closes_separator (op : Connective) (rest : List Char) :
    ¬Closes (op.separator.toList ++ rest) := by
  intro h
  cases op <;> exact absurd (h ' ' rfl) (by decide)

mutual

/-- A predicate is read off the start of a text and of a list of parameters in one way only. -/
theorem readsOnce (column : String) : (p q : Predicate) → {rest rest' : List Char} →
    {ps ps' : List Json} → Closes rest → Closes rest' →
    (p.condition column).text.toList ++ rest = (q.condition column).text.toList ++ rest' →
    p.params ++ ps = q.params ++ ps' → p.merged = q.merged ∧ rest = rest' ∧ ps = ps'
  | compare c, compare d, _, _, _, _, _, _, text, params => by
    obtain ⟨rfl, rest, ps⟩ := Comparison.readsOnce column text params
    exact ⟨rfl, rest, ps⟩
  | compare c, junction op q qs, _, _, _, _, _, _, text, _ => by
    rw [condition, Comparison.toList_text] at text
    simp [Condition.text, condition, Condition.render] at text
  | junction op p ps, compare d, _, _, _, _, _, _, text, _ => by
    rw [condition.eq_1, Comparison.toList_text] at text
    simp [Condition.text, condition, Condition.render] at text
  | junction op p ps, junction op' q qs, rest, rest', more, more', hr, hr', text, params => by
    simp only [Condition.text, condition, Condition.render, String.toList_append,
      List.append_assoc, List.append_cancel_left_eq, toList_bracket_append] at text
    simp only [Predicate.params, List.append_assoc] at params
    obtain ⟨first, text, params⟩ :=
      readsOnce column p q (closes_bracket _) (closes_bracket _) text params
    obtain ⟨others, op, rest, more⟩ :=
      readsOnceRest column op op' ps qs hr hr' (List.cons.inj text).2 params
    refine ⟨?_, rest, more⟩
    rw [merged, merged, first, others, op]

theorem readsOnceRest (column : String) (op op' : Connective) : (ps qs : List Predicate) →
    {rest rest' : List Char} → {more more' : List Json} → Closes rest → Closes rest' →
    (Condition.renderRest (fun _ => "?") op (conditionRest column ps)).toList ++ rest =
      (Condition.renderRest (fun _ => "?") op' (conditionRest column qs)).toList ++ rest' →
    paramsRest ps ++ more = paramsRest qs ++ more' →
    mergedRest ps = mergedRest qs ∧
      (if ps.isEmpty then Connective.and else op) = (if qs.isEmpty then .and else op') ∧
      rest = rest' ∧ more = more'
  | [], [], _, _, _, _, _, _, text, params => ⟨rfl, rfl, text, params⟩
  | [], q :: qs, rest, rest', _, _, hr, _, text, _ => by
    have text : rest = _ := text
    simp only [conditionRest, Condition.renderRest, String.toList_append, List.append_assoc] at text
    exact absurd (text ▸ hr) (not_closes_separator op' _)
  | p :: ps, [], rest, rest', _, _, _, hr', text, _ => by
    have text : _ = rest' := text
    simp only [conditionRest, Condition.renderRest, String.toList_append, List.append_assoc] at text
    exact absurd (text ▸ hr') (not_closes_separator op _)
  | p :: ps, q :: qs, rest, rest', more, more', hr, hr', text, params => by
    simp only [conditionRest, Condition.renderRest, String.toList_append, List.append_assoc] at text
    simp only [paramsRest, List.append_assoc] at params
    obtain ⟨rfl, text⟩ := Sql.Connective.separator_append_inj text
    rw [List.append_cancel_left_eq, toList_bracket_append, toList_bracket_append] at text
    obtain ⟨first, text, params⟩ :=
      readsOnce column p q (closes_bracket _) (closes_bracket _) text params
    obtain ⟨others, -, rest, more⟩ :=
      readsOnceRest column op op ps qs hr hr' (List.cons.inj text).2 params
    exact ⟨by rw [mergedRest, mergedRest, first, others], rfl, rest, more⟩

end

/-! ## Single parts -/

mutual

theorem text_merged (column : String) : (p : Predicate) →
    (p.merged.condition column).text = (p.condition column).text
  | compare c => rfl
  | junction op p ps => by
    have first := text_merged column p
    have others := renderRest_merged column (if ps.isEmpty then .and else op) ps
    simp only [Condition.text] at first
    simp only [Condition.text, merged, condition, Condition.render, first, others]
    cases ps with
    | nil => rfl
    | cons q ps => rfl

theorem renderRest_merged (column : String) (op : Connective) : (ps : List Predicate) →
    Condition.renderRest (fun _ => "?") op (conditionRest column (mergedRest ps)) =
      Condition.renderRest (fun _ => "?") op (conditionRest column ps)
  | [] => rfl
  | p :: ps => by
    have first := text_merged column p
    simp only [Condition.text] at first
    simp only [mergedRest, conditionRest, Condition.renderRest, first, renderRest_merged column op ps]

end

mutual

theorem params_merged : (p : Predicate) → p.merged.params = p.params
  | compare c => rfl
  | junction op p ps => by rw [merged, params, params, params_merged p, paramsRest_merged ps]

theorem paramsRest_merged : (ps : List Predicate) → paramsRest (mergedRest ps) = paramsRest ps
  | [] => rfl
  | p :: ps => by
    rw [mergedRest, paramsRest, paramsRest, params_merged p, paramsRest_merged ps]

end

theorem fragment_merged (column : Column) (p : Predicate) :
    p.merged.fragment column = p.fragment column := by
  rw [fragment, fragment, text_merged, params_merged]

/-- Compiled predicates are uniquely readable: two predicates have the same text and the same
parameters only if they are the same predicate, AND and OR being one in junctions of one part. -/
theorem fragment_eq_iff_merged_eq (column : Column) (p q : Predicate) :
    p.fragment column = q.fragment column ↔ p.merged = q.merged := by
  constructor
  · intro same
    obtain ⟨text, params⟩ := Sql.Fragment.mk.inj same
    have nothing : Closes [] := fun c h => by cases h
    refine (readsOnce column.name p q nothing nothing ?_ (congrArg (· ++ []) params)).1
    exact congrArg (fun s => s.toList ++ []) text
  · intro same
    rw [← fragment_merged column p, ← fragment_merged column q, same]

end Predicate
end DocStore
