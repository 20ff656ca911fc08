import DocStore.Proofs.Sql.Brackets
import DocStore.Proofs.Sql.Filling
import DocStore.Query.Predicate

/-! # What a compiled predicate reads

`Predicate.inlined` writes a predicate down directly, with the operands of each comparison in their
places. The compiled text has places instead, and its parameters are bound by position. Filling the
places gives what `inlined` writes (`Predicate.fragment_fill`), whatever the fields of the
comparisons are: quotes, question marks and brackets in them are inside quotes. -/
set_option autoImplicit false

namespace DocStore

open Sql (CompareOp Connective Condition Column Expr Fills Fragment Solid StandsIn)

/-! ## Writing operands in their places -/

def FieldPath.extraction (column : String) (f : FieldPath) : String :=
  "json_extract(" ++ column ++ ", " ++ Sql.quoteLiteral f.jsonPath ++ ")"

/-- A comparison with its operands written out. -/
def Comparison.inlined (shown : Json → String) (column : String) : Comparison → String
  | scalar f op operand => f.extraction column ++ " " ++ op.text ++ " " ++ shown operand
  | membership f negated first rest =>
    f.extraction column ++ " " ++ Sql.membershipText negated ++ " (" ++
      ", ".intercalate ((first :: rest).map shown) ++ ")"

namespace Predicate

mutual

/-- A predicate with all operands written out, each part of a junction in parentheses. -/
def inlined (shown : Json → String) (column : String) : Predicate → String
  | compare c => c.inlined shown column
  | junction op first rest =>
    op.separator.intercalate
      (("(" ++ inlined shown column first ++ ")") :: inlinedParts shown column rest)

def inlinedParts (shown : Json → String) (column : String) : List Predicate → List String
  | [] => []
  | p :: ps => ("(" ++ inlined shown column p ++ ")") :: inlinedParts shown column ps

end

end Predicate

/-! ## Fixed parts of the text -/

namespace Sql

theorem CompareOp.solid_text (op : CompareOp) : Solid op.text := by
  cases op <;> exact Solid.of_chars (by decide) (by decide)

theorem CompareOp.fills_text (op : CompareOp) : Fills op.text [] op.text := by
  cases op <;> exact Fills.fixed (by decide) (by decide)

theorem solid_membershipText (negated : Bool) : Solid (membershipText negated) := by
  cases negated <;> exact Solid.of_chars (by decide) (by decide)

theorem fills_membershipText (negated : Bool) :
    Fills (membershipText negated) [] (membershipText negated) := by
  cases negated <;> exact Fills.fixed (by decide) (by decide)

theorem Connective.solid_separator (op : Connective) : Solid op.separator := by
  cases op <;> exact Solid.of_chars (by decide) (by decide)

theorem Connective.fills_separator (op : Connective) :
    Fills op.separator [] op.separator := by
  cases op <;> exact Fills.fixed (by decide) (by decide)

theorem intercalate_cons_eq_join (separator t : String) (ts : List String) :
    separator.intercalate (t :: ts) = t ++ String.join (ts.map (separator ++ ·)) := by
  induction ts generalizing t with
  | nil => simp
  | cons u ts ih =>
    rw [String.intercalate_cons_cons, ih u, List.map_cons, String.join_cons, String.append_assoc,
      String.append_assoc]

/-! ## Fields -/

theorem text_field (column : String) (f : FieldPath) :
    (Expr.field column f).text =
      "json_extract(" ++ column ++ ", " ++ quoteLiteral f.jsonPath ++ ")" := rfl

theorem fills_field (column : Column) (f : FieldPath) :
    Fills (Expr.field column.name f).text [] (f.extraction column.name) := by
  rw [text_field]
  have hcolumn : Fills column.name [] column.name := Fills.plain column.isPlain
  have hopen : Fills "json_extract(" [] "json_extract(" := Fills.fixed (by decide) (by decide)
  have hcomma : Fills ", " [] ", " := Fills.fixed (by decide) (by decide)
  have hclose : Fills ")" [] ")" := Fills.fixed (by decide) (by decide)
  exact (((hopen.append hcolumn).append hcomma).append (Fills.literal _)).append hclose

theorem solid_field (column : Column) (f : FieldPath) :
    Solid (Expr.field column.name f).text := by
  have hname : Solid "json_extract" := Solid.of_chars (by decide) (by decide)
  have hcomma : Solid ", " := Solid.of_chars (by decide) (by decide)
  have hargs : Solid (column.name ++ ", " ++ quoteLiteral f.jsonPath) :=
    ((Solid.plain column.isPlain).append hcomma).append (Solid.quoted (.inl rfl) _)
  have h := Solid.enclosed "json_extract(" rfl hname hargs
  rw [text_field]
  simp only [String.append_assoc] at h ⊢
  exact h

/-! ## Lists of places -/

theorem fills_places (shown : Json → String) (js : List Json) :
    Fills (Condition.renderItems (fun _ => "?") (js.map fun _ => .placeholder)) (js.map shown)
      (String.join ((js.map shown).map (", " ++ ·))) := by
  induction js with
  | nil => exact Fills.empty
  | cons j js ih =>
    have hcomma : Fills ", " [] ", " := Fills.fixed (by decide) (by decide)
    have h := ((hcomma.append (Fills.placeholder (shown j))).append ih)
    simp only [List.map_cons, String.join_cons]
    exact h

theorem solid_places (js : List Json) :
    Solid ("?" ++ Condition.renderItems (fun _ => "?") (js.map fun _ => .placeholder)) := by
  have hplace : Solid "?" := Solid.of_chars (by decide) (by decide)
  have hcomma : Solid ", " := Solid.of_chars (by decide) (by decide)
  suffices h : ∀ s, Solid s →
      Solid (s ++ Condition.renderItems (fun _ => "?") (js.map fun _ => .placeholder)) from
    h "?" hplace
  induction js with
  | nil =>
    intro s hs
    simpa [Condition.renderItems] using hs
  | cons j js ih =>
    intro s hs
    have h := ih (s ++ (", " ++ "?")) (hs.append (hcomma.append hplace))
    rw [String.append_assoc] at h
    exact h

end Sql

/-! ## Comparisons -/

namespace Comparison

theorem fills_text (shown : Json → String) (column : Column) (c : Comparison) :
    Fills (c.condition column.name).text (c.operands.map shown) (c.inlined shown column.name) := by
  have hspace : Fills " " [] " " := Fills.fixed (by decide) (by decide)
  have hopen : Fills " (" [] " (" := Fills.fixed (by decide) (by decide)
  have hclose : Fills ")" [] ")" := Fills.fixed (by decide) (by decide)
  cases c with
  | scalar f op operand =>
    have hleft := ((Sql.fills_field column f).append hspace).append op.fills_text
    exact (hleft.append hspace).append (Fills.placeholder (shown operand))
  | membership f negated first rest =>
    have hleft :=
      ((Sql.fills_field column f).append hspace).append (Sql.fills_membershipText negated)
    have hlist := (Fills.placeholder (shown first)).append (Sql.fills_places shown rest)
    have h := ((hleft.append hopen).append hlist).before hclose
    rw [Condition.text, condition, Condition.render, inlined, List.map_cons,
      Sql.intercalate_cons_eq_join]
    simp only [String.append_assoc] at h ⊢
    exact h

theorem solid_text (column : Column) (c : Comparison) :
    Solid (c.condition column.name).text := by
  have hspace : Solid " " := Solid.of_chars (by decide) (by decide)
  cases c with
  | scalar f op operand =>
    have hplace : Solid "?" := Solid.of_chars (by decide) (by decide)
    exact ((((Sql.solid_field column f).append hspace).append op.solid_text).append hspace).append
      hplace
  | membership f negated first rest =>
    have hlist := Solid.enclosed " (" rfl hspace (Sql.solid_places rest)
    have h := (((Sql.solid_field column f).append hspace).append
      (Sql.solid_membershipText negated)).append hlist
    rw [Condition.text, condition, Condition.render]
    simp only [String.append_assoc] at h ⊢
    exact h

end Comparison

/-! ## Predicates -/

namespace Predicate

section Filling
variable (shown : Json → String) (column : Column)

theorem fills_bracketed {a b : String} {ts : List String} (h : Fills a ts b) :
    Fills ("(" ++ a ++ ")") ts ("(" ++ b ++ ")") :=
  (h.after (Fills.fixed (by decide) (by decide))).before (Fills.fixed (by decide) (by decide))

mutual

theorem fills_text : ∀ p : Predicate,
    Fills (p.condition column.name).text (p.params.map shown) (p.inlined shown column.name)
  | compare c => c.fills_text shown column
  | junction op first rest => by
    have h := (fills_bracketed (fills_text first)).append (fills_rest op rest)
    rw [← Sql.intercalate_cons_eq_join, ← List.map_append] at h
    exact h

theorem fills_rest (op : Connective) : ∀ ps : List Predicate,
    Fills (Condition.renderRest (fun _ => "?") op (conditionRest column.name ps))
      ((paramsRest ps).map shown)
      (String.join ((inlinedParts shown column.name ps).map (op.separator ++ ·)))
  | [] => Fills.empty
  | p :: ps => by
    have h := ((fills_bracketed (fills_text p)).after op.fills_separator).append (fills_rest op ps)
    rw [← String.join_cons, ← List.map_append] at h
    rw [conditionRest, Condition.renderRest, paramsRest, inlinedParts, List.map_cons]
    simp only [String.append_assoc] at h ⊢
    exact h

end

end Filling

/-! ## Empty lists -/

mutual

theorem solid_text (column : Column) : ∀ p : Predicate, Solid (p.condition column.name).text
  | compare c => c.solid_text column
  | junction op first rest => solid_rest column op rest _ (solid_text column first).bracketed

theorem solid_rest (column : Column) (op : Connective) : ∀ (ps : List Predicate) (s : String),
    Solid s → Solid (s ++ Condition.renderRest (fun _ => "?") op (conditionRest column.name ps))
  | [], s, hs => by
    simpa [conditionRest, Condition.renderRest] using hs
  | p :: ps, s, hs => by
    have hp := op.solid_separator.append (solid_text column p).bracketed
    have h := solid_rest column op ps _ (hs.append hp)
    rw [conditionRest, Condition.renderRest]
    simp only [String.append_assoc] at h ⊢
    exact h

end

theorem not_standsIn_of_solid {s : String} (hs : Solid s) : ¬StandsIn "IN ()".toList s.toList := by
  rintro ⟨before, after, e, hb⟩
  refine hs.bare ⟨before ++ ['I', 'N', ' '], after, by simp [e], ?_⟩
  rw [Sql.scanFrom_append, hb]
  rfl

/-- Parameters of a compiled predicate are bound where they belong: there is one for each place, the
text with the parameters in their places is the predicate written out, and no list is empty. -/
theorem fragment_fill (column : Column) (p : Predicate) (shown : Json → String) :
    (p.fragment column).placeholders = (p.fragment column).params.length ∧
      Sql.fill (p.fragment column).text ((p.fragment column).params.map shown) =
        p.inlined shown column.name ∧
      ¬StandsIn "IN ()".toList (p.fragment column).text.toList := by
  have h := fills_text shown column p
  refine ⟨?_, h.reads, not_standsIn_of_solid (solid_text column p)⟩
  have hcount := h.count
  rw [List.length_map] at hcount
  exact hcount

end Predicate
end DocStore
