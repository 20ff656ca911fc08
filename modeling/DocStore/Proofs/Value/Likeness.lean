import DocStore.Proofs.Value.Parts
import DocStore.Value.Encoding
import Mathlib.Data.List.Forall2

/-! # What equality of values goes by

Equal values have the same form and equal parts in the same order. Floats in them are the same
number, paths have the same components, and the encoders that records bring do not count. So equal
values need not be encoded alike, and a value with a NaN in it does not equal itself. -/
set_option autoImplicit false

namespace DocStore.Value

/-! ## Likeness -/

/-- Whether a value has no parts and is neither a float nor a path. -/
def IsAtom : Value → Prop
  | float _ | path _ | enumerated .. | record .. | map _ | list _ => False
  | _ => True

section

variable (floats : Binary64 → Binary64 → Prop) (paths : List UInt8 → List UInt8 → Prop)

mutual

/-- Two values of one form with like parts in the same order; floats and paths are alike if they are
related as given, and the encoders of records do not count. -/
inductive Resembles : Value → Value → Prop where
  | atom {v : Value} (h : v.IsAtom) : Resembles v v
  | float {x y : Binary64} (h : floats x y) : Resembles (float x) (float y)
  | path {p q : List UInt8} (h : paths p q) : Resembles (path p) (path q)
  | enumerated {typeName variant : String} {v w : Value} (h : Resembles v w) :
    Resembles (enumerated typeName variant v) (enumerated typeName variant w)
  | record {typeName : String} {fields fields' : List (RecordField Value)}
    {encoders encoders' : EncoderTable} (h : List.Forall₂ ResemblesField fields fields') :
    Resembles (record typeName fields encoders) (record typeName fields' encoders')
  | map {entries entries' : List (Value × Value)}
    (h : List.Forall₂ ResemblesEntry entries entries') : Resembles (map entries) (map entries')
  | list {items items' : List Value} (h : List.Forall₂ Resembles items items') :
    Resembles (list items) (list items')

inductive ResemblesField : RecordField Value → RecordField Value → Prop where
  | intro {name : String} {alias? : Option String} {v w : Value} (value : Resembles v w) :
    ResemblesField ⟨name, alias?, v⟩ ⟨name, alias?, w⟩

inductive ResemblesEntry : Value × Value → Value × Value → Prop where
  | intro {k l v w : Value} (key : Resembles k l) (value : Resembles v w) :
    ResemblesEntry (k, v) (l, w)

end

end

section Forms

variable {floats : Binary64 → Binary64 → Prop} {paths : List UInt8 → List UInt8 → Prop}
  {v w : Value}

theorem resemblesField_iff {f g : RecordField Value} :
    ResemblesField floats paths f g ↔
      f.name = g.name ∧ f.alias? = g.alias? ∧ Resembles floats paths f.value g.value := by
  constructor
  · rintro ⟨value⟩
    exact ⟨rfl, rfl, value⟩
  · obtain ⟨name, alias?, v⟩ := f
    obtain ⟨name', alias?', w⟩ := g
    rintro ⟨rfl, rfl, value⟩
    exact .intro value

theorem resemblesEntry_iff {e e' : Value × Value} :
    ResemblesEntry floats paths e e' ↔
      Resembles floats paths e.1 e'.1 ∧ Resembles floats paths e.2 e'.2 := by
  constructor
  · rintro ⟨key, value⟩
    exact ⟨key, value⟩
  · rintro ⟨key, value⟩
    exact .intro key value

theorem resembles_atom (h : v.IsAtom) : Resembles floats paths v w ↔ w = v := by
  constructor
  · intro same
    cases same with
    | atom => rfl
    | float | path | enumerated | record | map | list => exact h.elim
  · rintro rfl
    exact .atom h

theorem resembles_float {x : Binary64} :
    Resembles floats paths (float x) w ↔ ∃ y, w = float y ∧ floats x y := by
  constructor
  · intro same
    cases same with
    | atom h => exact h.elim
    | float h => exact ⟨_, rfl, h⟩
  · rintro ⟨y, rfl, h⟩
    exact .float h

theorem resembles_path {p : List UInt8} :
    Resembles floats paths (path p) w ↔ ∃ q, w = path q ∧ paths p q := by
  constructor
  · intro same
    cases same with
    | atom h => exact h.elim
    | path h => exact ⟨_, rfl, h⟩
  · rintro ⟨q, rfl, h⟩
    exact .path h

theorem resembles_enumerated {typeName variant : String} :
    Resembles floats paths (enumerated typeName variant v) w ↔
      ∃ w', w = enumerated typeName variant w' ∧ Resembles floats paths v w' := by
  constructor
  · intro same
    cases same with
    | atom h => exact h.elim
    | enumerated h => exact ⟨_, rfl, h⟩
  · rintro ⟨w', rfl, h⟩
    exact .enumerated h

theorem resembles_record {typeName : String} {fields : List (RecordField Value)}
    {encoders : EncoderTable} :
    Resembles floats paths (record typeName fields encoders) w ↔
      ∃ fields' encoders', w = record typeName fields' encoders' ∧
        List.Forall₂ (ResemblesField floats paths) fields fields' := by
  constructor
  · intro same
    cases same with
    | atom h => exact h.elim
    | record h => exact ⟨_, _, rfl, h⟩
  · rintro ⟨fields', encoders', rfl, h⟩
    exact .record h

theorem resembles_map {entries : List (Value × Value)} :
    Resembles floats paths (map entries) w ↔
      ∃ entries', w = map entries' ∧ List.Forall₂ (ResemblesEntry floats paths) entries entries' := by
  constructor
  · intro same
    cases same with
    | atom h => exact h.elim
    | map h => exact ⟨_, rfl, h⟩
  · rintro ⟨entries', rfl, h⟩
    exact .map h

theorem resembles_list {items : List Value} :
    Resembles floats paths (list items) w ↔
      ∃ items', w = list items' ∧ List.Forall₂ (Resembles floats paths) items items' := by
  constructor
  · intro same
    cases same with
    | atom h => exact h.elim
    | list h => exact ⟨_, rfl, h⟩
  · rintro ⟨items', rfl, h⟩
    exact .list h

end Forms

/-! ## Equality -/

def SameNumber (x y : Binary64) : Prop := x.equals y = true

def SamePath (p q : List UInt8) : Prop := FilePath.components p = FilePath.components q

/-- Lists that are compared member by member, as far as the members of the first are compared by a
relation. -/
theorem forall₂_of_compared {α : Type} {compared : List α → List α → Bool} {R : α → α → Prop}
    (same : α → α → Bool) (nil : compared [] [] = true)
    (left : ∀ a as, compared (a :: as) [] = false) (right : ∀ b bs, compared [] (b :: bs) = false)
    (cons : ∀ a as b bs, compared (a :: as) (b :: bs) = (same a b && compared as bs))
    {as bs : List α} (h : ∀ a ∈ as, ∀ b, same a b = true ↔ R a b) :
    compared as bs = true ↔ List.Forall₂ R as bs := by
  induction as generalizing bs with
  | nil => cases bs <;> simp [nil, right]
  | cons a as ih =>
    obtain ⟨first, others⟩ := List.forall_mem_cons.mp h
    cases bs with
    | nil => simp [left]
    | cons b bs => rw [cons, Bool.and_eq_true, first, ih others, List.forall₂_cons]

theorem equalsItems_iff {items items' : List Value}
    (h : ∀ v ∈ items, ∀ w, v.equals w = true ↔ Resembles SameNumber SamePath v w) :
    equalsItems items items' = true ↔
      List.Forall₂ (Resembles SameNumber SamePath) items items' := by
  refine forall₂_of_compared equals ?_ ?_ ?_ ?_ h
  all_goals simp [equalsItems]

theorem equalsEntries_iff {entries entries' : List (Value × Value)}
    (h : ∀ e ∈ entries, (∀ w, e.1.equals w = true ↔ Resembles SameNumber SamePath e.1 w) ∧
      ∀ w, e.2.equals w = true ↔ Resembles SameNumber SamePath e.2 w) :
    equalsEntries entries entries' = true ↔
      List.Forall₂ (ResemblesEntry SameNumber SamePath) entries entries' := by
  refine forall₂_of_compared (fun e e' => e.1.equals e'.1 && e.2.equals e'.2) ?_ ?_ ?_ ?_ ?each
  case each =>
    intro e mem e'
    obtain ⟨key, value⟩ := h e mem
    rw [Bool.and_eq_true, key, value, resemblesEntry_iff]
  all_goals simp [equalsEntries]

theorem equalsFields_iff {fields fields' : List (RecordField Value)}
    (h : ∀ f ∈ fields, ∀ w, f.value.equals w = true ↔ Resembles SameNumber SamePath f.value w) :
    equalsFields fields fields' = true ↔
      List.Forall₂ (ResemblesField SameNumber SamePath) fields fields' := by
  refine forall₂_of_compared
    (fun f g => f.name == g.name && f.alias? == g.alias? && f.value.equals g.value)
    ?_ ?_ ?_ ?_ ?each
  case each =>
    intro f mem g
    rw [Bool.and_eq_true, Bool.and_eq_true, h f mem, beq_iff_eq, beq_iff_eq, and_assoc,
      resemblesField_iff]
  · rw [equalsFields]
  · intro f fs
    unfold equalsFields
    rfl
  · intro g gs
    unfold equalsFields
    rfl
  · intro f fs g gs
    rw [equalsFields]

theorem equals_iff_of_isAtom {v w : Value} (h : v.IsAtom) :
    v.equals w = true ↔ Resembles SameNumber SamePath v w := by
  rw [resembles_atom h]
  constructor
  · intro same
    unfold equals at same
    split at same <;> simp_all [IsAtom]
  · rintro rfl
    cases w <;> simp_all [equals, IsAtom]

/-- Equality goes by the form and the parts of values. -/
theorem equals_iff (v : Value) : ∀ w, v.equals w = true ↔ Resembles SameNumber SamePath v w := by
  induction v using child_induction with
  | step v ih =>
  intro w
  cases v with
  | float x =>
    rw [resembles_float]
    cases w <;> simp [equals, SameNumber]
  | path p =>
    rw [resembles_path]
    cases w <;> simp [equals, SamePath]
  | enumerated typeName variant v =>
    have inner := ih v .enumerated
    rw [resembles_enumerated]
    cases w <;> simp [equals, inner, @eq_comm _ typeName, @eq_comm _ variant]
  | record typeName fields encoders =>
    have each (fields' : List (RecordField Value)) : equalsFields fields fields' = true ↔
        List.Forall₂ (ResemblesField SameNumber SamePath) fields fields' :=
      equalsFields_iff fun f mem => ih f.value (.field mem)
    rw [resembles_record]
    cases w <;> simp [equals, each, @eq_comm _ typeName]
  | map entries =>
    have each (entries' : List (Value × Value)) : equalsEntries entries entries' = true ↔
        List.Forall₂ (ResemblesEntry SameNumber SamePath) entries entries' :=
      equalsEntries_iff fun e mem => ⟨ih e.1 (.key mem), ih e.2 (.entry mem)⟩
    rw [resembles_map]
    cases w <;> simp [equals, each]
  | list items =>
    have each (items' : List Value) : equalsItems items items' = true ↔
        List.Forall₂ (Resembles SameNumber SamePath) items items' :=
      equalsItems_iff fun v mem => ih v (.item mem)
    rw [resembles_list]
    cases w <;> simp [equals, each]
  | null | bool | int | uint | string | bytes | timestamp | date | duration | uuid | ipAddr
  | socketAddr | secret | foreign => exact equals_iff_of_isAtom trivial

/-! ## A value and itself -/

theorem sameNumber_self_iff {x : Binary64} : SameNumber x x ↔ x.isNaN = false := by
  simp [SameNumber, Binary64.equals]

theorem floats_of_resembles_self {floats : Binary64 → Binary64 → Prop}
    {paths : List UInt8 → List UInt8 → Prop} {v : Value} {x : Binary64}
    (inside : Part (float x) v) : Resembles floats paths v v → floats x x := by
  intro h
  induction inside with
  | self =>
    obtain ⟨y, same, h⟩ := resembles_float.mp h
    cases same
    exact h
  | enumerated _ ih =>
    obtain ⟨w, same, h⟩ := resembles_enumerated.mp h
    cases same
    exact ih h
  | field mem _ ih =>
    obtain ⟨_, _, same, each⟩ := resembles_record.mp h
    cases same
    exact ih (resemblesField_iff.mp (List.forall₂_same.mp each _ mem)).2.2
  | key mem _ ih =>
    obtain ⟨_, same, each⟩ := resembles_map.mp h
    cases same
    exact ih (resemblesEntry_iff.mp (List.forall₂_same.mp each _ mem)).1
  | entry mem _ ih =>
    obtain ⟨_, same, each⟩ := resembles_map.mp h
    cases same
    exact ih (resemblesEntry_iff.mp (List.forall₂_same.mp each _ mem)).2
  | item mem _ ih =>
    obtain ⟨_, same, each⟩ := resembles_list.mp h
    cases same
    exact ih (List.forall₂_same.mp each _ mem)

theorem resembles_self {floats : Binary64 → Binary64 → Prop}
    {paths : List UInt8 → List UInt8 → Prop} (refl : ∀ p, paths p p) (v : Value) :
    (∀ x, Part (float x) v → floats x x) → Resembles floats paths v v := by
  induction v using child_induction with
  | step v ih =>
  intro same
  have child (c : Value) (h : Child c v) : Resembles floats paths c c :=
    ih c h fun x inside => same x (h.part inside)
  cases v with
  | float x => exact .float (same x .self)
  | path p => exact .path (refl p)
  | enumerated typeName variant v => exact .enumerated (child v .enumerated)
  | record typeName fields encoders =>
    refine .record (List.forall₂_same.mpr fun f mem => ?_)
    exact resemblesField_iff.mpr ⟨rfl, rfl, child f.value (.field mem)⟩
  | map entries =>
    refine .map (List.forall₂_same.mpr fun e mem => ?_)
    exact resemblesEntry_iff.mpr ⟨child e.1 (.key mem), child e.2 (.entry mem)⟩
  | list items => exact .list (List.forall₂_same.mpr fun v mem => child v (.item mem))
  | null | bool | int | uint | string | bytes | timestamp | date | duration | uuid | ipAddr
  | socketAddr | secret | foreign => exact .atom trivial

end DocStore.Value
