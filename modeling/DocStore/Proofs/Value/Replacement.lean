import DocStore.Proofs.Value.Likeness

/-! # Output that takes the place of its input

The output of the first matching encoder is encoded in place of its input, one level deeper, unless
it counts as the input returned. It does not count by being the input: floats inside it are compared
as numbers, paths by their components, and the encoders of records not at all. So an output may
differ from its input in these three things and still be dropped; where there are none of them, an
output is dropped only if it is the input. -/
set_option autoImplicit false

namespace DocStore.Value

/-! ## What counts as returned -/

/-- Whether the output of a custom encoder counts as its input: a float by its bits, anything else
as data. -/
inductive CountsAsReturned : Value → Value → Prop where
  | float (x : Binary64) : CountsAsReturned (float x) (float x)
  | data {output input : Value} (compound : ∀ x, input ≠ float x)
    (alike : Resembles SameNumber SamePath output input) : CountsAsReturned output input

theorem unchanged_iff {output input : Value} :
    unchanged output input = true ↔ CountsAsReturned output input := by
  constructor
  · intro h
    unfold unchanged at h
    split at h
    · next x y =>
      obtain rfl := eq_of_beq h
      exact .float x
    · next other =>
      have alike := (equals_iff output input).mp h
      refine .data (fun y same => ?_) alike
      subst same
      cases alike with
      | atom plain => exact plain
      | @float x _ _ => exact other x y rfl rfl
  · intro h
    cases h with
    | float x => exact beq_self_eq_true x
    | data compound alike =>
      unfold unchanged
      split
      · next x y => exact absurd rfl (compound y)
      · exact (equals_iff output input).mpr alike

/-! ## Outputs that are never dropped -/

/-- Whether nothing stands in a value that equality overlooks: no record brings encoders, and there
are no paths and no zeros. -/
structure Telling (v : Value) : Prop where
  records : ∀ typeName fields encoders, Part (record typeName fields encoders) v → encoders = []
  paths : ∀ p, ¬Part (path p) v
  zeros : ∀ x, Part (float x) v → x.isZero = false

theorem Telling.child {c v : Value} (h : Telling v) (inside : Child c v) : Telling c where
  records typeName fields encoders part := h.records typeName fields encoders (inside.part part)
  paths p part := h.paths p (inside.part part)
  zeros x part := h.zeros x (inside.part part)

theorem eq_of_forall₂ {α : Type} {R : α → α → Prop} {as bs : List α}
    (each : List.Forall₂ R as bs) (h : ∀ a ∈ as, ∀ b ∈ bs, R a b → a = b) : as = bs := by
  induction each with
  | nil => rfl
  | cons first _ ih =>
    have head := h _ (List.mem_cons_self ..) _ (List.mem_cons_self ..) first
    rw [head, ih fun a ha b hb => h a (List.mem_cons_of_mem _ ha) b (List.mem_cons_of_mem _ hb)]

theorem Telling.eq (w : Value) :
    ∀ v, Telling w → Telling v → Resembles SameNumber SamePath w v → w = v := by
  induction w using child_induction with
  | step w ih =>
  intro v telling telling' alike
  have child {c d : Value} (inside : Child c w) (inside' : Child d v)
      (alike : Resembles SameNumber SamePath c d) : c = d :=
    ih c inside d (telling.child inside) (telling'.child inside') alike
  cases alike with
  | atom => rfl
  | @float x y same =>
    have nonzero := telling.zeros x .self
    unfold SameNumber Binary64.equals at same
    simp [nonzero] at same
    rw [same.2]
  | @path p => exact absurd .self (telling.paths p)
  | enumerated inner => rw [child .enumerated .enumerated inner]
  | @record typeName fields fields' encoders encoders' each =>
    rw [telling.records typeName fields encoders .self,
      telling'.records typeName fields' encoders' .self, eq_of_forall₂ each]
    rintro _ mem _ mem' ⟨value⟩
    exact congrArg _ (child (.field mem) (.field mem') value)
  | map each =>
    rw [eq_of_forall₂ each]
    rintro _ mem _ mem' ⟨key, value⟩
    exact Prod.ext (child (.key mem) (.key mem') key) (child (.entry mem) (.entry mem') value)
  | list each =>
    rw [eq_of_forall₂ each fun c mem d mem' => child (.item mem) (.item mem')]

/-! ## One level -/

section

variable {transforms : Transforms} {levels : Nat} {o : EncodeOptions} {v w : Value}

theorem encodeWithin_returned (first : o.encoders.apply transforms v = some w)
    (h : CountsAsReturned w v) :
    encodeWithin transforms (levels + 1) o v =
      encodeBuiltin (encodeWithin transforms levels) o v := by
  simp only [encodeWithin, first]
  exact if_pos (unchanged_iff.mpr h)

theorem encodeWithin_output (first : o.encoders.apply transforms v = some w)
    (h : ¬CountsAsReturned w v) :
    encodeWithin transforms (levels + 1) o v = encodeWithin transforms levels o w := by
  simp only [encodeWithin, first]
  exact if_neg fun same => h (unchanged_iff.mp same)

end

/-- The output of the first matching encoder is encoded in place of its input, one level deeper,
unless it counts as returned; then the input is encoded by the built-in rules. Where neither has
records with encoders, paths or zeros in it, an output counts only if it is the input. -/
theorem encodeWithin_replaced (transforms : Transforms) (levels : Nat) (o : EncodeOptions)
    {v w : Value} (first : o.encoders.apply transforms v = some w) :
    (¬CountsAsReturned w v →
      encodeWithin transforms (levels + 1) o v = encodeWithin transforms levels o w) ∧
    (CountsAsReturned w v →
      encodeWithin transforms (levels + 1) o v =
        encodeBuiltin (encodeWithin transforms levels) o v) ∧
    (Telling w → Telling v → w ≠ v →
      encodeWithin transforms (levels + 1) o v = encodeWithin transforms levels o w) := by
  refine ⟨encodeWithin_output first, encodeWithin_returned first, ?_⟩
  intro telling telling' differs
  apply encodeWithin_output first
  intro returned
  cases returned with
  | float x => exact differs rfl
  | data _ alike => exact differs (telling.eq w v telling' alike)

/-! ## Outputs that are dropped -/

def login (encoders : EncoderTable) : Value :=
  .record "Login" [⟨"password", none, .string "hunter2"⟩] encoders

/-- Encoders that mask texts, give a login the encoder that does so, write a path in another way and
change the sign of a zero. -/
def adjusting : Transforms
  | 0, .string _ => some (.string "***")
  | 1, .record _ _ _ => some (login [⟨"mask", 0⟩])
  | 2, .path _ => some (.path [0x61, 0x2F, 0x62])
  | 3, .list _ => some (.list [.float (.ofRank true 0)])
  | _, _ => none

theorem encodeWithin_replaced_login :
    (CountsAsReturned (login [⟨"mask", 0⟩]) (login []) ∧
      encodeWithin adjusting 101 { encoders := [⟨"guard", 1⟩] } (login []) =
        encodeBuiltin (encodeWithin adjusting 100) { encoders := [⟨"guard", 1⟩] } (login [])) ∧
    (¬CountsAsReturned (string "***") (string "hunter2") ∧
      encodeWithin adjusting 100 { encoders := [⟨"mask", 0⟩] } (string "hunter2") =
        encodeWithin adjusting 99 { encoders := [⟨"mask", 0⟩] } (string "***")) ∧
    Telling (string "***") ∧ Telling (string "hunter2") ∧ string "***" ≠ string "hunter2" ∧
      encodeWithin adjusting 100 { encoders := [⟨"mask", 0⟩] } (string "hunter2") =
        .ok (.string "***") := by
  have guarded : EncoderTable.apply adjusting [⟨"guard", 1⟩] (login []) =
      some (login [⟨"mask", 0⟩]) := rfl
  have masked : EncoderTable.apply adjusting [⟨"mask", 0⟩] (string "hunter2") =
      some (string "***") := rfl
  have returned : CountsAsReturned (login [⟨"mask", 0⟩]) (login []) :=
    .data nofun (.record (.cons (.intro (.atom trivial)) .nil))
  have telling (s : String) : Telling (string s) := ⟨nofun, nofun, nofun⟩
  have differs : string "***" ≠ string "hunter2" := by
    intro same
    exact absurd (Value.string.inj same) (by decide)
  have replaced : ¬CountsAsReturned (string "***") (string "hunter2") := by
    intro h
    cases h with
    | data _ alike => exact differs (Telling.eq _ _ (telling _) (telling _) alike)
  obtain ⟨-, builtin, -⟩ :=
    encodeWithin_replaced adjusting 100 { encoders := [⟨"guard", 1⟩] } guarded
  obtain ⟨output, -, different⟩ :=
    encodeWithin_replaced adjusting 99 { encoders := [⟨"mask", 0⟩] } masked
  have masks : encodeWithin adjusting 99 { encoders := [⟨"mask", 0⟩] } (string "***") =
      .ok (.string "***") := by
    with_unfolding_all rfl
  exact ⟨⟨returned, builtin returned⟩, ⟨replaced, output replaced⟩, telling _, telling _, differs,
    (different (telling _) (telling _) differs).trans masks⟩

/-- What is dropped makes a difference: the encoder of a record, the sign of a zero inside an
output and the form of a path. -/
theorem encodeWithin_dropped :
    (EncoderTable.apply adjusting [⟨"guard", 1⟩] (login []) = some (login [⟨"mask", 0⟩]) ∧
      login [⟨"mask", 0⟩] ≠ login [] ∧
      (login []).encode adjusting { encoders := [⟨"guard", 1⟩] } =
        .ok (.object [("password", .string "hunter2")]) ∧
      encodeWithin adjusting maxNesting { encoders := [⟨"guard", 1⟩] } (login [⟨"mask", 0⟩]) =
        .ok (.object [("password", .string "***")])) ∧
    (EncoderTable.apply adjusting [⟨"turn", 3⟩] (list [float (.ofRank false 0)]) =
        some (list [float (.ofRank true 0)]) ∧
      (list [float (.ofRank false 0)]).encode adjusting { encoders := [⟨"turn", 3⟩] } =
        .ok (.array [.number (.float (.ofRank false 0) (by decide))]) ∧
      encodeWithin adjusting maxNesting { encoders := [⟨"turn", 3⟩] }
          (list [float (.ofRank true 0)]) =
        .ok (.array [.number (.float (.ofRank true 0) (by decide))])) ∧
    EncoderTable.apply adjusting [⟨"tidy", 2⟩] (path [0x61, 0x2F, 0x2F, 0x62]) =
        some (path [0x61, 0x2F, 0x62]) ∧
      (path [0x61, 0x2F, 0x2F, 0x62]).encode adjusting { encoders := [⟨"tidy", 2⟩] } =
        .ok (.string "a//b") ∧
      encodeWithin adjusting maxNesting { encoders := [⟨"tidy", 2⟩] } (path [0x61, 0x2F, 0x62]) =
        .ok (.string "a/b") := by
  refine ⟨⟨rfl, ?_, ?_, ?_⟩, ⟨rfl, ?_, ?_⟩, rfl, ?_, ?_⟩
  · intro h
    cases h
  all_goals with_unfolding_all rfl

end DocStore.Value
