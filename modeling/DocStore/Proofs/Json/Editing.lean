import DocStore.FieldPath
import DocStore.Json.Path
import DocStore.Proofs.Json.RoundTrip
import DocStore.Proofs.Outcome

/-! # Editing nodes at paths

A node fits a number of levels if it opens no more brackets than that and its literals are as they
should be (`Node.Fits`). A part that is set at a path gets one more level for each step of the path,
and the rest of the node keeps its levels; a removal adds none. -/
set_option autoImplicit false

namespace DocStore

namespace Node

/-! ## Levels -/

/-- Whether a node opens at most the given number of brackets at its deepest point, and a condition
holds of all its literals. -/
inductive Fits (literals : String → Prop) : Nat → Node → Prop where
  | null (k : Nat) : Fits literals k .null
  | bool (k : Nat) (b : Bool) : Fits literals k (.bool b)
  | number (k : Nat) {literal : String} (h : literals literal) : Fits literals k (.number literal)
  | string (k : Nat) (s : String) : Fits literals k (.string s)
  | array {k : Nat} {items : List Node} (h : ∀ item ∈ items, Fits literals k item) :
    Fits literals (k + 1) (.array items)
  | object {k : Nat} {members : List (String × Node)} (h : ∀ m ∈ members, Fits literals k m.2) :
    Fits literals (k + 1) (.object members)

variable {literals : String → Prop} {k l : Nat} {n m value : Node}

theorem Fits.mono (h : Fits literals k n) (hl : k ≤ l) : Fits literals l n := by
  induction h generalizing l with
  | null => exact .null l
  | bool k b => exact .bool l b
  | number k h => exact .number l h
  | string k s => exact .string l s
  | array h ih =>
    obtain ⟨l, rfl⟩ := Nat.exists_eq_add_of_le' (Nat.one_le_of_lt hl)
    exact .array fun item mem => ih item mem (Nat.le_of_succ_le_succ hl)
  | object h ih =>
    obtain ⟨l, rfl⟩ := Nat.exists_eq_add_of_le' (Nat.one_le_of_lt hl)
    exact .object fun m mem => ih m mem (Nat.le_of_succ_le_succ hl)

theorem Fits.nesting_le (h : Fits literals k n) : n.nesting ≤ k := by
  induction h with
  | null | bool | number | string => exact Nat.zero_le _
  | array h ih => exact Nat.succ_le_succ (nestingItems_le_iff.mpr ih)
  | object h ih => exact Nat.succ_le_succ (nestingMembers_le_iff.mpr ih)

/-! ## Literals -/

def Readable (literal : String) : Prop := ∃ l, NumberLiteral.read? literal.toList = some l

/-- Whether a text is the literal of a number. -/
def InRange (literal : String) : Prop :=
  ∃ l number, NumberLiteral.read? literal.toList = some l ∧ l.toNumber? = some number

theorem inRange_chars (number : Number) : InRange (String.ofList number.chars) := by
  obtain ⟨read, value⟩ := number.read?_chars
  exact ⟨_, number, by rw [String.toList_ofList, read], value⟩

theorem InRange.readable {literal : String} (h : InRange literal) : Readable literal := by
  obtain ⟨l, number, read, -⟩ := h
  exact ⟨l, read⟩

theorem Fits.written (h : Fits Readable k n) : Written n := by
  induction h with
  | null => exact .null
  | bool k b => exact .bool b
  | number k h => exact .number h.choose_spec
  | string k s => exact .string s
  | array h ih => exact .array ih
  | object h ih => exact .object ih

theorem exists_toItems? {items : List Node} (h : ∀ item ∈ items, ∃ j, item.toJson? = some j) :
    ∃ js, toItems? items = some js := by
  induction items with
  | nil => exact ⟨[], rfl⟩
  | cons item items ih =>
    obtain ⟨⟨j, first⟩, others⟩ := List.forall_mem_cons.mp h
    obtain ⟨js, rest⟩ := ih others
    exact ⟨j :: js, by rw [toItems?, first, rest]; rfl⟩

theorem exists_toMembers? {members : List (String × Node)}
    (h : ∀ m ∈ members, ∃ j, m.2.toJson? = some j) : ∃ js, toMembers? members = some js := by
  induction members with
  | nil => exact ⟨[], rfl⟩
  | cons m members ih =>
    obtain ⟨⟨j, first⟩, others⟩ := List.forall_mem_cons.mp h
    obtain ⟨js, rest⟩ := ih others
    exact ⟨(m.1, j) :: js, by rw [toMembers?, first, rest]; rfl⟩

/-- A node has a value if its literals are those of numbers. -/
theorem Fits.exists_toJson? (h : Fits InRange k n) : ∃ j, n.toJson? = some j := by
  induction h with
  | null => exact ⟨_, rfl⟩
  | bool k b => exact ⟨_, rfl⟩
  | number k h =>
    obtain ⟨l, number, read, value⟩ := h
    exact ⟨.number number, by rw [toJson?, read, Option.bind_eq_bind, Option.bind_some, value]; rfl⟩
  | string k s => exact ⟨_, rfl⟩
  | array h ih =>
    obtain ⟨js, items⟩ := exists_toItems? ih
    exact ⟨.array js, by rw [toJson?, items]; rfl⟩
  | object h ih =>
    obtain ⟨js, members⟩ := exists_toMembers? ih
    exact ⟨Json.ofMembers js, by rw [toJson?, members]; rfl⟩

mutual

/-- The node of a value fits as many levels as it has brackets. -/
theorem fits_ofJson (hl : ∀ number : Number, literals (String.ofList number.chars)) :
    (j : Json) → (k : Nat) → (ofJson j).nesting ≤ k → Fits literals k (ofJson j)
  | .null, k, _ => .null k
  | .bool b, k, _ => .bool k b
  | .number x, k, _ => .number k (hl x)
  | .string s, k, _ => .string k s
  | .array items, k + 1, h => .array (fits_ofItems hl items k (Nat.le_of_succ_le_succ h))
  | .object members, k + 1, h => .object (fits_ofMembers hl members k (Nat.le_of_succ_le_succ h))

theorem fits_ofItems (hl : ∀ number : Number, literals (String.ofList number.chars)) :
    (items : List Json) → (k : Nat) → nestingItems (ofItems items) ≤ k →
      ∀ item ∈ ofItems items, Fits literals k item
  | [], _, _ => fun item mem => by cases mem
  | item :: items, k, h => by
    obtain ⟨first, others⟩ := max_le_iff.mp h
    exact List.forall_mem_cons.mpr ⟨fits_ofJson hl item k first, fits_ofItems hl items k others⟩

theorem fits_ofMembers (hl : ∀ number : Number, literals (String.ofList number.chars)) :
    (members : List (String × Json)) → (k : Nat) → nestingMembers (ofMembers members) ≤ k →
      ∀ m ∈ ofMembers members, Fits literals k m.2
  | [], _, _ => fun m mem => by cases mem
  | (_, value) :: members, k, h => by
    obtain ⟨first, others⟩ := max_le_iff.mp h
    exact List.forall_mem_cons.mpr ⟨fits_ofJson hl value k first, fits_ofMembers hl members k others⟩

end

/-! ## Parts -/

theorem mem_of_member? {name : String} {members : List (String × Node)}
    (h : member? name members = some n) : ∃ m ∈ members, m.2 = n := by
  obtain ⟨m, found, rfl⟩ := Option.map_eq_some_iff.mp h
  exact ⟨m, List.mem_of_find?_eq_some found, rfl⟩

theorem mem_of_mem_setMember {name : String} {part : String × Node}
    {members : List (String × Node)} (h : part ∈ setMember name value members) :
    part.2 = value ∨ part ∈ members := by
  induction members with
  | nil =>
    rw [List.mem_singleton.mp h]
    exact .inl rfl
  | cons m members ih =>
    rw [setMember] at h
    split at h
    · rcases List.mem_cons.mp h with rfl | h
      · exact .inl rfl
      · exact .inr (List.mem_cons_of_mem m h)
    · rcases List.mem_cons.mp h with rfl | h
      · exact .inr (List.mem_cons_self ..)
      · exact (ih h).imp_right (List.mem_cons_of_mem m)

theorem mem_of_mem_eraseMember {name : String} {part : String × Node}
    {members : List (String × Node)} (h : part ∈ eraseMember name members) : part ∈ members := by
  induction members with
  | nil => exact h
  | cons m members ih =>
    rw [eraseMember] at h
    split at h
    · exact List.mem_cons_of_mem m h
    · rcases List.mem_cons.mp h with rfl | h
      · exact List.mem_cons_self ..
      · exact List.mem_cons_of_mem m (ih h)

theorem mem_of_mem_setItem {p : Nat} {part : Node} {items : List Node}
    (h : part ∈ setItem p value items) : part = value ∨ part ∈ items := by
  unfold setItem at h
  split at h
  · exact (List.mem_or_eq_of_mem_set h).symm
  · rcases List.mem_append.mp h with h | h
    · exact .inr h
    · exact .inl (List.mem_singleton.mp h)

theorem mem_of_item? {place : Place} {items : List Node} {p : Nat}
    (h : item? place items = some (p, n)) : n ∈ items := by
  obtain ⟨q, -, h⟩ := Option.bind_eq_some_iff.mp h
  obtain ⟨found, at_q, h⟩ := Option.bind_eq_some_iff.mp h
  cases h
  exact List.mem_of_getElem? at_q

/-! ## Setting and removing -/

theorem fits_startOf (path : List PathStep) : Fits literals (k + path.length) (startOf path) := by
  cases path with
  | nil => exact .null _
  | cons step path =>
    cases step with
    | key name | malformed => exact .object fun m mem => by cases mem
    | item place | badPlace => exact .array fun item mem => by cases mem

/-- A part gets one more level for each step of the path that it is set at. -/
theorem Fits.setAt {path : List PathStep} (hv : Fits literals k value)
    (hn : Fits literals (k + path.length) n) (h : setAt value path n = .ok (some m)) :
    Fits literals (k + path.length) m := by
  fun_induction Node.setAt value path n generalizing m with
  | case1 n =>
    cases h
    exact hv
  | case4 name path members ih =>
    obtain ⟨new, inner, h⟩ := Outcome.bind_eq_ok.mp h
    obtain ⟨part, rfl, rfl⟩ := Option.map_eq_some_iff.mp (Except.ok.inj h)
    cases hn with | object old =>
    have start : Fits literals (k + path.length) ((member? name members).getD (startOf path)) := by
      cases found : member? name members with
      | none => exact fits_startOf path
      | some n =>
        obtain ⟨m, mem, rfl⟩ := mem_of_member? found
        exact old m mem
    refine .object fun m mem => ?_
    rcases mem_of_mem_setMember mem with new | kept
    · exact new ▸ ih start inner
    · exact old m kept
  | case6 place path items p within ih =>
    obtain ⟨new, inner, h⟩ := Outcome.bind_eq_ok.mp h
    obtain ⟨part, rfl, rfl⟩ := Option.map_eq_some_iff.mp (Except.ok.inj h)
    cases hn with | array old =>
    have start : Fits literals (k + path.length) (items[p]?.getD (startOf path)) := by
      cases found : items[p]? with
      | none => exact fits_startOf path
      | some n => exact old n (List.mem_of_getElem? found)
    refine .array fun item mem => ?_
    rcases mem_of_mem_setItem mem with rfl | kept
    · exact ih start inner
    · exact old item kept
  | case2 | case3 | case5 | case7 => cases h

theorem Fits.removeAt {path : List PathStep} (hn : Fits literals k n)
    (h : removeAt path n = .ok (some m)) : Fits literals k m := by
  fun_induction Node.removeAt path n generalizing k m with
  | case4 name path members n found empty =>
    cases h
    cases hn with | object old =>
    exact .object fun m mem => old m (mem_of_mem_eraseMember mem)
  | case5 name path members n found more ih =>
    obtain ⟨new, inner, h⟩ := Outcome.bind_eq_ok.mp h
    obtain ⟨part, rfl, rfl⟩ := Option.map_eq_some_iff.mp (Except.ok.inj h)
    cases hn with | object old =>
    obtain ⟨before, inside, rfl⟩ := mem_of_member? found
    refine .object fun m mem => ?_
    rcases mem_of_mem_setMember mem with new | kept
    · exact new ▸ ih (old before inside) inner
    · exact old m kept
  | case7 place path items p n found empty =>
    cases h
    cases hn with | array old =>
    exact .array fun item mem => old item (List.mem_of_mem_eraseIdx mem)
  | case8 place path items p n found more ih =>
    obtain ⟨new, inner, h⟩ := Outcome.bind_eq_ok.mp h
    obtain ⟨part, rfl, rfl⟩ := Option.map_eq_some_iff.mp (Except.ok.inj h)
    cases hn with | array old =>
    refine .array fun item mem => ?_
    rcases List.mem_or_eq_of_mem_set mem with kept | rfl
    · exact old item kept
    · exact ih (old n (mem_of_item? found)) inner
  | case1 | case2 | case3 | case6 | case9 => cases h

/-! ## The root -/

/-- A change at a path that begins with a key is a change of an object. -/
theorem setAt_key {name : String} {path : List PathStep}
    (h : setAt value (.key name :: path) n = .ok (some m)) : ∃ members, m = .object members := by
  cases n with
  | object members =>
    obtain ⟨new, -, h⟩ := Outcome.bind_eq_ok.mp h
    obtain ⟨part, -, rfl⟩ := Option.map_eq_some_iff.mp (Except.ok.inj h)
    exact ⟨_, rfl⟩
  | null | bool b | number literal | string s | array items => cases h

theorem removeAt_key {name : String} {path : List PathStep}
    (h : removeAt (.key name :: path) n = .ok (some m)) : ∃ members, m = .object members := by
  cases n with
  | object members =>
    rw [removeAt] at h
    split at h
    · cases h
    · split at h
      · cases h
        exact ⟨_, rfl⟩
      · obtain ⟨new, -, h⟩ := Outcome.bind_eq_ok.mp h
        obtain ⟨part, -, rfl⟩ := Option.map_eq_some_iff.mp (Except.ok.inj h)
        exact ⟨_, rfl⟩
  | null | bool b | number literal | string s | array items => cases h

end Node

theorem PathStep.readKey_cases (next : List Char → List PathStep) (cs : List Char) :
    readKey next cs = [.malformed] ∨ ∃ name path, readKey next cs = .key name :: path := by
  unfold readKey
  split
  · split
    · exact .inl rfl
    · exact .inr ⟨_, _, rfl⟩
  · dsimp only
    split
    · exact .inl rfl
    · exact .inr ⟨_, _, rfl⟩

namespace FieldPath

/-- The steps to a field from the root of a document. -/
def steps (f : FieldPath) : List PathStep := PathStep.ofText f.jsonPath

/-- The first step to a field is a key, if the path is well-formed so far. -/
theorem steps_cases (f : FieldPath) :
    f.steps = [.malformed] ∨ ∃ name path, f.steps = .key name :: path := by
  have text : f.jsonPath.toList = '$' :: '.' :: f.text.toList := by
    rw [jsonPath, String.toList_append]
    rfl
  rw [steps, PathStep.ofText, text]
  exact PathStep.readKey_cases _ f.text.toList

end FieldPath
end DocStore
