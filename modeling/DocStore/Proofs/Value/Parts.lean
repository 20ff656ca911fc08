import DocStore.Value.Basic

/-! # Parts of values

What stands under the wrappers of a value, what stands in it anywhere and what stands at once below
it. What passes from all that stands at once below a value to the value itself holds of all
values. -/
set_option autoImplicit false

namespace DocStore.Value

theorem unwrapped_eq_self {v : Value} (h : v.kind ≠ .enumerated) : v.unwrapped = v := by
  cases v with
  | enumerated => exact absurd rfl h
  | null | bool | int | uint | float | string | bytes | timestamp | date | duration | uuid
  | ipAddr | socketAddr | path | secret | record | map | list | foreign => rfl

/-- What holds of values that are no wrappers, and passes to a wrapper around a value, holds of all
values. -/
theorem wrapper_induction {motive : Value → Prop}
    (wrapper : ∀ typeName variant v, motive v → motive (enumerated typeName variant v))
    (other : ∀ v, v.kind ≠ .enumerated → motive v) (v : Value) : motive v := by
  induction v using unwrapped.induct with
  | case1 typeName variant v ih => exact wrapper typeName variant v ih
  | case2 v noWrapper =>
    refine other v fun wrapped => ?_
    cases v with
    | enumerated typeName variant v => exact noWrapper typeName variant v rfl
    | null | bool | int | uint | float | string | bytes | timestamp | date | duration | uuid
    | ipAddr | socketAddr | path | secret | record | map | list | foreign => cases wrapped

/-- Whether a value stands somewhere in another, keys of maps included. -/
inductive Part (part : Value) : Value → Prop where
  | self : Part part part
  | enumerated {typeName variant : String} {v : Value} (h : Part part v) :
    Part part (enumerated typeName variant v)
  | field {typeName : String} {fields : List (RecordField Value)} {encoders : EncoderTable}
    {f : RecordField Value} (mem : f ∈ fields) (h : Part part f.value) :
    Part part (record typeName fields encoders)
  | key {entries : List (Value × Value)} {entry : Value × Value} (mem : entry ∈ entries)
    (h : Part part entry.1) : Part part (map entries)
  | entry {entries : List (Value × Value)} {entry : Value × Value} (mem : entry ∈ entries)
    (h : Part part entry.2) : Part part (map entries)
  | item {items : List Value} {v : Value} (mem : v ∈ items) (h : Part part v) :
    Part part (list items)

theorem Part.of_unwrapped {part v : Value} (h : Part part v.unwrapped) : Part part v := by
  induction v using wrapper_induction with
  | wrapper typeName variant v ih => exact .enumerated (ih h)
  | other v kind => exact unwrapped_eq_self kind ▸ h

/-- Whether a value stands in another with nothing between them. -/
inductive Child : Value → Value → Prop where
  | enumerated {typeName variant : String} {v : Value} : Child v (enumerated typeName variant v)
  | field {typeName : String} {fields : List (RecordField Value)} {encoders : EncoderTable}
    {f : RecordField Value} (mem : f ∈ fields) : Child f.value (record typeName fields encoders)
  | key {entries : List (Value × Value)} {entry : Value × Value} (mem : entry ∈ entries) :
    Child entry.1 (map entries)
  | entry {entries : List (Value × Value)} {entry : Value × Value} (mem : entry ∈ entries) :
    Child entry.2 (map entries)
  | item {items : List Value} {v : Value} (mem : v ∈ items) : Child v (list items)

theorem Child.part {part c v : Value} (h : Child c v) (inside : Part part c) : Part part v := by
  cases h with
  | enumerated => exact .enumerated inside
  | field mem => exact .field mem inside
  | key mem => exact .key mem inside
  | entry mem => exact .entry mem inside
  | item mem => exact .item mem inside

theorem Child.sizeOf_lt {c v : Value} (h : Child c v) : sizeOf c < sizeOf v := by
  cases h with
  | enumerated =>
    rw [enumerated.sizeOf_spec]
    omega
  | @field _ fields _ f mem =>
    have listed := List.sizeOf_lt_of_mem mem
    have inside : sizeOf f.value < sizeOf f := by
      rw [RecordField.mk.sizeOf_spec f.name]
      omega
    rw [record.sizeOf_spec]
    omega
  | @key entries entry mem =>
    have listed := List.sizeOf_lt_of_mem mem
    have inside : sizeOf entry.1 < sizeOf entry := by
      rw [Prod.mk.sizeOf_spec entry.1]
      omega
    rw [map.sizeOf_spec]
    omega
  | @entry entries entry mem =>
    have listed := List.sizeOf_lt_of_mem mem
    have inside : sizeOf entry.2 < sizeOf entry := by
      rw [Prod.mk.sizeOf_spec entry.1]
      omega
    rw [map.sizeOf_spec]
    omega
  | item mem =>
    have listed := List.sizeOf_lt_of_mem mem
    rw [list.sizeOf_spec]
    omega

theorem child_induction {motive : Value → Prop}
    (step : ∀ v, (∀ c, Child c v → motive c) → motive v) (v : Value) : motive v :=
  step v fun c _ => child_induction step c
termination_by sizeOf v
decreasing_by
  apply Child.sizeOf_lt
  assumption

end DocStore.Value
