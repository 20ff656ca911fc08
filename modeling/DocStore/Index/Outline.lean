import DocStore.Index.Diff
import DocStore.Value.Outline

/-! # Outlines of indexes

Descriptors and differences of lists of indexes shown as JSON. -/
set_option autoImplicit false

namespace DocStore

def IndexDescriptor.outline (d : IndexDescriptor) : Json :=
  .array [.string d.kind.text, .string d.field.text, .string d.name]

def IndexDiff.outline (d : IndexDiff) : Json :=
  Json.ofMembers [("create", .array (d.create.map IndexDescriptor.outline)),
    ("drop", .array (d.drop.map IndexDescriptor.outline)), ("empty", .bool d.isEmpty)]

end DocStore
