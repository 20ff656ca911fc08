import DocStore.Sql.Quoting
import DocStore.Text.Split

/-! # Field paths

A field of a document is named by a path: names separated by dots, such as `address.city`. Any text
is accepted as a path and kept as it is. -/
set_option autoImplicit false

namespace DocStore

structure FieldPath where
  text : String
deriving DecidableEq

namespace FieldPath

def segments (p : FieldPath) : List String :=
  (splitBy (· == '.') p.text.toList).map String.ofList

def child (p : FieldPath) (name : String) : FieldPath :=
  if p.text.isEmpty then ⟨name⟩ else ⟨p.text ++ "." ++ name⟩

/-- The path as the engine's JSON functions take it. -/
def jsonPath (p : FieldPath) : String := "$." ++ p.text

/-- Whether no key of a path can be both in quotes and escaped. The engine takes a backslash in a
quoted key for an escape, where paths are read here as they are written. -/
def Unescaped (p : FieldPath) : Prop := '"' ∉ p.text.toList ∨ '\\' ∉ p.text.toList

instance (p : FieldPath) : Decidable p.Unescaped := inferInstanceAs (Decidable (_ ∨ _))

/-- The order of paths by the characters of their texts. -/
def compare (p q : FieldPath) : Ordering :=
  if p.text < q.text then .lt else if p.text = q.text then .eq else .gt

end FieldPath
end DocStore
