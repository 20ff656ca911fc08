import DocStore.FilePath
import DocStore.Value.Basic

/-! # Equality of values

Two values are equal if they have the same shape and equal parts. Floats compare by value, so a NaN
differs from itself and the two zeros are equal; foreign values compare by identity; paths
compare by their components; the custom encoders of a record are behaviour and take no part. -/
set_option autoImplicit false

namespace DocStore.Value

mutual

def equals : Value → Value → Bool
  | null, null => true
  | bool a, bool b => a == b
  | int a, int b => a == b
  | uint a, uint b => a == b
  | float a, float b => a.equals b
  | string a, string b => a == b
  | bytes a, bytes b => a == b
  | timestamp a, timestamp b => a == b
  | date a, date b => a == b
  | duration a, duration b => a == b
  | uuid a, uuid b => a == b
  | ipAddr a, ipAddr b => a == b
  | socketAddr a, socketAddr b => a == b
  | path a, path b => FilePath.components a == FilePath.components b
  | secret a, secret b => a == b
  | enumerated t v a, enumerated u w b => t == u && v == w && equals a b
  | record t fs _, record u gs _ => t == u && equalsFields fs gs
  | map as, map bs => equalsEntries as bs
  | list as, list bs => equalsItems as bs
  | foreign t a, foreign u b => t == u && a == b
  | _, _ => false

def equalsItems : List Value → List Value → Bool
  | [], [] => true
  | a :: as, b :: bs => equals a b && equalsItems as bs
  | _, _ => false

def equalsEntries : List (Value × Value) → List (Value × Value) → Bool
  | [], [] => true
  | (k, a) :: as, (l, b) :: bs => equals k l && equals a b && equalsEntries as bs
  | _, _ => false

def equalsFields : List (RecordField Value) → List (RecordField Value) → Bool
  | [], [] => true
  | ⟨n, a, v⟩ :: fs, ⟨m, b, w⟩ :: gs => n == m && a == b && equals v w && equalsFields fs gs
  | _, _ => false

end

/-- Whether a custom encoder returned its input; a float is compared by its bits, so a NaN counts
as returned and a zero of the other sign does not. -/
def unchanged (output input : Value) : Bool :=
  match output, input with
  | float a, float b => a == b
  | a, b => a.equals b

end DocStore.Value
