import DocStore.Decode.Shape

/-! # Reading an object field by field

A missing field reads as null, so a field of an option shape may be absent. An error about the
shape of a field says which field it is. -/
set_option autoImplicit false

namespace DocStore

structure Fields where
  members : List (String × Json)

namespace Fields

def ofJson (j : Json) : Except Error Fields :=
  match j with
  | .object members => .ok ⟨members⟩
  | _ => .error (.unexpected "object" j)

def raw? (f : Fields) (key : String) : Option Json := Json.lookup? key f.members

/-- An error of a field's decoder, with the field's key added to what was found. -/
def locate (key : String) : Error → Error
  | .decode expected found => .decode expected (.field found key)
  | e => e

def get (f : Fields) (key : String) (s : Shape) : Except Error s.Carrier :=
  (s.decode ((f.raw? key).getD .null)).mapError (locate key)

end Fields
end DocStore
