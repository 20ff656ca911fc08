import DocStore.Error
import DocStore.Sql.Quoting

/-! # Fragments of statements

A fragment is a text with placeholders and the parameters for them, in order. Fragments over
documents are written for a document column, whose name stands in the text without quotes and must
therefore be a plain identifier. -/
set_option autoImplicit false

namespace DocStore.Sql

structure Fragment where
  text : String
  params : List Json

namespace Fragment

def placeholders (f : Fragment) : Nat := countPlaceholders f.text

/-- Whether there is one parameter for each placeholder. -/
def isAligned (f : Fragment) : Bool := f.placeholders == f.params.length

end Fragment

structure Column where
  name : String
  isPlain : isPlainIdentifier name = true

namespace Column

def defaultName : String := "data"

def standard : Column := ⟨defaultName, by decide⟩

def ofName (name : String) : Except Error Column :=
  if h : isPlainIdentifier name = true then .ok ⟨name, h⟩
  else .error (.config (.columnOfCompiler name))

end Column
end DocStore.Sql
