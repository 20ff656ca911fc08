/-! # Splitting lists

A list is split at its marks; there is one part more than there are marks, and parts may be
empty. -/
set_option autoImplicit false

namespace DocStore

/-- The parts of a list between the elements that are marks. -/
def splitBy {α : Type} (isMark : α → Bool) : List α → List (List α)
  | [] => [[]]
  | a :: rest =>
    if isMark a then [] :: splitBy isMark rest
    else
      match splitBy isMark rest with
      | [] => [[a]]
      | part :: parts => (a :: part) :: parts

end DocStore
