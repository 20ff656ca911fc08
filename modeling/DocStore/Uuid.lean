import DocStore.Text.Digits

/-! # Universally unique identifiers

Identifiers of 128 bits. The written form is lower-case hexadecimal in five groups; reading also
accepts the digits without hyphens, the groups in braces, and the groups after `urn:uuid:`. -/
set_option autoImplicit false

namespace DocStore

structure Uuid where
  value : BitVec 128
deriving DecidableEq

namespace Uuid

def digits (u : Uuid) : List Char := Text.padZeros 32 (Text.hex u.value.toNat)

def groups : List Nat := [8, 4, 4, 4, 12]

def cut : List Nat → List Char → List (List Char)
  | [], _ => []
  | n :: ns, cs => cs.take n :: cut ns (cs.drop n)

def text (u : Uuid) : String := String.ofList (List.intercalate ['-'] (cut groups u.digits))

/-! ## Reading -/

def ofDigits? (cs : List Char) : Option Uuid := do
  guard (cs.length = 32)
  let n ← Text.readNat? 16 cs
  pure ⟨BitVec.ofNat 128 n⟩

def ofGroups? (cs : List Char) : Option Uuid := do
  guard (cs.length = 36)
  let marks := [8, 13, 18, 23]
  guard (marks.all fun i => cs[i]? == some '-')
  ofDigits? (cs.filter (· != '-'))

def read? (text : String) : Option Uuid :=
  let cs := text.toList
  if cs.length = 32 then ofDigits? cs
  else if cs.length = 36 then ofGroups? cs
  else if cs.length = 38 ∧ cs.head? = some '\x7b' ∧ cs.getLast? = some '\x7d' then
    ofGroups? (cs.drop 1).dropLast
  else if (cs.take 9).map Char.toLower = "urn:uuid:".toList then ofGroups? (cs.drop 9)
  else none

end Uuid
end DocStore
