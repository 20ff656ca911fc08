import DocStore.Text.Digits
import DocStore.Text.Unprintable

/-! # Quoted text

Text as messages quote it: between double quotes, with the quote, the backslash and everything that
cannot be printed escaped. -/
set_option autoImplicit false

namespace DocStore.Text

def escapeQuoted (c : Char) : List Char :=
  if c = '"' then ['\\', '"']
  else if c = '\\' then ['\\', '\\']
  else if c = '\n' then ['\\', 'n']
  else if c = '\r' then ['\\', 'r']
  else if c = '\t' then ['\\', 't']
  else if c.toNat = 0 then ['\\', '0']
  else if isUnprintable c then ['\\', 'u', '\x7b'] ++ hex c.toNat ++ ['\x7d']
  else [c]

def quoted (s : String) : String :=
  String.ofList ('"' :: s.toList.flatMap escapeQuoted ++ ['"'])

end DocStore.Text
