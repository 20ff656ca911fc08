import DocStore.Text.Digits

/-! # Bytes in hexadecimal

Two digits for each byte, the high half first. -/
set_option autoImplicit false

namespace DocStore.Text

def hexByte (b : UInt8) : List Char := padZeros 2 (hex b.toNat)

def ofBytes (bytes : List UInt8) : String := String.ofList (bytes.flatMap hexByte)

def readHexBytes? : List Char → Option (List UInt8)
  | [] => some []
  | [_] => none
  | high :: low :: rest => do
    let h ← hexValue? high
    let l ← hexValue? low
    let bytes ← readHexBytes? rest
    pure (UInt8.ofNat (16 * h + l) :: bytes)

def bytes? (text : String) : Option (List UInt8) := readHexBytes? text.toList

end DocStore.Text
