import DocStore.Text.Digits

/-! # UTF-8

Bytes are read one at a time. After a leading byte the reader knows how many more bytes the
character owes and between which bounds the next of them must lie; a byte outside the bounds ends
the ill-formed part before it and is itself looked at afresh. -/
set_option autoImplicit false

namespace DocStore.Utf8

/-- A character begun: the bits so far, the bytes still owed, the bounds of the next byte, and the
number of bytes already read. -/
structure Pending where
  code : Nat
  owed : Nat
  low : Nat
  high : Nat
  length : Nat

inductive Part where
  | char (c : Char)
  /-- Bytes that begin no character; the next byte rules out what they began. -/
  | illFormed (length : Nat)
  /-- The beginning of a character at the end of the input. -/
  | incomplete (length : Nat)

/-- What a byte between characters begins or stands for. -/
def start (byte : Nat) : List Part × Option Pending :=
  let pend (code owed low high : Nat) : List Part × Option Pending :=
    ([], some { code, owed, low, high, length := 1 })
  if byte < 0x80 then ([.char (Char.ofNat byte)], none)
  else if byte < 0xC2 then ([.illFormed 1], none)
  else if byte < 0xE0 then pend (byte - 0xC0) 1 0x80 0xBF
  else if byte = 0xE0 then pend 0 2 0xA0 0xBF
  else if byte = 0xED then pend 0xD 2 0x80 0x9F
  else if byte < 0xF0 then pend (byte - 0xE0) 2 0x80 0xBF
  else if byte = 0xF0 then pend 0 3 0x90 0xBF
  else if byte < 0xF4 then pend (byte - 0xF0) 3 0x80 0xBF
  else if byte = 0xF4 then pend 4 3 0x80 0x8F
  else ([.illFormed 1], none)

/-- One byte: the parts it completes and the character it leaves begun. -/
def step (pending : Option Pending) (byte : Nat) : List Part × Option Pending :=
  match pending with
  | none => start byte
  | some p =>
    if p.low ≤ byte ∧ byte ≤ p.high then
      let code := p.code * 64 + (byte - 0x80)
      if p.owed = 1 then ([.char (Char.ofNat code)], none)
      else
        ([], some { code, owed := p.owed - 1, low := 0x80, high := 0xBF, length := p.length + 1 })
    else
      let (parts, next) := start byte
      (.illFormed p.length :: parts, next)

def parts (pending : Option Pending) : List UInt8 → List Part
  | [] =>
    match pending with
    | none => []
    | some p => [.incomplete p.length]
  | byte :: bytes =>
    let (done, next) := step pending byte.toNat
    done ++ parts next bytes

/-! ## Decoding -/

/-- Why bytes are not UTF-8: the length of the valid part, and the number of ill-formed bytes
unless the input ends inside a character. -/
structure DecodeError where
  validUpTo : Nat
  length : Option Nat
deriving DecidableEq

def DecodeError.message (e : DecodeError) : String :=
  match e.length with
  | some k =>
    "invalid utf-8 sequence of " ++ toString k ++ " bytes from index " ++ toString e.validUpTo
  | none => "incomplete utf-8 byte sequence from index " ++ toString e.validUpTo

def decodeParts (index : Nat) : List Part → Except DecodeError (List Char)
  | [] => .ok []
  | .char c :: rest => do
    let cs ← decodeParts (index + c.utf8Size) rest
    .ok (c :: cs)
  | .illFormed length :: _ => .error ⟨index, some length⟩
  | .incomplete _ :: _ => .error ⟨index, none⟩

def decode (bytes : List UInt8) : Except DecodeError String :=
  (decodeParts 0 (parts none bytes)).map String.ofList

/-- The text of bytes with the replacement character for each ill-formed part. -/
def decodeLossy (bytes : List UInt8) : String :=
  String.ofList ((parts none bytes).map fun
    | .char c => c
    | .illFormed _ => '\uFFFD'
    | .incomplete _ => '\uFFFD')

/-! ## Encoding -/

def encodeChar (c : Char) : List UInt8 :=
  let n := c.toNat
  let tail (shift : Nat) : UInt8 := UInt8.ofNat (0x80 + n / shift % 64)
  if n < 0x80 then [UInt8.ofNat n]
  else if n < 0x800 then [UInt8.ofNat (0xC0 + n / 64), tail 1]
  else if n < 0x10000 then [UInt8.ofNat (0xE0 + n / 4096), tail 64, tail 1]
  else [UInt8.ofNat (0xF0 + n / 262144), tail 4096, tail 64, tail 1]

def encode (s : String) : List UInt8 := s.toList.flatMap encodeChar

end DocStore.Utf8
