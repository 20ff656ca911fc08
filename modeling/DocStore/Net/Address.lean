import DocStore.Text.Digits
import DocStore.Text.Split

/-! # Network addresses

Addresses of both protocol versions and sockets, with the text forms they are written in and read
from. The written form of a version 6 address shortens its first longest run of at least two zero
groups, and writes a mapped version 4 address with dots. -/
set_option autoImplicit false

namespace DocStore

/-- An address of the internet protocol. A version 6 address has eight groups. -/
inductive IpAddr where
  | v4 (octets : Vector UInt8 4)
  | v6 (groups : Vector UInt16 8)
deriving DecidableEq

/-- An address with a port. Flow and zone belong to version 6 addresses and are zero otherwise; the
flow is no part of the text. -/
structure SocketAddr where
  address : IpAddr
  port : UInt16
  flow : UInt32
  zone : UInt32
deriving DecidableEq

namespace IpAddr

/-! ## Writing -/

def v4Chars (octets : List Nat) : List Char :=
  List.intercalate ['.'] (octets.map Text.decimal)

def zeroRun (groups : List Nat) : Nat := (groups.takeWhile (· == 0)).length

/-- Start and length of the first longest run of zeros among the groups from `index` on. -/
def longestZeroRun (index : Nat) : List Nat → Nat × Nat
  | [] => (index, 0)
  | g :: rest =>
    let here := zeroRun (g :: rest)
    let later := longestZeroRun (index + 1) rest
    if later.2 ≤ here then (index, here) else later

def groupsChars (groups : List Nat) : List Char :=
  List.intercalate [':'] (groups.map Text.hex)

def v6Chars (groups : List Nat) : List Char :=
  let (start, length) := longestZeroRun 0 groups
  if groups.take 6 = [0, 0, 0, 0, 0, 0xFFFF] then
    let tail := (groups.drop 6).flatMap fun g => [g / 256, g % 256]
    "::ffff:".toList ++ v4Chars tail
  else if 2 ≤ length then
    groupsChars (groups.take start) ++ [':', ':'] ++ groupsChars (groups.drop (start + length))
  else groupsChars groups

def chars : IpAddr → List Char
  | .v4 octets => v4Chars (octets.toList.map UInt8.toNat)
  | .v6 groups => v6Chars (groups.toList.map UInt16.toNat)

def text (a : IpAddr) : String := String.ofList a.chars

/-! ## Reading -/

/-- A decimal number from 0 to 255 without leading zeros. -/
def readOctet? (cs : List Char) : Option Nat := do
  guard (cs.length ≤ 3 ∧ (cs.length = 1 ∨ cs.head? ≠ some '0'))
  let n ← Text.readNat? 10 cs
  guard (n < 256)
  pure n

def readOctets? (cs : List Char) : Option (List Nat) := do
  let octets ← (splitBy (· == '.') cs).mapM readOctet?
  guard (octets.length = 4)
  pure octets

def readGroup? (cs : List Char) : Option Nat := do
  guard (cs.length ≤ 4)
  Text.readNat? 16 cs

/-- The groups written with colons between; the last part may be a version 4 address, which counts
as two groups. -/
def readGroups? : List (List Char) → Option (List Nat)
  | [] => some []
  | [part] =>
    if part.contains '.' then do
      let octets ← readOctets? part
      match octets with
      | [a, b, c, d] => pure [a * 256 + b, c * 256 + d]
      | _ => none
    else (readGroup? part).map ([·])
  | part :: parts => do
    let g ← readGroup? part
    let gs ← readGroups? parts
    pure (g :: gs)

def splitAtGap : List Char → Option (List Char × List Char)
  | ':' :: ':' :: rest => some ([], rest)
  | c :: rest => (splitAtGap rest).map fun (before, after) => (c :: before, after)
  | [] => none

/-- The groups of a part beside the gap, which may be empty. -/
def readSide? (allowOctets : Bool) (cs : List Char) : Option (List Nat) :=
  if cs.isEmpty then some []
  else if !allowOctets && cs.contains '.' then none
  else readGroups? (splitBy (· == ':') cs)

def readV6Groups? (cs : List Char) : Option (List Nat) :=
  match splitAtGap cs with
  | some (before, after) => do
    let head ← readSide? false before
    let tail ← readSide? true after
    guard (head.length + tail.length ≤ 7)
    pure (head ++ List.replicate (8 - head.length - tail.length) 0 ++ tail)
  | none => do
    let groups ← readGroups? (splitBy (· == ':') cs)
    guard (groups.length = 8)
    pure groups

def readV4? (cs : List Char) : Option IpAddr := do
  let octets ← readOctets? cs
  match octets with
  | [a, b, c, d] =>
    pure (.v4 #v[UInt8.ofNat a, UInt8.ofNat b, UInt8.ofNat c, UInt8.ofNat d])
  | _ => none

def readV6? (cs : List Char) : Option IpAddr := do
  let groups ← readV6Groups? cs
  if h : groups.length = 8 then
    pure (.v6 ⟨(groups.map UInt16.ofNat).toArray, by simp [h]⟩)
  else none

def readChars? (cs : List Char) : Option IpAddr :=
  (readV4? cs).orElse fun _ => readV6? cs

def read? (text : String) : Option IpAddr := readChars? text.toList

end IpAddr

namespace SocketAddr

def chars (s : SocketAddr) : List Char :=
  let port := ':' :: Text.decimal s.port.toNat
  match s.address with
  | .v4 _ => s.address.chars ++ port
  | .v6 _ =>
    let zone := if s.zone = 0 then [] else '%' :: Text.decimal s.zone.toNat
    '[' :: s.address.chars ++ zone ++ ']' :: port

def text (s : SocketAddr) : String := String.ofList s.chars

/-! ## Reading -/

/-- A decimal number below `limit`; leading zeros are allowed. -/
def readBelow? (limit : Nat) (cs : List Char) : Option Nat := do
  let n ← Text.readNat? 10 cs
  guard (n < limit)
  pure n

def readPort? (cs : List Char) : Option UInt16 := (readBelow? 65536 cs).map UInt16.ofNat

/-- A version 4 address, a colon and a port. -/
def readV4? (cs : List Char) : Option SocketAddr :=
  match splitBy (· == ':') cs with
  | [host, port] => do
    let address ← IpAddr.readV4? host
    let port ← readPort? port
    pure { address, port, flow := 0, zone := 0 }
  | _ => none

/-- A version 6 address in brackets, perhaps with a zone, a colon and a port. -/
def readV6? : List Char → Option SocketAddr
  | '[' :: rest =>
    match splitBy (· == ']') rest with
    | [host, ':' :: port] => do
      let port ← readPort? port
      match splitBy (· == '%') host with
      | [host] => do
        let address ← IpAddr.readV6? host
        pure { address, port, flow := 0, zone := 0 }
      | [host, zone] => do
        let address ← IpAddr.readV6? host
        let zone ← readBelow? 4294967296 zone
        pure { address, port, flow := 0, zone := UInt32.ofNat zone }
      | _ => none
    | _ => none
  | _ => none

def read? (text : String) : Option SocketAddr :=
  (readV4? text.toList).orElse fun _ => readV6? text.toList

end SocketAddr
end DocStore
