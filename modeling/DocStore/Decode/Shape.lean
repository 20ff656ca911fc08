import DocStore.Error
import DocStore.Value.Basic

/-! # Decoding JSON into typed data

A shape says what kind of data a JSON value is expected to hold; its carrier is the type of that
data. Decoding undoes encoding: timestamps and durations come back from seconds, identifiers and
addresses from their text. A shape is an option, a list or a map of other shapes, or a scalar. -/
set_option autoImplicit false

namespace DocStore

/-- Text that is shown only on request. -/
structure Secret where
  exposed : String
deriving DecidableEq

/-- A length of time without sign, in microseconds. -/
structure ElapsedTime where
  micros : Nat
deriving DecidableEq

inductive Shape where
  | json
  | bool
  | int64
  | int32
  | nat64
  | nat32
  | float
  | string
  | timestamp
  | date
  | duration
  | elapsed
  | uuid
  | ipAddr
  | socketAddr
  | path
  | secret
  | option (s : Shape)
  | list (s : Shape)
  | map (s : Shape)

namespace Shape

/-- The data of a shape. -/
abbrev Carrier : Shape → Type
  | json => Json
  | bool => Bool
  | int64 => Int64
  | int32 => Int32
  | nat64 => UInt64
  | nat32 => UInt32
  | float => Binary64
  | string => String
  | timestamp => Timestamp
  | date => Date
  | duration => Duration
  | elapsed => ElapsedTime
  | uuid => Uuid
  | ipAddr => IpAddr
  | socketAddr => SocketAddr
  | path => List UInt8
  | secret => Secret
  | option s => Option s.Carrier
  | list s => List s.Carrier
  | map s => List (String × s.Carrier)

/-! ## Scalars -/

/-- What a decoder answers when a value is missing the expected form. -/
def orUnexpected {α : Type} (expected : String) (j : Json) (a : Option α) : Except Error α :=
  match a with
  | some a => .ok a
  | none => .error (.unexpected expected j)

def decodeText {α : Type} (expected : String) (read? : String → Option α) (j : Json) :
    Except Error α :=
  orUnexpected expected j (j.string?.bind read?)

/-- A number of seconds as whole microseconds. -/
def decodeMicros (expected : String) (j : Json) : Except Error Int :=
  orUnexpected expected j (j.number?.map fun n => n.toBinary64.secondsToMicros)

/-- A timestamp from seconds or from internet date and time text. -/
def decodeTimestamp (j : Json) : Except Error Timestamp :=
  match j with
  | .string s => orUnexpected "timestamp" j (Timestamp.read? s)
  | _ => do
    let micros ← decodeMicros "timestamp" j
    orUnexpected "timestamp" j (Timestamp.ofMicros? micros)

def decodeElapsed (j : Json) : Except Error ElapsedTime := do
  let micros ← decodeMicros "duration" j
  if micros < 0 then throw (.unexpected "non-negative duration" j) else pure ⟨micros.toNat⟩

def toInt32? (i : Int) : Option Int32 :=
  if -2147483648 ≤ i ∧ i < 2147483648 then some (Int32.ofInt i) else none

def toNat32? (n : Nat) : Option UInt32 :=
  if n < 4294967296 then some (UInt32.ofNat n) else none

/-! ## All shapes -/

def decodeMembers {α : Type} (decode : Json → Except Error α) :
    List (String × Json) → Except Error (List (String × α))
  | [] => .ok []
  | (key, value) :: members => do
    let a ← decode value
    let rest ← decodeMembers decode members
    pure ((key, a) :: rest)

/-- The data of the given shape that a JSON value holds. -/
def decode : (s : Shape) → Json → Except Error s.Carrier
  | json, j => .ok j
  | bool, j => orUnexpected "boolean" j j.bool?
  | int64, j =>
    orUnexpected "integer" j ((j.number?.bind Number.toInt64?).map Int64.ofInt)
  | int32, j =>
    orUnexpected "32-bit integer" j ((j.number?.bind Number.toInt64?).bind toInt32?)
  | nat64, j =>
    orUnexpected "unsigned integer" j ((j.number?.bind Number.toNat64?).map UInt64.ofNat)
  | nat32, j =>
    orUnexpected "32-bit unsigned integer" j ((j.number?.bind Number.toNat64?).bind toNat32?)
  | float, j => orUnexpected "number" j (j.number?.map Number.toBinary64)
  | string, j => orUnexpected "string" j j.string?
  | timestamp, j => decodeTimestamp j
  | date, j => decodeText "date" Date.read? j
  | duration, j => (decodeMicros "duration" j).map Duration.ofMicros
  | elapsed, j => decodeElapsed j
  | uuid, j => decodeText "uuid" Uuid.read? j
  | ipAddr, j => decodeText "ip address" IpAddr.read? j
  | socketAddr, j => decodeText "socket address" SocketAddr.read? j
  | path, j => (orUnexpected "path" j j.string?).map Utf8.encode
  | secret, j => (orUnexpected "secret" j j.string?).map Secret.mk
  | option s, j => if j.isNull then .ok none else (s.decode j).map some
  | list s, j =>
    match j with
    | .array items => items.mapM s.decode
    | _ => .error (.unexpected "array" j)
  | map s, j =>
    match j with
    | .object members => decodeMembers s.decode members
    | _ => .error (.unexpected "object" j)

end Shape
end DocStore
