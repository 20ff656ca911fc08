import DocStore.Decode.Shape
import DocStore.Value.Basic

/-! # Making values

Values from the types an application has at hand: JSON, unsigned integers, single-precision
numbers and durations without sign, and from data of any shape. -/
set_option autoImplicit false

namespace DocStore.Value

/-- An unsigned integer; only one beyond the signed range keeps the unsigned kind. -/
def ofNat64 (n : UInt64) : Value :=
  if n.toNat < 9223372036854775808 then .int (Int64.ofInt n.toNat) else .uint n

def ofNumber : Number → Value
  | .int i _ => if i < 9223372036854775808 then .int (Int64.ofInt i) else .uint (UInt64.ofNat i.toNat)
  | .float x _ => .float x

def ofSingle (x : Binary64) : Value := .float x.toSingle

/-- A duration of seconds and nanoseconds; one beyond the greatest duration becomes that. -/
def ofElapsed (seconds : UInt64) (nanos : Nat) : Value :=
  .duration (Duration.clamp (seconds.toNat * 1000000000 + nanos))

mutual

/-- The value of a JSON value, with objects as maps keyed by strings. -/
def ofJson : Json → Value
  | .null => .null
  | .bool b => .bool b
  | .number n => ofNumber n
  | .string s => .string s
  | .array items => .list (ofItems items)
  | .object members => .map (ofMembers members)

def ofItems : List Json → List Value
  | [] => []
  | item :: items => ofJson item :: ofItems items

def ofMembers : List (String × Json) → List (Value × Value)
  | [] => []
  | (key, value) :: members => (.string key, ofJson value) :: ofMembers members

end

end DocStore.Value

namespace DocStore

/-- The value of data. An option is what it holds or null; the entries of a map are listed in the
order in which its data has them. -/
def Shape.toValue : (s : Shape) → s.Carrier → Value
  | json, (j : Json) => .ofJson j
  | bool, (b : Bool) => .bool b
  | int64, (i : Int64) => .int i
  | int32, (i : Int32) => .int i.toInt64
  | nat64, (n : UInt64) => .ofNat64 n
  | nat32, (n : UInt32) => .int (Int64.ofInt n.toNat)
  | float, (x : Binary64) => .float x
  | string, (s : String) => .string s
  | timestamp, (t : Timestamp) => .timestamp t
  | date, (d : Date) => .date d
  | duration, (d : Duration) => .duration d
  | elapsed, (t : ElapsedTime) =>
    .ofElapsed (UInt64.ofNat (t.micros / 1000000)) (t.micros % 1000000 * 1000)
  | uuid, (u : Uuid) => .uuid u
  | ipAddr, (a : IpAddr) => .ipAddr a
  | socketAddr, (a : SocketAddr) => .socketAddr a
  | path, (bs : List UInt8) => .path bs
  | secret, (s : Secret) => .secret s.exposed
  | option s, (o : Option s.Carrier) => o.elim .null s.toValue
  | list s, (items : List s.Carrier) => .list (items.map s.toValue)
  | map s, (members : List (String × s.Carrier)) =>
    .map (members.map fun m => (.string m.1, s.toValue m.2))

end DocStore
