import DocStore.Decode.Shape
import DocStore.Value.Outline

/-! # Outlines of decoded data

Decoded data is shown as JSON in the manner of the outlines of values: data that has no JSON form of
its own is shown by its parts or by its text. -/
set_option autoImplicit false

namespace DocStore.Shape

/-- Whole seconds, and nanoseconds. -/
def outlineElapsed (t : ElapsedTime) : Json :=
  .array [Outline.integer (t.micros / 1000000), Outline.small (t.micros % 1000000 * 1000)]

def outline : (s : Shape) → s.Carrier → Json
  | json, (j : Json) => .string j.text
  | bool, (b : Bool) => .bool b
  | int64, (i : Int64) => Outline.integer i.toInt
  | int32, (i : Int32) => Outline.integer i.toInt
  | nat64, (n : UInt64) => Outline.integer n.toNat
  | nat32, (n : UInt32) => Outline.integer n.toNat
  | float, (x : Binary64) => Outline.float x
  | string, (s : String) => .string s
  | timestamp, (t : Timestamp) => Outline.timestamp t
  | date, (d : Date) => Outline.date d
  | duration, (d : Duration) => Outline.duration d
  | elapsed, (t : ElapsedTime) => outlineElapsed t
  | uuid, (u : Uuid) => .string u.text
  | ipAddr, (a : IpAddr) => .string a.text
  | socketAddr, (a : SocketAddr) => .string a.text
  | path, (bs : List UInt8) => Outline.path bs
  | secret, (s : Secret) => .array [.string s.exposed, .string Value.secretText]
  | option s, (o : Option s.Carrier) => (o.map s.outline).getD .null
  | list s, (items : List s.Carrier) => .array (items.map s.outline)
  | map s, (members : List (String × s.Carrier)) =>
    Json.ofMembers (members.map fun m => (m.1, s.outline m.2))

end DocStore.Shape
