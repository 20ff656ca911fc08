import DocStore.Json.Basic
import DocStore.Net.Address
import DocStore.Text.Utf8
import DocStore.Time.Duration
import DocStore.Time.Timestamp
import DocStore.Uuid

/-! # Application values

A value is what an application stores in a document or compares a field with, before it is encoded
as JSON: the JSON scalars, the common scalars that JSON lacks, and records, maps and lists of
values.

Two kinds of things stay with the application and appear here only by reference. A foreign value is
known by its type name and its identity. A custom encoder is known by its label and its code; what
it does is given separately, as a function of the code. -/
set_option autoImplicit false

namespace DocStore

structure EncoderRef where
  label : String
  code : Nat
deriving DecidableEq

/-- Custom encoders in the order in which they are tried. -/
abbrev EncoderTable := List EncoderRef

/-- A named field; it is emitted under its alias if it has one. -/
structure RecordField (α : Type) where
  name : String
  alias? : Option String
  value : α

def RecordField.key {α : Type} (f : RecordField α) : String := f.alias?.getD f.name

inductive Value where
  | null
  | bool (b : Bool)
  | int (i : Int64)
  | uint (n : UInt64)
  | float (x : Binary64)
  | string (s : String)
  /-- Bytes, stored as the UTF-8 text they are. -/
  | bytes (bytes : List UInt8)
  | timestamp (t : Timestamp)
  | date (d : Date)
  | duration (d : Duration)
  | uuid (u : Uuid)
  | ipAddr (a : IpAddr)
  | socketAddr (a : SocketAddr)
  /-- A file path, which need not be text. -/
  | path (bytes : List UInt8)
  /-- Text that is shown only when it is encoded. -/
  | secret (s : String)
  /-- A named variant of a declared type, stored as its underlying value. -/
  | enumerated (typeName variant : String) (value : Value)
  /-- Named fields of a declared type, with the custom encoders for those fields. -/
  | record (typeName : String) (fields : List (RecordField Value)) (encoders : EncoderTable)
  /-- Entries in insertion order, keyed by any values. -/
  | map (entries : List (Value × Value))
  | list (items : List Value)
  /-- A value that only a custom encoder can handle. -/
  | foreign (typeName : String) (identity : Nat)
deriving Inhabited

/-- The kind of a value, by which a custom encoder may choose. -/
inductive ValueKind where
  | null | bool | int | uint | float | string | bytes | timestamp | date | duration | uuid
  | ipAddr | socketAddr | path | secret | enumerated | record | map | list | foreign
deriving DecidableEq

namespace ValueKind

def all : List ValueKind :=
  [null, bool, int, uint, float, string, bytes, timestamp, date, duration, uuid, ipAddr,
    socketAddr, path, secret, enumerated, record, map, list, foreign]

def name : ValueKind → String
  | null => "Null"
  | bool => "Bool"
  | int => "Int"
  | uint => "UInt"
  | float => "Float"
  | string => "String"
  | bytes => "Bytes"
  | timestamp => "Timestamp"
  | date => "Date"
  | duration => "Duration"
  | uuid => "Uuid"
  | ipAddr => "IpAddr"
  | socketAddr => "SocketAddr"
  | path => "Path"
  | secret => "Secret"
  | enumerated => "Enum"
  | record => "Record"
  | map => "Map"
  | list => "List"
  | foreign => "Opaque"

def ofName? (s : String) : Option ValueKind := all.find? fun k => k.name == s

end ValueKind

namespace Value

def kind : Value → ValueKind
  | null => .null
  | bool _ => .bool
  | int _ => .int
  | uint _ => .uint
  | float _ => .float
  | string _ => .string
  | bytes _ => .bytes
  | timestamp _ => .timestamp
  | date _ => .date
  | duration _ => .duration
  | uuid _ => .uuid
  | ipAddr _ => .ipAddr
  | socketAddr _ => .socketAddr
  | path _ => .path
  | secret _ => .secret
  | enumerated .. => .enumerated
  | record .. => .record
  | map _ => .map
  | list _ => .list
  | foreign .. => .foreign

/-- The declared type of enumerated values, records and foreign values; the kind of all others. -/
def typeName : Value → String
  | enumerated t _ _ => t
  | record t _ _ => t
  | foreign t _ => t
  | v => v.kind.name

def isNull : Value → Bool
  | null => true
  | _ => false

def isJsonScalar : Value → Bool
  | null | bool _ | int _ | uint _ | float _ | string _ => true
  | _ => false

/-- The value under any enumerated wrappers. -/
def unwrapped : Value → Value
  | enumerated _ _ v => v.unwrapped
  | v => v

def field? (name : String) (fields : List (RecordField Value)) : Option Value :=
  (fields.find? fun f => f.name == name).map (·.value)

/-- The text that stands for a secret wherever it is shown. -/
def secretMask : String := "**********"

end Value
end DocStore
