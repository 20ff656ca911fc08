import DocStore.Text.Hex
import DocStore.Text.Quoted
import DocStore.Value.Basic

/-! # Outlines

An outline shows a value as JSON, for people and tools that look at values: an array of the kind
and the parts. Integers that need 64 bits are shown as texts, so that no reader of JSON rounds
them; secrets are masked, and of a foreign value only the type is shown. -/
set_option autoImplicit false

namespace DocStore

namespace Outline

def text (s : String) : Json := .string s

def integer (i : Int) : Json := .string (String.ofList (Text.decimalInt i))

/-- An integer that every reader of JSON keeps exact. -/
def small (i : Int) : Json := ((Number.ofInt? i).map Json.number).getD .null

def float (x : Binary64) : Json := .string x.text

def timestamp (t : Timestamp) : Json := .array [integer t.seconds, small t.nanos]

/-- Whole seconds toward zero, and the nanoseconds beyond them. -/
def duration (d : Duration) : Json := .array [integer d.wholeSeconds, small d.restNanos]

def date (d : Date) : Json := .array [small d.year, small d.month, small d.day]

def path (bytes : List UInt8) : Json := .string (Utf8.decodeLossy bytes)

end Outline

namespace Value

open Outline

mutual

def outline : Value → Json
  | null => .array [text "Null"]
  | bool b => .array [text "Bool", .bool b]
  | int i => .array [text "Int", integer i.toInt]
  | uint n => .array [text "UInt", integer n.toNat]
  | float x => .array [text "Float", Outline.float x]
  | string s => .array [text "String", .string s]
  | bytes bs => .array [text "Bytes", .string (Text.ofBytes bs)]
  | timestamp t => .array [text "Timestamp", Outline.timestamp t]
  | date d => .array [text "Date", Outline.date d]
  | duration d => .array [text "Duration", Outline.duration d]
  | uuid u => .array [text "Uuid", .string u.text]
  | ipAddr a => .array [text "IpAddr", .string a.text]
  | socketAddr a => .array [text "SocketAddr", .string a.text]
  | path bs => .array [text "Path", Outline.path bs]
  | secret _ => .array [text "Secret", .string secretMask]
  | enumerated t variant v => .array [text "Enum", .string t, .string variant, outline v]
  | record t fields _ => .array [text "Record", .string t, .array (outlineFields fields)]
  | map entries => .array [text "Map", .array (outlineEntries entries)]
  | list items => .array [text "List", .array (outlineItems items)]
  | foreign t _ => .array [text "Opaque", .string t]

def outlineItems : List Value → List Json
  | [] => []
  | v :: vs => outline v :: outlineItems vs

def outlineEntries : List (Value × Value) → List Json
  | [] => []
  | (k, v) :: entries => .array [outline k, outline v] :: outlineEntries entries

def outlineFields : List (RecordField Value) → List Json
  | [] => []
  | ⟨name, alias?, v⟩ :: fields =>
    .array [.string name, (alias?.map Json.string).getD .null, outline v] :: outlineFields fields

end

/-! ## Texts that hide what they stand for -/

def secretText : String := "Secret(" ++ Text.quoted secretMask ++ ")"

def foreignText (typeName : String) : String := "Opaque(" ++ typeName ++ ")"

end Value

def EncoderRef.text (e : EncoderRef) : String :=
  "CustomEncoder \x7b label: " ++ Text.quoted e.label ++ " \x7d"

def EncoderTable.text (table : EncoderTable) : String :=
  "CustomEncoders([" ++ String.intercalate ", " (table.map EncoderRef.text) ++ "])"

end DocStore
