import DocStore.Error
import DocStore.Value.Equality

/-! # Encoding values as JSON

Encoding reduces a value to JSON. At each level the custom encoders are tried first, in order; the
first that matches replaces the value, and its output is encoded one level deeper, unless it
returned its input. Otherwise scalars and the common types have a fixed form, records and maps
become objects, lists become arrays, and a foreign value fails.

Levels are counted down from a budget, so a custom encoder that keeps matching its own output ends
in an error like any other value that is too deep. -/
set_option autoImplicit false

namespace DocStore

def maxNesting : Nat := 100

/-- The output of a custom encoder, by its code: nothing if the encoder does not match. -/
abbrev Transforms := Nat → Value → Option Value

def noTransforms : Transforms := fun _ _ => none

def EncoderTable.apply (transforms : Transforms) (table : EncoderTable) (v : Value) :
    Option Value :=
  table.findSome? fun e => transforms e.code v

structure EncodeOptions where
  /-- Names of fields and keys of entries to leave out. -/
  exclude : List String := []
  keepNulls : Bool := true
  encoders : EncoderTable := []

namespace EncodeOptions

/-- The options for the levels below: nothing is left out there. -/
def nested (o : EncodeOptions) : EncodeOptions := { o with exclude := [] }

def excludes (o : EncodeOptions) (key : String) : Bool := o.exclude.contains key

end EncodeOptions

namespace Value

/-! ## Scalars -/

/-- A double as JSON; `typeName` is the type of the value it came from. -/
def encodeFloat (typeName : String) (x : Binary64) : Except Error Json :=
  match Number.ofBinary64? x with
  | some n => .ok (.number n)
  | none => .error (.unencodable typeName (.notFinite x))

def encodePath (bytes : List UInt8) : Except Error Json :=
  match FilePath.text? bytes with
  | some s => .ok (.string s)
  | none => .error (.invalidText "Path" (.path (Utf8.decodeLossy bytes)))

def encodeBytes (bytes : List UInt8) : Except Error Json :=
  match Utf8.decode bytes with
  | .ok s => .ok (.string s)
  | .error e => .error (.invalidText "Bytes" (.bytes e))

/-- The text of a scalar that stands as the key of a member. -/
def keyText? : Json → Option String
  | .string s => some s
  | .number n => some (String.ofList n.chars)
  | .bool true => some "true"
  | .bool false => some "false"
  | .null => some "null"
  | _ => none

/-! ## One level -/

/-- How the values below are encoded, given their options. -/
abbrev Below := EncodeOptions → Value → Except Error Json

/-- The member of a record field, unless the field is left out. -/
def encodeField (below : Below) (o : EncodeOptions) (encoders : EncoderTable)
    (f : RecordField Value) : Except Error (Option (String × Json)) :=
  if o.excludes f.name || o.excludes f.key then .ok none
  else if f.value.isNull && !o.keepNulls then .ok none
  else do
    let j ← below { exclude := [], keepNulls := o.keepNulls, encoders } f.value
    pure (some (f.key, j))

/-- The key of a map entry as text. Enumerated wrappers around a key do not count as levels. -/
def encodeKey (below : Below) (o : EncodeOptions) (key : Value) : Except Error String := do
  let j ← below o.nested key.unwrapped
  match keyText? j with
  | some s => pure s
  | none => throw (.unencodable key.unwrapped.typeName (.compoundKey j))

/-- The member of a map entry, unless its key is left out. -/
def encodeEntry (below : Below) (o : EncodeOptions) (entry : Value × Value) :
    Except Error (Option (String × Json)) := do
  let key ← encodeKey below o entry.1
  if o.excludes key then pure none
  else
    let j ← below o.nested entry.2
    pure (some (key, j))

def encodeBuiltin (below : Below) (o : EncodeOptions) : Value → Except Error Json
  | null => .ok .null
  | bool b => .ok (.bool b)
  | int i => .ok (.number (.ofInt64 i))
  | uint n => .ok (.number (.ofNat64 n))
  | float x => encodeFloat "Float" x
  | string s => .ok (.string s)
  | bytes bs => encodeBytes bs
  | timestamp t => encodeFloat "Timestamp" t.epochSeconds
  | date d => .ok (.string d.text)
  | duration d => encodeFloat "Duration" d.totalSeconds
  | uuid u => .ok (.string u.text)
  | ipAddr a => .ok (.string a.text)
  | socketAddr a => .ok (.string a.text)
  | path bs => encodePath bs
  | secret s => .ok (.string s)
  | enumerated _ _ v => below o.nested v
  | record _ fields encoders => do
    let members ← fields.mapM (encodeField below o encoders)
    pure (Json.ofMembers (members.filterMap id))
  | map entries => do
    let members ← entries.mapM (encodeEntry below o)
    pure (Json.ofMembers (members.filterMap id))
  | list items => do
    let js ← items.mapM (below o.nested)
    pure (.array js)
  | foreign t _ => .error (.unencodable t .noEncoder)

/-! ## All levels -/

/-- Encodes a value with a budget of levels. A budget of zero means that the value stands below the
deepest level allowed. -/
def encodeWithin (transforms : Transforms) : Nat → Below
  | 0 => fun _ _ => .error (.nestingTooDeep (maxNesting + 1) maxNesting)
  | levels + 1 => fun o v =>
    match o.encoders.apply transforms v with
    | some output =>
      if unchanged output v then encodeBuiltin (encodeWithin transforms levels) o v
      else encodeWithin transforms levels o output
    | none => encodeBuiltin (encodeWithin transforms levels) o v

def encode (transforms : Transforms) (o : EncodeOptions) (v : Value) : Except Error Json :=
  encodeWithin transforms (maxNesting + 1) o v

/-- The JSON form of a value with default options. Records in it may still bring their own custom
encoders. -/
def toJson (transforms : Transforms) (v : Value) : Except Error Json := v.encode transforms {}

end Value
end DocStore
