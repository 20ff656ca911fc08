import DocStore.Json.Basic

/-! # JSON as written

A node is JSON text up to spacing: the members of an object stand in the order in which they are
written, a key may be repeated, and a number is its literal. A JSON value has one node, its compact
form with sorted keys; a node has a value if its literals fit into 64 bits or a finite double. -/
set_option autoImplicit false

namespace DocStore

inductive Node where
  | null
  | bool (b : Bool)
  | number (literal : String)
  | string (s : String)
  | array (items : List Node)
  | object (members : List (String × Node))
deriving Inhabited

namespace Node

/-! ## Writing -/

/-- The escape of a character inside a string: the quote, the backslash and the control characters
below U+0020 are escaped, all else stands for itself. -/
def escape (c : Char) : List Char :=
  if c = '"' then ['\\', '"']
  else if c = '\\' then ['\\', '\\']
  else if c.toNat < 32 then
    if c = '\x08' then ['\\', 'b']
    else if c = '\x0c' then ['\\', 'f']
    else if c = '\n' then ['\\', 'n']
    else if c = '\r' then ['\\', 'r']
    else if c = '\t' then ['\\', 't']
    else '\\' :: 'u' :: Text.padZeros 4 (Text.hex c.toNat)
  else [c]

def quoted (s : String) : List Char := '"' :: s.toList.flatMap escape ++ ['"']

mutual

def chars : Node → List Char
  | .null => "null".toList
  | .bool true => "true".toList
  | .bool false => "false".toList
  | .number literal => literal.toList
  | .string s => quoted s
  | .array [] => ['[', ']']
  | .array (item :: items) => '[' :: chars item ++ charsItems items
  | .object [] => ['\x7b', '\x7d']
  | .object ((key, value) :: members) =>
    '\x7b' :: quoted key ++ ':' :: chars value ++ charsMembers members

/-- The text after the first item of an array, its closing bracket included. -/
def charsItems : List Node → List Char
  | [] => [']']
  | item :: items => ',' :: chars item ++ charsItems items

/-- The text after the first member of an object, its closing brace included. -/
def charsMembers : List (String × Node) → List Char
  | [] => ['\x7d']
  | (key, value) :: members => ',' :: quoted key ++ ':' :: chars value ++ charsMembers members

end

def text (n : Node) : String := String.ofList n.chars

/-! ## Nesting -/

mutual

/-- The number of brackets open at the deepest point. -/
def nesting : Node → Nat
  | .array items => nestingItems items + 1
  | .object members => nestingMembers members + 1
  | _ => 0

def nestingItems : List Node → Nat
  | [] => 0
  | item :: items => max (nesting item) (nestingItems items)

def nestingMembers : List (String × Node) → Nat
  | [] => 0
  | (_, value) :: members => max (nesting value) (nestingMembers members)

end

/-! ## Values -/

mutual

def ofJson : Json → Node
  | .null => .null
  | .bool b => .bool b
  | .number n => .number (String.ofList n.chars)
  | .string s => .string s
  | .array items => .array (ofItems items)
  | .object members => .object (ofMembers members)

def ofItems : List Json → List Node
  | [] => []
  | item :: items => ofJson item :: ofItems items

def ofMembers : List (String × Json) → List (String × Node)
  | [] => []
  | (key, value) :: members => (key, ofJson value) :: ofMembers members

end

mutual

/-- The value of a node: members are sorted, the last one of each key is kept, and literals become
numbers. -/
def toJson? : Node → Option Json
  | .null => some .null
  | .bool b => some (.bool b)
  | .number literal => do
    let l ← NumberLiteral.read? literal.toList
    let n ← l.toNumber?
    pure (.number n)
  | .string s => some (.string s)
  | .array items => (toItems? items).map .array
  | .object members => (toMembers? members).map Json.ofMembers

def toItems? : List Node → Option (List Json)
  | [] => some []
  | item :: items => do
    let j ← toJson? item
    let rest ← toItems? items
    pure (j :: rest)

def toMembers? : List (String × Node) → Option (List (String × Json))
  | [] => some []
  | (key, value) :: members => do
    let j ← toJson? value
    let rest ← toMembers? members
    pure ((key, j) :: rest)

end

end Node

/-- The compact text of a value, with sorted keys. -/
def Json.text (j : Json) : String := (Node.ofJson j).text

end DocStore
