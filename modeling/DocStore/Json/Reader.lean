import DocStore.Json.Node

/-! # Reading JSON text

Reading has two steps. The scanner turns characters into tokens; it is a machine that takes one
character at a time and says which tokens that character completes. The builder takes one token at
a time and keeps the containers that are still open. Both therefore recurse on their input. -/
set_option autoImplicit false

namespace DocStore

/-! ## Tokens -/

inductive JsonToken where
  /-- One of the six marks: brackets, braces, colon and comma. -/
  | mark (c : Char)
  | string (s : String)
  | number (literal : String)
  | word (letters : String)

namespace JsonToken

/-- Where the scanner stands. Characters already read are kept in reverse. -/
inductive Mode where
  | between
  | word (read : List Char)
  | number (read : List Char)
  | text (read : List Char)
  | escape (read : List Char)
  /-- Inside a `\u` escape: the first half of a surrogate pair, if there was one, and the digits. -/
  | hex (read : List Char) (high : Option Nat) (digits : List Nat)
  /-- After the first half of a surrogate pair; the flag says whether the backslash was seen. -/
  | pair (read : List Char) (high : Nat) (backslash : Bool)

def isMark (c : Char) : Bool := c ∈ ['[', ']', '\x7b', '\x7d', ':', ',']
def isBlank (c : Char) : Bool := c ∈ [' ', '\t', '\n', '\r']
def isNumberStart (c : Char) : Bool := c == '-' || Text.isDigit c
def isNumberPart (c : Char) : Bool := Text.isDigit c || c ∈ ['-', '+', '.', 'e', 'E']
def isLetter (c : Char) : Bool := 'a' ≤ c && c ≤ 'z'

/-- What a character outside words, numbers and strings begins or stands for. -/
def start (c : Char) : Option (Mode × List JsonToken) :=
  if isBlank c then some (.between, [])
  else if isMark c then some (.between, [.mark c])
  else if c = '"' then some (.text [], [])
  else if isNumberStart c then some (.number [c], [])
  else if isLetter c then some (.word [c], [])
  else none

def unescape? (c : Char) : Option Char :=
  match c with
  | '"' => some '"'
  | '\\' => some '\\'
  | '/' => some '/'
  | 'b' => some '\x08'
  | 'f' => some '\x0c'
  | 'n' => some '\n'
  | 'r' => some '\r'
  | 't' => some '\t'
  | _ => none

/-- The mode after the four digits of a `\u` escape: the second half of a pair must follow the
first, and no half may stand alone. -/
def closeHex (read : List Char) (high : Option Nat) (unit : Nat) : Option Mode :=
  match high with
  | some first =>
    if 0xDC00 ≤ unit ∧ unit < 0xE000 then
      some (.text (Char.ofNat (0x10000 + (first - 0xD800) * 1024 + (unit - 0xDC00)) :: read))
    else none
  | none =>
    if 0xD800 ≤ unit ∧ unit < 0xDC00 then some (.pair read unit false)
    else if 0xDC00 ≤ unit ∧ unit < 0xE000 then none
    else some (.text (Char.ofNat unit :: read))

def completed (read : List Char) : String := String.ofList read.reverse

/-- One character: the next mode and the tokens it completes. -/
def step (mode : Mode) (c : Char) : Option (Mode × List JsonToken) :=
  match mode with
  | .between => start c
  | .word read =>
    if isLetter c then some (.word (c :: read), [])
    else (start c).map fun (next, ts) => (next, .word (completed read) :: ts)
  | .number read =>
    if isNumberPart c then some (.number (c :: read), [])
    else (start c).map fun (next, ts) => (next, .number (completed read) :: ts)
  | .text read =>
    if c = '"' then some (.between, [.string (completed read)])
    else if c = '\\' then some (.escape read, [])
    else if c.toNat < 32 then none
    else some (.text (c :: read), [])
  | .escape read =>
    if c = 'u' then some (.hex read none [], [])
    else (unescape? c).map fun plain => (.text (plain :: read), [])
  | .hex read high digits => do
    let d ← Text.hexValue? c
    if digits.length < 3 then pure (.hex read high (digits ++ [d]), [])
    else do
      let next ← closeHex read high (Text.ofDigits 16 (digits ++ [d]))
      pure (next, [])
  | .pair read high backslash =>
    if backslash then
      if c = 'u' then some (.hex read (some high) [], []) else none
    else if c = '\\' then some (.pair read high true, []) else none

def finish : Mode → Option (List JsonToken)
  | .between => some []
  | .word read => some [.word (completed read)]
  | .number read => some [.number (completed read)]
  | _ => none

/-- The tokens of a text, from a mode of the scanner on. -/
def scan (mode : Mode) : List Char → Option (List JsonToken)
  | [] => finish mode
  | c :: cs => do
    let (next, ts) ← step mode c
    let rest ← scan next cs
    pure (ts ++ rest)

end JsonToken

/-! ## Building nodes -/

namespace Node

/-- A container that is still open, its parts in reverse. -/
inductive Frame where
  | array (items : List Node)
  | object (members : List (String × Node)) (key : String)

/-- What the builder waits for, and the open containers. -/
inductive Builder where
  | value (stack : List Frame)
  | item (stack : List Frame)
  | firstKey (stack : List Frame)
  | key (members : List (String × Node)) (stack : List Frame)
  | colon (members : List (String × Node)) (key : String) (stack : List Frame)
  | after (node : Node) (stack : List Frame)

namespace Builder

def begin? (stack : List Frame) : JsonToken → Option Builder
  | .mark '[' => some (.item stack)
  | .mark '\x7b' => some (.firstKey stack)
  | .mark _ => none
  | .string s => some (.after (.string s) stack)
  | .number literal =>
    (NumberLiteral.read? literal.toList).map fun _ => .after (.number literal) stack
  | .word "null" => some (.after .null stack)
  | .word "true" => some (.after (.bool true) stack)
  | .word "false" => some (.after (.bool false) stack)
  | .word _ => none

def continue? (node : Node) : List Frame → JsonToken → Option Builder
  | .array items :: stack, .mark ',' => some (.value (.array (node :: items) :: stack))
  | .array items :: stack, .mark ']' => some (.after (.array (node :: items).reverse) stack)
  | .object members k :: stack, .mark ',' => some (.key ((k, node) :: members) stack)
  | .object members k :: stack, .mark '\x7d' =>
    some (.after (.object ((k, node) :: members).reverse) stack)
  | _, _ => none

def step : Builder → JsonToken → Option Builder
  | .value stack, t => begin? stack t
  | .item stack, .mark ']' => some (.after (.array []) stack)
  | .item stack, t => begin? (.array [] :: stack) t
  | .firstKey stack, .mark '\x7d' => some (.after (.object []) stack)
  | .firstKey stack, .string s => some (.colon [] s stack)
  | .key members stack, .string s => some (.colon members s stack)
  | .colon members k stack, .mark ':' => some (.value (.object members k :: stack))
  | .after node stack, t => continue? node stack t
  | _, _ => none

/-- All tokens; at the end one value must be complete and no container open. -/
def run (b : Builder) : List JsonToken → Option Node
  | [] =>
    match b with
    | .after node [] => some node
    | _ => none
  | t :: ts => (step b t).bind fun next => run next ts

end Builder

def read? (text : String) : Option Node := do
  let tokens ← JsonToken.scan .between text.toList
  Builder.run (.value []) tokens

end Node

namespace Json

def maxReadNesting : Nat := 127

def read? (text : String) : Option Json := do
  let node ← Node.read? text
  guard (node.nesting ≤ maxReadNesting)
  node.toJson?

end Json
end DocStore
