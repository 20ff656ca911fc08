import DocStore.Toml.Quoted
import DocStore.Toml.Scalar

/-! # Reading settings files

A file is a sequence of lines: headers, keys with values, comments, and blank lines. Reading fails
as a whole if any line is ill-formed or adds to a table what may not be added. -/
set_option autoImplicit false

namespace DocStore.Toml

/-! ## Between values -/

def skipBlanks (cs : List Char) : List Char := cs.dropWhile isBlank

/-- What follows the end of a line, before which a comment may stand. -/
def readLineEnd? (cs : List Char) : Option (List Char) :=
  let rest := match skipBlanks cs with
    | '#' :: comment => comment.dropWhile isPlain
    | rest => rest
  match rest with
  | [] => some []
  | '\n' :: rest => some rest
  | '\r' :: '\n' :: rest => some rest
  | _ => none

/-- What follows blanks, line ends and comments; the flag says whether a comment has begun. -/
def skipLines? (inComment : Bool) : List Char → Option (List Char)
  | [] => some []
  | '\n' :: rest => skipLines? false rest
  | '\r' :: '\n' :: rest => skipLines? false rest
  | c :: rest =>
    if inComment then (if isPlain c then skipLines? true rest else none)
    else if isBlank c then skipLines? false rest
    else if c = '#' then skipLines? true rest
    else some (c :: rest)

/-! ## Keys -/

def isKeyPart (c : Char) : Bool := c.isAlphanum || c == '_' || c == '-'

def readKeyPart? : List Char → Option (String × List Char)
  | '"' :: rest => (readEscaped? rest).map fun (key, rest) => (String.ofList key, rest)
  | '\'' :: rest => (readLiteral? rest).map fun (key, rest) => (String.ofList key, rest)
  | cs =>
    let key := cs.takeWhile isKeyPart
    if key.isEmpty then none else some (String.ofList key, cs.dropWhile isKeyPart)

/-- The parts of a key, at most as many as given, and what follows the blanks after it. -/
def readKey? : Nat → List Char → Option (List String × List Char)
  | 0, _ => none
  | n + 1, cs => do
    let (part, rest) ← readKeyPart? (skipBlanks cs)
    match skipBlanks rest with
    | '.' :: rest => do
      let (parts, rest) ← readKey? n rest
      pure (part :: parts, rest)
    | rest => pure ([part], rest)

abbrev ValueReader := List Char → Option (Toml × List Char)

def readMember? (value : ValueReader) (cs : List Char) :
    Option (List String × Toml × List Char) := do
  let (key, rest) ← readKey? cs.length cs
  match rest with
  | '=' :: rest => do
    let (v, rest) ← value (skipBlanks rest)
    pure (key, v, rest)
  | _ => none

/-! ## Values -/

/-- What follows an array after its opening bracket or one of its commas; at most as many items as
given. -/
def readItems? (value : ValueReader) : Nat → List Char → Option (List Char)
  | 0, _ => none
  | n + 1, cs => do
    match ← skipLines? false cs with
    | ']' :: rest => pure rest
    | cs => do
      let (_, rest) ← value cs
      match ← skipLines? false rest with
      | ',' :: rest => readItems? value n rest
      | ']' :: rest => pure rest
      | _ => none

/-- What follows an inline table after its opening brace or one of its commas, given the members so
far. -/
def readInline? (value : ValueReader) :
    Nat → List (String × Toml) → List Char → Option (List Char)
  | 0, _, _ => none
  | n + 1, members, cs => do
    let (key, v, rest) ← readMember? value cs
    let members ← assign v key members
    match skipBlanks rest with
    | ',' :: rest => readInline? value n members rest
    | '\x7d' :: rest => pure rest
    | _ => none

/-- The nesting of arrays and inline tables that reading accepts. -/
def maxNesting : Nat := 80

def readValue? : Nat → ValueReader
  | 0, _ => none
  | depth + 1, cs =>
    match readQuoted? cs with
    | some quoted => quoted.map fun (text, rest) => (.string (String.ofList text), rest)
    | none =>
      match cs with
      | '[' :: rest => (readItems? (readValue? depth) cs.length rest).map fun rest => (.other, rest)
      | '\x7b' :: rest =>
        match skipBlanks rest with
        | '\x7d' :: rest => some (.other, rest)
        | rest =>
          (readInline? (readValue? depth) cs.length [] rest).map fun rest => (.other, rest)
      | _ => readWord? cs

/-! ## Lines -/

/-- The settings so far, and the table that the next keys belong to. -/
structure Draft where
  root : List (String × Toml) := []
  current : List String := []

/-- A header after its brackets: the table it names is begun by `start`. -/
def readHeader? (start : String → List (String × Toml) → Option (List (String × Toml)))
    (closing : List Char) (d : Draft) (cs : List Char) : Option (Draft × List Char) := do
  let (key, rest) ← readKey? cs.length cs
  guard (closing.isPrefixOf rest)
  let last ← key.getLast?
  let root ← within (start last) key.dropLast d.root
  pure ({ root, current := key }, rest.drop closing.length)

def readLine? (d : Draft) : List Char → Option (Draft × List Char)
  | '[' :: '[' :: rest => readHeader? extend [']', ']'] d rest
  | '[' :: rest => readHeader? define [']'] d rest
  | cs => do
    let (key, value, rest) ← readMember? (readValue? maxNesting) cs
    let root ← within (assign value key) d.current d.root
    pure ({ d with root }, rest)

/-- All lines, at most as many as given. -/
def readLines? : Nat → Draft → List Char → Option (List (String × Toml))
  | 0, _, _ => none
  | n + 1, d, cs =>
    match skipBlanks cs with
    | [] => some d.root
    | c :: rest =>
      if c ∈ ['#', '\n', '\r'] then do
        let rest ← readLineEnd? (c :: rest)
        readLines? n d rest
      else do
        let (d, rest) ← readLine? d (c :: rest)
        let rest ← readLineEnd? rest
        readLines? n d rest

/-- The settings that a text holds. A byte order mark may stand at its start. -/
def read? (text : String) : Option (List (String × Toml)) :=
  let cs := match text.toList with
    | '\uFEFF' :: rest => rest
    | cs => cs
  readLines? (cs.length + 1) {} cs

end DocStore.Toml
