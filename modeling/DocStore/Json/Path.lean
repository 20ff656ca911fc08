import DocStore.Json.Node

/-! # Paths into documents

A path leads from the root of a document to a part of it: by keys of objects and by places in
arrays, counted from the start or back from the end. Paths are texts and may be malformed; how far a
path is well-formed is only found out by following it, so a fault is a step of its own that fails
when it is reached.

A part that is absent can be set: missing containers on the way are created, a key goes to the end
of its object, and the place one past the end of an array takes a new item. -/
set_option autoImplicit false

namespace DocStore

inductive Place where
  | fromStart (i : Nat)
  /-- Counted back from the end; zero is one past the last item. -/
  | fromEnd (n : Nat)
deriving DecidableEq

/-- The position in an array of the given length, which may be one past the end. -/
def Place.within? (length : Nat) : Place → Option Nat
  | fromStart i => if i ≤ length then some i else none
  | fromEnd n => if n ≤ length then some (length - n) else none

inductive PathStep where
  | key (name : String)
  | item (place : Place)
  /-- An ill-formed place. It is looked at only where there is an array. -/
  | badPlace
  | malformed
deriving DecidableEq

inductive PathFault where
  | malformed
deriving DecidableEq

/-! ## Reading -/

namespace PathStep

/-- The number that digits of a place stand for; it has 32 bits and wraps around. -/
def placeNumber (digits : List Char) : Nat := Text.decimalValue digits % 4294967296

/-- Reads a place after its bracket and the mark `#-`; what follows is read by `next`. -/
def readFromEnd (next : List Char → List PathStep) (cs : List Char) : List PathStep :=
  let digits := cs.takeWhile Text.isDigit
  let n := placeNumber digits
  match cs.dropWhile Text.isDigit with
  | ']' :: rest => if digits.isEmpty then [badPlace] else item (.fromEnd n) :: next rest
  | _ => if digits.isEmpty || n == 0 then [badPlace] else [item (.fromEnd n), malformed]

def readPlace (next : List Char → List PathStep) : List Char → List PathStep
  | '#' :: ']' :: rest => item (.fromEnd 0) :: next rest
  | '#' :: '-' :: rest => readFromEnd next rest
  | cs =>
    let digits := cs.takeWhile Text.isDigit
    match cs.dropWhile Text.isDigit with
    | ']' :: rest =>
      if digits.isEmpty then [badPlace] else item (.fromStart (placeNumber digits)) :: next rest
    | _ => [badPlace]

def endsKey (c : Char) : Bool := c == '.' || c == '['

/-- A key in quotes is taken as it is written. The engine reads a backslash in it as an escape, and
results about what is stored leave such paths out. -/
def readKey (next : List Char → List PathStep) : List Char → List PathStep
  | '"' :: rest =>
    match rest.dropWhile (· != '"') with
    | [] => [malformed]
    | _ :: after => key (String.ofList (rest.takeWhile (· != '"'))) :: next after
  | cs =>
    let name := cs.takeWhile fun c => !endsKey c
    if name.isEmpty then [malformed]
    else key (String.ofList name) :: next (cs.dropWhile fun c => !endsKey c)

/-- The steps of a text. Each step takes at least one character, so the number of characters bounds
the number of steps. -/
def readWithin : Nat → List Char → List PathStep
  | _, [] => []
  | 0, _ => [malformed]
  | n + 1, '.' :: rest => readKey (readWithin n) rest
  | n + 1, '[' :: rest => readPlace (readWithin n) rest
  | _ + 1, _ => [malformed]

/-- The steps of a path, which begins at the root `$`. -/
def ofText (path : String) : List PathStep :=
  match path.toList with
  | '$' :: rest => readWithin rest.length rest
  | _ => [malformed]

def container : PathStep → Node
  | key _ => .object []
  | malformed => .object []
  | _ => .array []

end PathStep

namespace Node

/-! ## Members and items -/

def member? (name : String) (members : List (String × Node)) : Option Node :=
  (members.find? fun m => m.1 == name).map (·.2)

/-- The members with a value set for a key, at the end if the key is new. -/
def setMember (name : String) (value : Node) : List (String × Node) → List (String × Node)
  | [] => [(name, value)]
  | (k, n) :: members =>
    if k = name then (k, value) :: members else (k, n) :: setMember name value members

def eraseMember (name : String) : List (String × Node) → List (String × Node)
  | [] => []
  | (k, n) :: members => if k = name then members else (k, n) :: eraseMember name members

/-- The items with a value set at a position, which may be one past the end. -/
def setItem (p : Nat) (value : Node) (items : List Node) : List Node :=
  if p < items.length then items.set p value else items ++ [value]

def item? (place : Place) (items : List Node) : Option (Nat × Node) := do
  let p ← place.within? items.length
  let n ← items[p]?
  pure (p, n)

/-! ## Following a path -/

open PathStep

/-- The part of a node that a path leads to, if there is one. -/
def follow : List PathStep → Node → Except PathFault (Option Node)
  | [], n => .ok (some n)
  | malformed :: _, _ => .error .malformed
  | badPlace :: _, .array _ => .error .malformed
  | key name :: path, .object members =>
    match member? name members with
    | some n => follow path n
    | none => .ok none
  | item place :: path, .array items =>
    match item? place items with
    | some (_, n) => follow path n
    | none => .ok none
  | _, _ => .ok none

/-- What a path starts from where there is nothing yet. -/
def startOf : List PathStep → Node
  | [] => .null
  | step :: _ => step.container

/-- The node with a value set at a path; nothing if the path leads through a part that is no
container of the right kind, or past the end of an array. -/
def setAt (value : Node) : List PathStep → Node → Except PathFault (Option Node)
  | [], _ => .ok (some value)
  | malformed :: _, _ => .error .malformed
  | badPlace :: _, .array _ => .error .malformed
  | key name :: path, .object members => do
    let new ← setAt value path ((member? name members).getD (startOf path))
    pure (new.map fun n => .object (setMember name n members))
  | item place :: path, .array items =>
    match place.within? items.length with
    | none => .ok none
    | some p => do
      let new ← setAt value path (items[p]?.getD (startOf path))
      pure (new.map fun n => .array (setItem p n items))
  | _, _ => .ok none

/-- The node without the part at a path; nothing if there is no such part. -/
def removeAt : List PathStep → Node → Except PathFault (Option Node)
  | malformed :: _, _ => .error .malformed
  | badPlace :: _, .array _ => .error .malformed
  | key name :: path, .object members =>
    match member? name members with
    | none => .ok none
    | some n =>
      if path.isEmpty then .ok (some (.object (eraseMember name members)))
      else do
        let new ← removeAt path n
        pure (new.map fun n => .object (setMember name n members))
  | item place :: path, .array items =>
    match item? place items with
    | none => .ok none
    | some (p, n) =>
      if path.isEmpty then .ok (some (.array (items.eraseIdx p)))
      else do
        let new ← removeAt path n
        pure (new.map fun n => .array (items.set p n))
  | _, _ => .ok none

end Node
end DocStore
