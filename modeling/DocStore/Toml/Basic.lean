/-! # Settings trees

What a settings file holds: a tree of tables with texts and integers at its leaves. Values of all
other kinds are kept without their content, since no setting has one of them.

A table may come into being in three ways, and only some of its parts may be added to later: a
header defines a table once, the tables on the way to a header are implied, and a dotted key makes
tables that only dotted keys may add to. -/
set_option autoImplicit false

namespace DocStore

inductive TableOrigin where
  /-- On the way to the table of a header. -/
  | implied
  | header
  | dottedKey
deriving DecidableEq

inductive Toml where
  | string (s : String)
  | integer (i : Int)
  /-- A boolean, a float, a date or time, an array or an inline table. -/
  | other
  | table (origin : TableOrigin) (members : List (String × Toml))
  /-- An array of tables made by headers, the latest table first. -/
  | tables (latest : List (String × Toml)) (earlier : List (List (String × Toml)))

namespace Toml

def lookup? (key : String) (members : List (String × Toml)) : Option Toml :=
  (members.find? fun m => m.1 == key).map (·.2)

/-- Puts a member in place of the one of its key, or at the end. -/
def put (key : String) (value : Toml) : List (String × Toml) → List (String × Toml)
  | [] => [(key, value)]
  | (k, v) :: members => if k = key then (k, value) :: members else (k, v) :: put key value members

/-- Changes the table at the path of a header; tables on the way that are missing are implied. -/
def within (change : List (String × Toml) → Option (List (String × Toml))) :
    List String → List (String × Toml) → Option (List (String × Toml))
  | [], members => change members
  | key :: path, members =>
    match lookup? key members with
    | none => (within change path []).map fun inner => put key (.table .implied inner) members
    | some (.table origin inner) =>
      (within change path inner).map fun inner => put key (.table origin inner) members
    | some (.tables latest earlier) =>
      (within change path latest).map fun inner => put key (.tables inner earlier) members
    | some _ => none

def define (key : String) (members : List (String × Toml)) : Option (List (String × Toml)) :=
  match lookup? key members with
  | none => some (put key (.table .header []) members)
  | some (.table .implied inner) => some (put key (.table .header inner) members)
  | some _ => none

def extend (key : String) (members : List (String × Toml)) : Option (List (String × Toml)) :=
  match lookup? key members with
  | none => some (put key (.tables [] []) members)
  | some (.tables latest earlier) => some (put key (.tables [] (latest :: earlier)) members)
  | some _ => none

/-- Adds a value under a key, dotted or not, that is not in use. -/
def assign (value : Toml) : List String → List (String × Toml) → Option (List (String × Toml))
  | [], _ => none
  | [key], members =>
    if (lookup? key members).isSome then none else some (members ++ [(key, value)])
  | key :: next :: path, members =>
    match lookup? key members with
    | none =>
      (assign value (next :: path) []).map fun inner => put key (.table .dottedKey inner) members
    | some (.table .dottedKey inner) =>
      (assign value (next :: path) inner).map fun inner => put key (.table .dottedKey inner) members
    | some (.table .implied inner) =>
      if path.isEmpty then none
      else (assign value (next :: path) inner).map fun inner =>
        put key (.table .implied inner) members
    | some (.tables latest earlier) =>
      if path.isEmpty then none
      else (assign value (next :: path) latest).map fun inner =>
        put key (.tables inner earlier) members
    | some _ => none

end Toml
end DocStore
