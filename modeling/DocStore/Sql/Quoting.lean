/-! # Quoting in statement text

Names are quoted with double quotes and texts with single quotes; inside, the quote itself is
written twice. The scanner below is the other side: it follows a statement character by character
and knows at each one whether it stands inside quotes, so it can tell the placeholders of a
statement from question marks in names and texts. A doubled quote closes and opens again, which
leaves the scanner where it was. -/
set_option autoImplicit false

namespace DocStore.Sql

/-! ## Writing -/

/-- The characters with every occurrence of the quote written twice. -/
def doubled (quote : Char) (cs : List Char) : List Char :=
  cs.flatMap fun c => if c = quote then [quote, quote] else [c]

def quoted (quote : Char) (s : String) : String :=
  String.ofList (quote :: doubled quote s.toList ++ [quote])

def quoteIdentifier (name : String) : String := quoted '"' name

def quoteLiteral (text : String) : String := quoted '\'' text

/-! ## Names that need no quotes -/

def isIdentifierStart (c : Char) : Bool :=
  ('a' ≤ c && c ≤ 'z') || ('A' ≤ c && c ≤ 'Z') || c == '_'

def isIdentifierPart (c : Char) : Bool := isIdentifierStart c || ('0' ≤ c && c ≤ '9')

/-- Whether a name consists of ASCII letters, digits and underscores and starts with no digit. -/
def isPlainIdentifier (name : String) : Bool :=
  match name.toList with
  | [] => false
  | c :: rest => isIdentifierStart c && rest.all isIdentifierPart

/-! ## Scanning -/

/-- The quote the scanner stands inside of, after one more character. -/
def advance (inside : Option Char) (c : Char) : Option Char :=
  match inside with
  | some quote => if c = quote then none else some quote
  | none => if c = '\'' ∨ c = '"' then some c else none

/-- The quote the scanner stands inside of after a text. -/
def scanFrom (inside : Option Char) (cs : List Char) : Option Char := cs.foldl advance inside

/-- Whether the character is a placeholder where the scanner stands. -/
def isPlaceholder (inside : Option Char) (c : Char) : Bool := inside.isNone && c == '?'

/-- The number of placeholders in a text that begins inside the given quote, or outside quotes. -/
def placeholdersFrom (inside : Option Char) : List Char → Nat
  | [] => 0
  | c :: rest =>
    (if isPlaceholder inside c then 1 else 0) + placeholdersFrom (advance inside c) rest

def countPlaceholders (sql : String) : Nat := placeholdersFrom none sql.toList

/-- Reads a quoted text after its opening quote: the text, with doubled quotes made single, and
what follows the closing quote. -/
def readQuoted? (quote : Char) : List Char → Option (List Char × List Char)
  | [] => none
  | [c] => if c = quote then some ([], []) else none
  | c :: d :: rest =>
    if c = quote then
      if d = quote then
        (readQuoted? quote rest).map fun (text, after) => (quote :: text, after)
      else some ([], d :: rest)
    else (readQuoted? quote (d :: rest)).map fun (text, after) => (c :: text, after)

end DocStore.Sql
