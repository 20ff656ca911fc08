import DocStore.Text.Digits

/-! # Quoted text in settings files

Text stands between double quotes, with escapes, or between single quotes, as it is; with three
quotes on either side it may span lines. Text is written in the first of these forms that shows it
without escapes, and with escapes if there is no such form. -/
set_option autoImplicit false

namespace DocStore.Toml

/-! ## Characters -/

def isBlank (c : Char) : Bool := c == ' ' || c == '\t'

/-- A character that is no control character, or a tab. -/
def isPlain (c : Char) : Bool := c == '\t' || (32 ≤ c.toNat && c.toNat != 127)

def codePoint? (digits : List Char) : Option Char := do
  let n ← Text.readNat? 16 digits
  guard (n < 0xD800 ∨ (0xE000 ≤ n ∧ n < 0x110000))
  pure (Char.ofNat n)

def unescape? (c : Char) : Option Char :=
  match c with
  | 'b' => some '\x08'
  | 't' => some '\t'
  | 'n' => some '\n'
  | 'f' => some '\x0c'
  | 'r' => some '\r'
  | '"' => some '"'
  | '\\' => some '\\'
  | _ => none

/-! ## Reading -/

/-- A character before what is read next. -/
def before (c : Option Char) (rest : Option (List Char × List Char)) :
    Option (List Char × List Char) := do
  let c ← c
  let (text, after) ← rest
  pure (c :: text, after)

/-- Reads text with escapes after its opening quote: the text and what follows the closing quote. -/
def readEscaped? : List Char → Option (List Char × List Char)
  | [] => none
  | '"' :: rest => some ([], rest)
  | '\\' :: 'u' :: a :: b :: c :: d :: rest => before (codePoint? [a, b, c, d]) (readEscaped? rest)
  | '\\' :: 'U' :: a :: b :: c :: d :: e :: f :: g :: h :: rest =>
    before (codePoint? [a, b, c, d, e, f, g, h]) (readEscaped? rest)
  | '\\' :: c :: rest => before (unescape? c) (readEscaped? rest)
  | c :: rest => if isPlain c && c != '\\' then before (some c) (readEscaped? rest) else none

def readLiteral? : List Char → Option (List Char × List Char)
  | [] => none
  | '\'' :: rest => some ([], rest)
  | c :: rest => if isPlain c then before (some c) (readLiteral? rest) else none

/-- Whether a text goes on in the next line after nothing but blanks. -/
def endsLine (cs : List Char) : Bool :=
  match cs.dropWhile isBlank with
  | '\n' :: _ => true
  | '\r' :: '\n' :: _ => true
  | _ => false

/-- Reads text with escapes that may span lines. A backslash at the end of a line skips all blanks
and line ends after it, and up to two quotes may stand before the closing ones. -/
def readEscapedLines? (skipping : Bool) : List Char → Option (List Char × List Char)
  | [] => none
  | '"' :: '"' :: '"' :: '"' :: '"' :: rest => some (['"', '"'], rest)
  | '"' :: '"' :: '"' :: '"' :: rest => some (['"'], rest)
  | '"' :: '"' :: '"' :: rest => some ([], rest)
  | '\r' :: '\n' :: rest =>
    if skipping then readEscapedLines? true rest
    else before (some '\n') (readEscapedLines? false rest)
  | '\n' :: rest =>
    if skipping then readEscapedLines? true rest
    else before (some '\n') (readEscapedLines? false rest)
  | '\\' :: 'u' :: a :: b :: c :: d :: rest =>
    before (codePoint? [a, b, c, d]) (readEscapedLines? false rest)
  | '\\' :: 'U' :: a :: b :: c :: d :: e :: f :: g :: h :: rest =>
    before (codePoint? [a, b, c, d, e, f, g, h]) (readEscapedLines? false rest)
  | '\\' :: c :: rest =>
    if endsLine (c :: rest) then readEscapedLines? true (c :: rest)
    else before (unescape? c) (readEscapedLines? false rest)
  | c :: rest =>
    if skipping && isBlank c then readEscapedLines? true rest
    else if isPlain c && c != '\\' then before (some c) (readEscapedLines? false rest)
    else none

def readLiteralLines? : List Char → Option (List Char × List Char)
  | [] => none
  | '\'' :: '\'' :: '\'' :: '\'' :: '\'' :: rest => some (['\'', '\''], rest)
  | '\'' :: '\'' :: '\'' :: '\'' :: rest => some (['\''], rest)
  | '\'' :: '\'' :: '\'' :: rest => some ([], rest)
  | '\r' :: '\n' :: rest => before (some '\n') (readLiteralLines? rest)
  | c :: rest =>
    if isPlain c || c == '\n' then before (some c) (readLiteralLines? rest) else none

/-- The text after a line end right at its start. -/
def skipFirstLineEnd : List Char → List Char
  | '\n' :: rest => rest
  | '\r' :: '\n' :: rest => rest
  | cs => cs

/-- Reads quoted text of any form, if the text starts with a quote. -/
def readQuoted? : List Char → Option (Option (List Char × List Char))
  | '"' :: '"' :: '"' :: rest => some (readEscapedLines? false (skipFirstLineEnd rest))
  | '\'' :: '\'' :: '\'' :: rest => some (readLiteralLines? (skipFirstLineEnd rest))
  | '"' :: rest => some (readEscaped? rest)
  | '\'' :: rest => some (readLiteral? rest)
  | _ => none

/-! ## Writing -/

def longestRun (mark : Char) : Nat → List Char → Nat
  | run, [] => run
  | run, c :: cs =>
    if c = mark then longestRun mark (run + 1) cs else max run (longestRun mark 0 cs)

/-- A control character other than tab and line feed. -/
def needsEscape (c : Char) : Bool := !isPlain c && c != '\n'

def hexUpper (n : Nat) : List Char := (Text.hex n).map Char.toUpper

def escape (c : Char) : List Char :=
  if c = '\x08' then ['\\', 'b']
  else if c = '\t' then ['\\', 't']
  else if c = '\n' then ['\\', 'n']
  else if c = '\x0c' then ['\\', 'f']
  else if c = '\r' then ['\\', 'r']
  else if c = '"' then ['\\', '"']
  else if c = '\\' then ['\\', '\\']
  else if isPlain c then [c]
  else '\\' :: 'u' :: Text.padZeros 4 (hexUpper c.toNat)

/-- Text between three double quotes, given the number of quotes just before it: line feeds stay,
and every third quote of a run is escaped. -/
def escapeLines : Nat → List Char → List Char
  | _, [] => []
  | quotes, c :: cs =>
    if c = '"' then
      if quotes = 2 then '\\' :: '"' :: escapeLines 0 cs else '"' :: escapeLines (quotes + 1) cs
    else if c = '\n' then '\n' :: escapeLines 0 cs
    else escape c ++ escapeLines 0 cs

def writeEscaped (cs : List Char) : List Char := '"' :: cs.flatMap escape ++ ['"']

def writeLiteral (cs : List Char) : List Char := '\'' :: cs ++ ['\'']

def tripled (quote : Char) : List Char := [quote, quote, quote]

/-- Text between three quotes begins in a line of its own if it spans lines. -/
def writeLines (quote : Char) (plain shown : List Char) : List Char :=
  tripled quote ++ (if plain.contains '\n' then ['\n'] else []) ++ shown ++ tripled quote

def write (cs : List Char) : List Char :=
  let control := cs.any needsEscape
  let backslash := cs.contains '\\'
  let line := cs.contains '\n'
  let doubles := longestRun '"' 0 cs
  let singles := longestRun '\'' 0 cs
  if !control && !backslash && doubles == 0 && !line then writeEscaped cs
  else if !control && singles == 0 && !line then writeLiteral cs
  else if !control && !backslash && doubles ≤ 2 then writeLines '"' cs (escapeLines 0 cs)
  else if !control && singles ≤ 2 then writeLines '\'' cs cs
  else if line then writeLines '"' cs (escapeLines 0 cs)
  else writeEscaped cs

end DocStore.Toml
