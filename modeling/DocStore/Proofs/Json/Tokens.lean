import DocStore.Json.Reader
import DocStore.Proofs.Json.Number
import Mathlib.Data.List.TakeWhile

/-! # Tokens of written JSON

A node has the tokens of its parts, in order. Scanning the text of a node, with more text after it,
gives the tokens of the node and then those of what follows; numbers and words need the text after
them to break them off, which what follows a value always does. -/
set_option autoImplicit false

namespace DocStore

namespace JsonToken

/-! ## One character -/

theorem scan_cons_of_step {mode next : Mode} {c : Char} {ts : List JsonToken}
    (h : step mode c = some (next, ts)) (rest : List Char) :
    scan mode (c :: rest) = (scan next rest).map (ts ++ ·) := by
  rw [scan, h, Option.bind_eq_bind, Option.bind_some]
  dsimp only
  cases scan next rest with
  | none => rfl
  | some more => rfl

theorem scan_cons_of_stuck {mode : Mode} {c : Char} (h : step mode c = none) (rest : List Char) :
    scan mode (c :: rest) = none := by
  rw [scan, h]
  rfl

theorem scan_cons_silent {mode next : Mode} {c : Char} (h : step mode c = some (next, []))
    (rest : List Char) : scan mode (c :: rest) = scan next rest := by
  rw [scan_cons_of_step h]
  cases scan next rest with
  | none => rfl
  | some more => rfl

/-! ## Pieces of a text -/

/-- Whether a piece of text before more of it scans to the given tokens, and the rest after them. -/
def Scans (cs : List Char) (ts : List JsonToken) (rest : List Char) : Prop :=
  scan .between (cs ++ rest) = (scan .between rest).map (ts ++ ·)

theorem Scans.append {cs ds rest : List Char} {ts us : List JsonToken}
    (hc : Scans cs ts (ds ++ rest)) (hd : Scans ds us rest) : Scans (cs ++ ds) (ts ++ us) rest := by
  rw [Scans, List.append_assoc, hc, hd, Option.map_map]
  simp [Function.comp_def]

theorem scans_mark {c : Char} (h : start c = some (.between, [.mark c])) (rest : List Char) :
    Scans [c] [.mark c] rest := by
  have between : step .between c = some (.between, [.mark c]) := h
  exact scan_cons_of_step between rest

/-! ## Numbers and words -/

/-- Whether a text breaks off a number or a word that stands before it. -/
def Breaks (rest : List Char) : Prop :=
  ∀ c ∈ rest.head?, isNumberPart c = false ∧ isLetter c = false

/-- Where a step first completes a token and then begins anew, so does scanning. -/
theorem scan_of_break {mode : Mode} {t : JsonToken} {rest : List Char}
    (hf : finish mode = some [t])
    (hs : ∀ c ∈ rest.head?, step mode c = (start c).map fun (next, ts) => (next, t :: ts)) :
    scan mode rest = (scan .between rest).map (t :: ·) := by
  cases rest with
  | nil => exact hf
  | cons c rest =>
    have h := hs c rfl
    cases begun : start c with
    | none =>
      rw [begun] at h
      have between : step .between c = none := begun
      rw [scan_cons_of_stuck h, scan_cons_of_stuck between]
      rfl
    | some begin =>
      obtain ⟨next, ts⟩ := begin
      rw [begun] at h
      have between : step .between c = some (next, ts) := begun
      rw [scan_cons_of_step h, scan_cons_of_step between, Option.map_map]
      rfl

/-- Characters that belong to a token are taken into it. -/
theorem scan_through (inside : List Char → Mode) {cs : List Char}
    (h : ∀ c ∈ cs, ∀ read, step (inside read) c = some (inside (c :: read), []))
    (read rest : List Char) :
    scan (inside read) (cs ++ rest) = scan (inside (cs.reverse ++ read)) rest := by
  induction cs generalizing read with
  | nil => rfl
  | cons c cs ih =>
    have part := h c (List.mem_cons_self ..) read
    rw [List.cons_append, scan_cons_silent part, ih fun d hd => h d (List.mem_cons_of_mem c hd),
      List.reverse_cons, List.append_assoc]
    rfl

theorem scan_number_append {cs rest : List Char} (read : List Char)
    (hc : ∀ c ∈ cs, isNumberPart c = true) (hr : Breaks rest) :
    scan (.number read) (cs ++ rest) =
      (scan .between rest).map (.number (completed (cs.reverse ++ read)) :: ·) := by
  rw [scan_through .number fun c mem _ => if_pos (hc c mem)]
  exact scan_of_break rfl fun c h => if_neg (Bool.eq_false_iff.mp (hr c h).1)

theorem scan_word_append {cs rest : List Char} (read : List Char)
    (hc : ∀ c ∈ cs, isLetter c = true) (hr : Breaks rest) :
    scan (.word read) (cs ++ rest) =
      (scan .between rest).map (.word (completed (cs.reverse ++ read)) :: ·) := by
  rw [scan_through .word fun c mem _ => if_pos (hc c mem)]
  exact scan_of_break rfl fun c h => if_neg (Bool.eq_false_iff.mp (hr c h).2)

theorem ne_of_isDigit {c d : Char} (h : Text.isDigit c = true) (hd : Text.isDigit d = false) :
    c ≠ d := by
  rintro rfl
  rw [h] at hd
  cases hd

theorem start_digit {c : Char} (h : Text.isDigit c = true) : start c = some (.number [c], []) := by
  have blank : isBlank c = false := by
    simp [isBlank, ne_of_isDigit h (d := ' ') rfl, ne_of_isDigit h (d := '\t') rfl,
      ne_of_isDigit h (d := '\n') rfl, ne_of_isDigit h (d := '\r') rfl]
  have mark : isMark c = false := by
    simp [isMark, ne_of_isDigit h (d := '[') rfl, ne_of_isDigit h (d := ']') rfl,
      ne_of_isDigit h (d := '\x7b') rfl, ne_of_isDigit h (d := '\x7d') rfl,
      ne_of_isDigit h (d := ':') rfl, ne_of_isDigit h (d := ',') rfl]
  have quote : c ≠ '"' := ne_of_isDigit h rfl
  simp [start, blank, mark, quote, isNumberStart, h]

/-! ## Characters of literals -/

section Literals

open NumberLiteral

variable {cs rest : List Char}

theorem isNumberPart_of_isDigit {c : Char} (h : Text.isDigit c = true) : isNumberPart c = true := by
  rw [isNumberPart, h, Bool.true_or]

theorem eq_append_of_spanDigits {ds : List Char} (h : spanDigits cs = (ds, rest)) :
    cs = ds ++ rest ∧ ∀ c ∈ ds, Text.isDigit c = true := by
  obtain ⟨rfl, rfl⟩ := Prod.mk.inj h
  exact ⟨List.takeWhile_append_dropWhile.symm, fun c hc => List.mem_takeWhile_imp hc⟩

theorem parts_of_readExponentDigits? {negative : Bool} {e : Option Int}
    (h : readExponentDigits? negative cs = some e) : ∀ c ∈ cs, isNumberPart c = true := by
  unfold readExponentDigits? at h
  split at h
  rename_i ds rest span
  obtain ⟨rfl, digits⟩ := eq_append_of_spanDigits span
  split at h
  · cases h
  · rename_i whole
    have nothing : rest = [] := by
      cases rest with
      | nil => rfl
      | cons c rest => simp at whole
    rw [nothing, List.append_nil]
    exact fun c hc => isNumberPart_of_isDigit (digits c hc)

theorem parts_of_readExponent? {e : Option Int} (h : readExponent? cs = some e) :
    ∀ c ∈ cs, isNumberPart c = true := by
  have mark := eq_mark_of_readExponent? h
  cases cs with
  | nil =>
    intro c hc
    cases hc
  | cons c cs =>
    refine List.forall_mem_cons.mpr ⟨?_, ?_⟩
    · rcases mark c rfl with rfl | rfl <;> rfl
    · unfold readExponent? at h
      dsimp only at h
      rw [if_pos (mark c rfl)] at h
      split at h
      · exact List.forall_mem_cons.mpr ⟨rfl, parts_of_readExponentDigits? h⟩
      · exact List.forall_mem_cons.mpr ⟨rfl, parts_of_readExponentDigits? h⟩
      · exact parts_of_readExponentDigits? h

theorem parts_of_readFraction? {f : Option (List Char)}
    (h : readFraction? cs = some (f, rest)) (hr : ∀ c ∈ rest, isNumberPart c = true) :
    ∀ c ∈ cs, isNumberPart c = true := by
  unfold readFraction? at h
  split at h
  · split at h
    rename_i ds more span
    obtain ⟨rfl, digits⟩ := eq_append_of_spanDigits span
    split at h
    · cases h
    · cases h
      exact List.forall_mem_cons.mpr ⟨rfl, List.forall_mem_append.mpr
        ⟨fun c hc => isNumberPart_of_isDigit (digits c hc), hr⟩⟩
  · cases h
    exact hr

theorem parts_of_readMagnitude? {negative : Bool} {l : NumberLiteral}
    (h : readMagnitude? negative cs = some l) :
    ∃ c rest, cs = c :: rest ∧ Text.isDigit c = true ∧ ∀ d ∈ rest, isNumberPart d = true := by
  unfold readMagnitude? at h
  split at h
  rename_i ds rest span
  obtain ⟨rfl, digits⟩ := eq_append_of_spanDigits span
  obtain ⟨_, leading, h⟩ := Option.bind_eq_some_iff.mp h
  obtain ⟨⟨f, after⟩, fraction, h⟩ := Option.bind_eq_some_iff.mp h
  obtain ⟨e, exponent, -⟩ := Option.bind_eq_some_iff.mp h
  have tail := parts_of_readFraction? fraction (parts_of_readExponent? exponent)
  cases ds with
  | nil => simp [guard] at leading
  | cons c ds =>
    obtain ⟨first, others⟩ := List.forall_mem_cons.mp digits
    exact ⟨c, ds ++ rest, rfl, first, List.forall_mem_append.mpr
      ⟨fun d hd => isNumberPart_of_isDigit (others d hd), tail⟩⟩

/-- What reads as a literal begins like a number and goes on with parts of numbers. -/
theorem parts_of_read? {l : NumberLiteral} (h : NumberLiteral.read? cs = some l) :
    ∃ c rest, cs = c :: rest ∧ (c = '-' ∨ Text.isDigit c = true) ∧
      ∀ d ∈ rest, isNumberPart d = true := by
  unfold NumberLiteral.read? at h
  split at h
  · obtain ⟨c, rest, rfl, first, others⟩ := parts_of_readMagnitude? h
    exact ⟨'-', c :: rest, rfl, .inl rfl,
      List.forall_mem_cons.mpr ⟨isNumberPart_of_isDigit first, others⟩⟩
  · obtain ⟨c, rest, rfl, first, others⟩ := parts_of_readMagnitude? h
    exact ⟨c, rest, rfl, .inr first, others⟩

end Literals

/-- The text of a literal is one token. -/
theorem scans_literal {cs : List Char} {l : NumberLiteral} (h : NumberLiteral.read? cs = some l)
    {rest : List Char} (hr : Breaks rest) : Scans cs [.number (String.ofList cs)] rest := by
  obtain ⟨c, more, rfl, first, parts⟩ := parts_of_read? h
  have begin : step .between c = some (.number [c], []) := by
    rcases first with rfl | digit
    · rfl
    · exact start_digit digit
  have whole : completed (more.reverse ++ [c]) = String.ofList (c :: more) := by
    simp [completed]
  rw [Scans, List.cons_append, scan_cons_silent begin, scan_number_append [c] parts hr, whole]
  rfl

theorem scans_word {w : String} (hl : w.toList.all isLetter = true) {c : Char} {cs : List Char}
    (split : w.toList = c :: cs) (begin : start c = some (.word [c], [])) {rest : List Char}
    (hr : Breaks rest) : Scans w.toList [.word w] rest := by
  rw [split, List.all_cons, Bool.and_eq_true, List.all_eq_true] at hl
  have between : step .between c = some (.word [c], []) := begin
  have whole : completed (cs.reverse ++ [c]) = w := by
    have letters : cs.reverse ++ [c] = w.toList.reverse := by
      rw [split, List.reverse_cons]
    rw [letters, completed, List.reverse_reverse, String.ofList_toList]
  rw [Scans, split, List.cons_append, scan_cons_silent between, scan_word_append [c] hl.2 hr, whole]
  rfl

/-! ## Strings -/

theorem hexValue?_digitChar : ∀ d < 16, Text.hexValue? d.digitChar = some d := by decide

theorem padZeros_hex : ∀ n < 32, Text.padZeros 4 (Text.hex n) =
    ['0', '0', (n / 16).digitChar, (n % 16).digitChar] := by decide

theorem scan_controlEscape (read : List Char) {c : Char} (h : c.toNat < 32) (rest : List Char) :
    scan (.text read) ('\\' :: 'u' :: Text.padZeros 4 (Text.hex c.toNat) ++ rest) =
      scan (.text (c :: read)) rest := by
  have high := hexValue?_digitChar (c.toNat / 16) (by omega)
  have low := hexValue?_digitChar (c.toNat % 16) (by omega)
  have zero : Text.hexValue? '0' = some 0 := rfl
  have value : Text.ofDigits 16 [0, 0, c.toNat / 16, c.toNat % 16] = c.toNat := by
    have digits : Text.ofDigits 16 [0, 0, c.toNat / 16, c.toNat % 16] =
      16 * (c.toNat / 16) + c.toNat % 16 := by simp [Text.ofDigits]
    omega
  have close : closeHex read none c.toNat = some (.text (c :: read)) := by
    rw [closeHex, if_neg (by omega), if_neg (by omega), Char.ofNat_toNat]
  have last : step (.hex read none [0, 0, c.toNat / 16]) (c.toNat % 16).digitChar =
      some (.text (c :: read), []) := by
    simp [step, low, value, close]
  have third : step (.hex read none [0, 0]) (c.toNat / 16).digitChar =
      some (.hex read none [0, 0, c.toNat / 16], []) := by
    simp [step, high]
  have begin : step (.text read) '\\' = some (.escape read, []) := rfl
  have code : step (.escape read) 'u' = some (.hex read none [], []) := rfl
  have first : step (.hex read none []) '0' = some (.hex read none [0], []) := rfl
  have second : step (.hex read none [0]) '0' = some (.hex read none [0, 0], []) := rfl
  rw [padZeros_hex c.toNat h]
  simp only [List.cons_append, List.nil_append]
  rw [scan_cons_silent begin, scan_cons_silent code, scan_cons_silent first,
    scan_cons_silent second, scan_cons_silent third, scan_cons_silent last]

theorem scan_letterEscape (read : List Char) {letter c : Char} (hu : letter ≠ 'u')
    (h : unescape? letter = some c) (rest : List Char) :
    scan (.text read) ('\\' :: letter :: rest) = scan (.text (c :: read)) rest := by
  have begin : step (.text read) '\\' = some (.escape read, []) := rfl
  have plain : step (.escape read) letter = some (.text (c :: read), []) := by
    rw [step, if_neg hu, h]
    rfl
  rw [scan_cons_silent begin, scan_cons_silent plain]

/-- The escape of a character is read as that character. -/
theorem scan_escape (read : List Char) (c : Char) (rest : List Char) :
    scan (.text read) (Node.escape c ++ rest) = scan (.text (c :: read)) rest := by
  unfold Node.escape
  split_ifs with quote backslash control b f n r t
  · subst quote
    exact scan_letterEscape read (by decide) rfl rest
  · subst backslash
    exact scan_letterEscape read (by decide) rfl rest
  · exact b ▸ scan_letterEscape read (by decide) rfl rest
  · exact f ▸ scan_letterEscape read (by decide) rfl rest
  · exact n ▸ scan_letterEscape read (by decide) rfl rest
  · exact r ▸ scan_letterEscape read (by decide) rfl rest
  · exact t ▸ scan_letterEscape read (by decide) rfl rest
  · exact scan_controlEscape read control rest
  · have plain : step (.text read) c = some (.text (c :: read), []) := by
      rw [step, if_neg quote, if_neg backslash, if_neg control]
    exact scan_cons_silent plain rest

theorem scans_quoted (s : String) (rest : List Char) : Scans (Node.quoted s) [.string s] rest := by
  have body (cs read : List Char) :
      scan (.text read) (cs.flatMap Node.escape ++ '"' :: rest) =
        (scan .between rest).map (.string (completed (cs.reverse ++ read)) :: ·) := by
    induction cs generalizing read with
    | nil =>
      have close : step (.text read) '"' = some (.between, [.string (completed read)]) := rfl
      exact scan_cons_of_step close rest
    | cons c cs ih =>
      rw [List.flatMap_cons, List.append_assoc, scan_escape, ih, List.reverse_cons,
        List.append_assoc]
      rfl
  have opens : step .between '"' = some (.text [], []) := rfl
  have whole : completed (s.toList.reverse ++ []) = s := by
    rw [completed, List.append_nil, List.reverse_reverse, String.ofList_toList]
  rw [Scans, Node.quoted, List.cons_append, List.cons_append, scan_cons_silent opens,
    List.append_assoc]
  exact (body s.toList []).trans (by rw [whole]; rfl)

/-- A member is its quoted key, a colon and its value. -/
theorem scans_member (key : String) {cs rest : List Char} {ts : List JsonToken}
    (value : Scans cs ts rest) :
    Scans (Node.quoted key ++ ':' :: cs) (.string key :: .mark ':' :: ts) rest := by
  have named := (scans_mark (c := ':') rfl _).append value
  exact (scans_quoted key _).append named

end JsonToken

namespace Node

open JsonToken (Scans Breaks scans_mark)

/-! ## Nodes -/

mutual

/-- The tokens of a node. -/
def tokens : Node → List JsonToken
  | .null => [.word "null"]
  | .bool true => [.word "true"]
  | .bool false => [.word "false"]
  | .number literal => [.number literal]
  | .string s => [.string s]
  | .array [] => [.mark '[', .mark ']']
  | .array (item :: items) => .mark '[' :: tokens item ++ tokensItems items
  | .object [] => [.mark '\x7b', .mark '\x7d']
  | .object ((key, value) :: members) =>
    .mark '\x7b' :: .string key :: .mark ':' :: tokens value ++ tokensMembers members

def tokensItems : List Node → List JsonToken
  | [] => [.mark ']']
  | item :: items => .mark ',' :: tokens item ++ tokensItems items

def tokensMembers : List (String × Node) → List JsonToken
  | [] => [.mark '\x7d']
  | (key, value) :: members =>
    .mark ',' :: .string key :: .mark ':' :: tokens value ++ tokensMembers members

end

/-- Whether every literal of a node can be read as one. -/
inductive Written : Node → Prop where
  | null : Written .null
  | bool (b : Bool) : Written (.bool b)
  | number {literal : String} {l : NumberLiteral}
    (h : NumberLiteral.read? literal.toList = some l) : Written (.number literal)
  | string (s : String) : Written (.string s)
  | array {items : List Node} (h : ∀ item ∈ items, Written item) : Written (.array items)
  | object {members : List (String × Node)} (h : ∀ m ∈ members, Written m.2) :
    Written (.object members)

theorem breaks_charsItems (items : List Node) (rest : List Char) :
    Breaks (charsItems items ++ rest) := by
  cases items with
  | nil =>
    rintro c ⟨⟩
    decide
  | cons item items =>
    rintro c ⟨⟩
    decide

theorem breaks_charsMembers (members : List (String × Node)) (rest : List Char) :
    Breaks (charsMembers members ++ rest) := by
  match members with
  | [] =>
    rintro c ⟨⟩
    decide
  | (key, value) :: members =>
    rintro c ⟨⟩
    decide

mutual

/-- The text of a node scans to its tokens. -/
theorem scans_chars : (n : Node) → Written n → (rest : List Char) → Breaks rest →
    Scans n.chars n.tokens rest
  | .null, _, rest, hr => JsonToken.scans_word (w := "null") rfl rfl rfl hr
  | .bool true, _, rest, hr => JsonToken.scans_word (w := "true") rfl rfl rfl hr
  | .bool false, _, rest, hr => JsonToken.scans_word (w := "false") rfl rfl rfl hr
  | .number literal, .number h, rest, hr => by
    have scans := JsonToken.scans_literal h hr
    rw [String.ofList_toList] at scans
    exact scans
  | .string s, _, rest, _ => JsonToken.scans_quoted s rest
  | .array [], _, rest, _ => (scans_mark rfl _).append (scans_mark rfl rest)
  | .array (item :: items), .array h, rest, _ => by
    obtain ⟨hi, his⟩ := List.forall_mem_cons.mp h
    have first := scans_chars item hi (charsItems items ++ rest) (breaks_charsItems items rest)
    exact ((scans_mark rfl _).append first).append (scans_charsItems items his rest)
  | .object [], _, rest, _ => (scans_mark rfl _).append (scans_mark rfl rest)
  | .object ((key, value) :: members), .object h, rest, _ => by
    obtain ⟨hv, hms⟩ := List.forall_mem_cons.mp h
    have first := scans_chars value hv (charsMembers members ++ rest)
      (breaks_charsMembers members rest)
    have member := JsonToken.scans_member key first
    exact ((scans_mark rfl _).append member).append (scans_charsMembers members hms rest)

theorem scans_charsItems : (items : List Node) → (∀ item ∈ items, Written item) →
    (rest : List Char) → Scans (charsItems items) (tokensItems items) rest
  | [], _, rest => scans_mark rfl rest
  | item :: items, h, rest => by
    obtain ⟨hi, his⟩ := List.forall_mem_cons.mp h
    have first := scans_chars item hi (charsItems items ++ rest) (breaks_charsItems items rest)
    exact ((scans_mark rfl _).append first).append (scans_charsItems items his rest)

theorem scans_charsMembers : (members : List (String × Node)) → (∀ m ∈ members, Written m.2) →
    (rest : List Char) → Scans (charsMembers members) (tokensMembers members) rest
  | [], _, rest => scans_mark rfl rest
  | (key, value) :: members, h, rest => by
    obtain ⟨hv, hms⟩ := List.forall_mem_cons.mp h
    have first := scans_chars value hv (charsMembers members ++ rest)
      (breaks_charsMembers members rest)
    have member := JsonToken.scans_member key first
    exact ((scans_mark rfl _).append member).append (scans_charsMembers members hms rest)

end

end Node
end DocStore
