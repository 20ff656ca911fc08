import DocStore.Proofs.Text.Digits
import DocStore.Proofs.Text.Words
import DocStore.Toml.Reader
import Mathlib.Data.List.Basic
import Mathlib.Data.List.Nodup

/-! # Reading lines that were written

A line of a settings file is a key, an equals sign and a value. A bare text, of letters, digits,
underscores and hyphens only, is written between double quotes as it is. What a value is read as
does not depend on the lines after it (`Reads`), so a file of lines is read line by line. -/
set_option autoImplicit false

namespace DocStore.Toml

variable {cs text rest : List Char} {c d : Char}

/-! ## Bare texts -/

structure Bare (cs : List Char) : Prop where
  filled : cs ≠ []
  parts : ∀ c ∈ cs, isKeyPart c = true

theorem Bare.of_all (filled : cs.isEmpty = false) (parts : cs.all isKeyPart = true) : Bare cs :=
  ⟨List.isEmpty_eq_false_iff.mp filled, List.all_eq_true.mp parts⟩

theorem toNat_lt_of_isKeyPart (h : isKeyPart c = true) : c.toNat < 128 := by
  unfold isKeyPart Char.isAlphanum Char.isAlpha Char.isUpper Char.isLower Char.isDigit at h
  simp only [Bool.or_eq_true, Bool.and_eq_true, decide_eq_true_eq, beq_iff_eq,
    UInt32.le_iff_toNat_le, ge_iff_le] at h
  rcases h with (((⟨-, h⟩ | ⟨-, h⟩) | ⟨-, h⟩) | rfl) | rfl
  · exact Nat.lt_of_le_of_lt h (by decide)
  · exact Nat.lt_of_le_of_lt h (by decide)
  · exact Nat.lt_of_le_of_lt h (by decide)
  · decide
  · decide

theorem of_ascii {p : Char → Prop} (ascii : ∀ n < 128, p (Char.ofNat n)) (h : c.toNat < 128) :
    p c := by
  have known := ascii c.toNat h
  rwa [Char.ofNat_toNat] at known

/-- What holds of the ASCII characters that may stand in a bare text holds of all of them. -/
theorem of_isKeyPart {p : Char → Prop}
    (ascii : ∀ n < 128, isKeyPart (Char.ofNat n) = true → p (Char.ofNat n))
    (h : isKeyPart c = true) : p c :=
  of_ascii (p := fun c => isKeyPart c = true → p c) ascii (toNat_lt_of_isKeyPart h) h

theorem isPlain_of_isKeyPart (h : isKeyPart c = true) : isPlain c = true :=
  of_isKeyPart (p := fun c => isPlain c = true) (by decide) h

theorem isBlank_of_isKeyPart (h : isKeyPart c = true) : isBlank c = false :=
  of_isKeyPart (p := fun c => isBlank c = false) (by decide) h

theorem needsEscape_of_isKeyPart (h : isKeyPart c = true) : needsEscape c = false :=
  of_isKeyPart (p := fun c => needsEscape c = false) (by decide) h

theorem escape_of_isKeyPart (h : isKeyPart c = true) : escape c = [c] :=
  of_isKeyPart (p := fun c => escape c = [c]) (by decide) h

theorem ne_of_isKeyPart (h : isKeyPart c = true) (hd : isKeyPart d = false) : c ≠ d := by
  rintro rfl
  rw [h] at hd
  cases hd

theorem Bare.not_mem (h : Bare cs) (hd : isKeyPart d = false) : d ∉ cs :=
  fun mem => ne_of_isKeyPart (h.parts d mem) hd rfl

theorem Bare.exists_cons (h : Bare cs) :
    ∃ c tail, cs = c :: tail ∧ isKeyPart c = true ∧ ∀ d ∈ tail, isKeyPart d = true := by
  obtain ⟨c, tail, rfl⟩ := List.exists_cons_of_ne_nil h.filled
  obtain ⟨first, others⟩ := List.forall_mem_cons.mp h.parts
  exact ⟨c, tail, rfl, first, others⟩

/-! ## Quoted texts -/

theorem longestRun_of_not_mem {mark : Char} (h : mark ∉ cs) : longestRun mark 0 cs = 0 := by
  induction cs with
  | nil => rfl
  | cons c cs ih =>
    rw [List.mem_cons, not_or] at h
    rw [longestRun, if_neg (Ne.symm h.1), ih h.2]
    rfl

theorem write_bare (h : Bare cs) : write cs = '"' :: cs ++ ['"'] := by
  have control : cs.any needsEscape = false :=
    List.any_eq_false.mpr fun c mem => by simp [needsEscape_of_isKeyPart (h.parts c mem)]
  have backslash : cs.contains '\\' = false := by simpa using h.not_mem (d := '\\') (by decide)
  have line : cs.contains '\n' = false := by simpa using h.not_mem (d := '\n') (by decide)
  have doubles := longestRun_of_not_mem (h.not_mem (d := '"') (by decide))
  have escaped : cs.flatMap escape = cs := by
    rw [List.flatMap_congr fun c mem => escape_of_isKeyPart (h.parts c mem)]
    exact List.flatMap_singleton' cs
  simp only [write, control, backslash, line, doubles]
  exact congrArg (fun shown => '"' :: shown ++ ['"']) escaped

theorem readEscaped?_bare (h : ∀ c ∈ cs, isKeyPart c = true) (rest : List Char) :
    readEscaped? (cs ++ '"' :: rest) = some (cs, rest) := by
  induction cs with
  | nil => rfl
  | cons c cs ih =>
    obtain ⟨first, others⟩ := List.forall_mem_cons.mp h
    have quote : c ≠ '"' := ne_of_isKeyPart first (by decide)
    have backslash : c ≠ '\\' := ne_of_isKeyPart first (by decide)
    rw [List.cons_append, readEscaped?]
    · simp [isPlain_of_isKeyPart first, backslash, ih others, before]
    all_goals simp [quote, backslash]

theorem readQuoted?_write (h : Bare cs) (rest : List Char) :
    readQuoted? (write cs ++ rest) = some (some (cs, rest)) := by
  have read := readEscaped?_bare h.parts rest
  obtain ⟨c, tail, rfl, first, -⟩ := h.exists_cons
  have quote : c ≠ '"' := ne_of_isKeyPart first (by decide)
  have split : write (c :: tail) ++ rest = '"' :: c :: (tail ++ '"' :: rest) := by
    simp [write_bare h]
  rw [split, readQuoted?]
  · exact congrArg some read
  all_goals simp [quote]

/-! ## Integers -/

variable {n : Nat}

theorem not_mem_decimal (hd : Text.isDigit d = false) : d ∉ Text.decimal n := by
  intro mem
  rw [Text.isDigit_of_mem_decimal n d mem] at hd
  cases hd

/-- What holds of all ASCII digits holds of the digits of a number. -/
theorem of_mem_decimal {p : Char → Prop}
    (ascii : ∀ n < 128, Text.isDigit (Char.ofNat n) = true → p (Char.ofNat n))
    (h : c ∈ Text.decimal n) : p c := by
  have digit := Text.isDigit_of_mem_decimal n c h
  have bound : c.toNat < 128 := by
    simp only [Text.isDigit, Bool.and_eq_true, decide_eq_true_eq, Char.le_def,
      UInt32.le_iff_toNat_le] at digit
    exact Nat.lt_of_le_of_lt digit.2 (by decide)
  exact of_ascii (p := fun c => Text.isDigit c = true → p c) ascii bound digit

theorem splitSign_decimal : splitSign (Text.decimal n) = (false, Text.decimal n) := by
  have minus : '-' ∉ Text.decimal n := not_mem_decimal (by decide)
  have plus : '+' ∉ Text.decimal n := not_mem_decimal (by decide)
  unfold splitSign
  split
  · rename_i rest digits
    simp [digits] at minus
  · rename_i rest digits
    simp [digits] at plus
  · rfl

theorem digits?_decimal : digits? 10 (Text.decimal n) = some (Text.decimal n) := by
  have unmarked : (Text.decimal n).any (· == '_') = false := by
    rw [List.any_eq_false]
    rintro c mem mark
    exact not_mem_decimal (d := '_') (by decide) (beq_iff_eq.mp mark ▸ mem)
  have filled : (Text.decimal n).isEmpty = false :=
    List.isEmpty_eq_false_iff.mpr (Text.decimal_ne_nil n)
  have valid : ((Text.decimal n).all fun c => (Text.digitValue? 10 c).isSome) = true := by
    rw [List.all_eq_true]
    exact fun c mem => of_mem_decimal (p := fun c => (Text.digitValue? 10 c).isSome = true)
      (by decide) mem
  rw [digits?, splitBy_unmarked unmarked]
  simp [filled, valid]

theorem isPlainWhole_decimal : isPlainWhole (Text.decimal n) = true := by
  rw [isPlainWhole, Bool.or_eq_true]
  by_cases zero : n = 0
  · subst zero
    exact .inl rfl
  · exact .inr (bne_iff_ne.mpr (Text.head?_decimal_ne_zero zero))

theorem readDecimal?_decimal : readDecimal? (Text.decimal n) = some (n : Int) := by
  rw [readDecimal?, splitSign_decimal]
  simp [digits?_decimal, isPlainWhole_decimal, guard]

theorem readInteger?_decimal (h : n < 2 ^ 63) :
    readInteger? (Text.decimal n) = some (n : Int) := by
  have fits : fits64 n = true := by
    rw [fits64, Bool.and_eq_true, decide_eq_true_iff, decide_eq_true_iff]
    omega
  have letter (d : Char) (hd : Text.isDigit d = false) (rest : List Char) :
      Text.decimal n ≠ '0' :: d :: rest := by
    intro same
    exact not_mem_decimal (n := n) hd (same ▸ by simp)
  unfold readInteger?
  split
  · rename_i rest same
    exact absurd same (letter 'x' (by decide) rest)
  · rename_i rest same
    exact absurd same (letter 'o' (by decide) rest)
  · rename_i rest same
    exact absurd same (letter 'b' (by decide) rest)
  · rw [readDecimal?_decimal, Option.filter_some, if_pos fits]

theorem readWord?_decimal (h : n < 2 ^ 63) (rest : List Char) :
    readWord? (Text.decimal n ++ '\n' :: rest) = some (.integer n, '\n' :: rest) := by
  have parts : ∀ c ∈ Text.decimal n, isWordPart c = true := fun c mem =>
    of_mem_decimal (p := fun c => isWordPart c = true) (by decide) mem
  have ends : isWordPart '\n' = false := by decide
  have word : (Text.decimal n ++ '\n' :: rest).takeWhile isWordPart = Text.decimal n := by
    rw [List.takeWhile_append_of_pos parts, List.takeWhile_cons_of_neg (by simp [ends]),
      List.append_nil]
  have after : (Text.decimal n ++ '\n' :: rest).dropWhile isWordPart = '\n' :: rest := by
    rw [List.dropWhile_append_of_pos parts, List.dropWhile_cons_of_neg (by simp [ends])]
  have alone (word : List Char) : goesOn word ('\n' :: rest) = false := Bool.and_false _
  rw [readWord?, word, after]
  simp [alone, ofWord?, readInteger?_decimal h]

/-! ## Values -/

/-- Whether a text is read as a value, whatever lines come after it. -/
structure Reads (text : List Char) (v : Toml) : Prop where
  starts : ∃ c tail, text = c :: tail ∧ isBlank c = false
  reads : ∀ rest, readValue? maxNesting (text ++ '\n' :: rest) = some (v, '\n' :: rest)

theorem reads_write (h : Bare cs) : Reads (write cs) (.string (String.ofList cs)) := by
  refine ⟨⟨'"', cs ++ ['"'], write_bare h, rfl⟩, fun rest => ?_⟩
  unfold maxNesting readValue?
  rw [readQuoted?_write h]
  rfl

theorem exists_decimal_eq_cons (n : Nat) :
    ∃ c tail, Text.decimal n = c :: tail ∧ Text.isDigit c = true := by
  obtain ⟨c, tail, digits⟩ := List.exists_cons_of_ne_nil (Text.decimal_ne_nil n)
  exact ⟨c, tail, digits, Text.isDigit_of_mem_decimal n c (digits ▸ List.mem_cons_self ..)⟩

theorem readQuoted?_of_isDigit (h : Text.isDigit c = true) : readQuoted? (c :: rest) = none := by
  have other (d : Char) (hd : Text.isDigit d = false) : c ≠ d := by
    rintro rfl
    rw [h] at hd
    cases hd
  unfold readQuoted?
  split
  all_goals first | rfl | rename_i same; exact absurd (List.cons.inj same).1 (other _ (by decide))

theorem reads_decimal (h : n < 2 ^ 63) : Reads (Text.decimal n) (.integer n) := by
  obtain ⟨c, tail, digits, digit⟩ := exists_decimal_eq_cons n
  have mem : c ∈ Text.decimal n := digits ▸ List.mem_cons_self ..
  have bracket : c ≠ '[' := of_mem_decimal (p := (· ≠ '[')) (by decide) mem
  have brace : c ≠ '\x7b' := of_mem_decimal (p := (· ≠ '\x7b')) (by decide) mem
  refine ⟨⟨c, tail, digits, of_mem_decimal (p := fun c => isBlank c = false) (by decide) mem⟩,
    fun rest => ?_⟩
  have word := readWord?_decimal h rest
  rw [digits, List.cons_append] at word ⊢
  rw [maxNesting, readValue?, readQuoted?_of_isDigit digit]
  · exact word
  · simp [bracket]
  · simp [brace]

/-! ## Lines -/

/-- A line that is read as a member. -/
structure Setting where
  key : List Char
  text : List Char
  value : Toml
  bare : Bare key
  reads : Reads text value

namespace Setting

def line (s : Setting) : List Char := s.key ++ [' ', '=', ' '] ++ s.text ++ ['\n']

def member (s : Setting) : String × Toml := (String.ofList s.key, s.value)

end Setting

theorem skipBlanks_cons (h : isBlank c = false) : skipBlanks (c :: rest) = c :: rest :=
  List.dropWhile_cons_of_neg (by simp [h])

theorem readKeyPart?_bare (h : Bare cs) (rest : List Char) :
    readKeyPart? (cs ++ ' ' :: rest) = some (String.ofList cs, ' ' :: rest) := by
  have ends : ¬isKeyPart ' ' = true := by decide
  have key : (cs ++ ' ' :: rest).takeWhile isKeyPart = cs := by
    rw [List.takeWhile_append_of_pos h.parts, List.takeWhile_cons_of_neg ends, List.append_nil]
  have after : (cs ++ ' ' :: rest).dropWhile isKeyPart = ' ' :: rest := by
    rw [List.dropWhile_append_of_pos h.parts, List.dropWhile_cons_of_neg ends]
  have filled : cs.isEmpty = false := List.isEmpty_eq_false_iff.mpr h.filled
  obtain ⟨c, tail, rfl, first, -⟩ := h.exists_cons
  rw [readKeyPart?, key, after, filled]
  · rfl
  · simp [ne_of_isKeyPart first (d := '"') (by decide)]
  · simp [ne_of_isKeyPart first (d := '\'') (by decide)]

theorem readKey?_bare (h : Bare cs) (n : Nat) (rest : List Char) :
    readKey? (n + 1) (cs ++ ' ' :: '=' :: rest) = some ([String.ofList cs], '=' :: rest) := by
  have part := readKeyPart?_bare h ('=' :: rest)
  obtain ⟨c, tail, rfl, first, -⟩ := h.exists_cons
  rw [readKey?, List.cons_append, skipBlanks_cons (isBlank_of_isKeyPart first), ← List.cons_append,
    part]
  rfl

theorem Setting.line_append (s : Setting) (rest : List Char) :
    s.line ++ rest = s.key ++ ' ' :: '=' :: ' ' :: (s.text ++ '\n' :: rest) := by
  simp [Setting.line]

theorem Setting.exists_line_eq_cons (s : Setting) :
    ∃ c tail, s.line = c :: tail ∧ isKeyPart c = true := by
  obtain ⟨c, tail, key, first, -⟩ := s.bare.exists_cons
  exact ⟨c, _, by rw [Setting.line, key]; rfl, first⟩

theorem readMember?_line (s : Setting) (rest : List Char) :
    readMember? (readValue? maxNesting) (s.line ++ rest) =
      some ([s.member.1], s.value, '\n' :: rest) := by
  obtain ⟨n, length⟩ : ∃ n, (s.line ++ rest).length = n + 1 := by
    obtain ⟨c, tail, line, -⟩ := s.exists_line_eq_cons
    exact ⟨(tail ++ rest).length, by rw [line]; rfl⟩
  obtain ⟨c, tail, text, unblank⟩ := s.reads.starts
  have starts : skipBlanks (' ' :: (s.text ++ '\n' :: rest)) = s.text ++ '\n' :: rest := by
    have blank : skipBlanks (' ' :: (s.text ++ '\n' :: rest)) =
      skipBlanks (s.text ++ '\n' :: rest) := rfl
    rw [blank, text, List.cons_append, skipBlanks_cons unblank]
  have key := readKey?_bare s.bare n (' ' :: (s.text ++ '\n' :: rest))
  rw [readMember?, length, s.line_append, key]
  simp only [Option.bind_eq_bind, Option.bind_some, starts, s.reads.reads]
  rfl

theorem readLine?_line (s : Setting) {root : List (String × Toml)}
    (new : lookup? s.member.1 root = none) (rest : List Char) :
    readLine? { root } (s.line ++ rest) = some ({ root := root ++ [s.member] }, '\n' :: rest) := by
  have member := readMember?_line s rest
  have added : within (assign s.value [s.member.1]) [] root = some (root ++ [s.member]) := by
    rw [within, assign, new]
    rfl
  obtain ⟨c, tail, line, first⟩ := s.exists_line_eq_cons
  rw [line, List.cons_append] at member ⊢
  rw [readLine?, member]
  · simp only [Option.bind_eq_bind, Option.bind_some, added]
    rfl
  all_goals simp [ne_of_isKeyPart first (d := '[') (by decide)]

/-- A line is read, and what follows it is read with the member that it adds. -/
theorem readLines?_line (s : Setting) {root : List (String × Toml)}
    (new : lookup? s.member.1 root = none) (n : Nat) (rest : List Char) :
    readLines? (n + 1) { root } (s.line ++ rest) =
      readLines? n { root := root ++ [s.member] } rest := by
  have read := readLine?_line s new rest
  obtain ⟨c, tail, line, first⟩ := s.exists_line_eq_cons
  have mark : c ∉ ['#', '\n', '\r'] :=
    of_isKeyPart (p := (· ∉ ['#', '\n', '\r'])) (by decide) first
  rw [line, List.cons_append] at read ⊢
  rw [readLines?, skipBlanks_cons (isBlank_of_isKeyPart first)]
  dsimp only
  rw [if_neg mark, read]
  rfl

theorem lookup?_eq_none {key : String} {members : List (String × Toml)}
    (h : key ∉ members.map Prod.fst) : lookup? key members = none := by
  rw [lookup?, Option.map_eq_none_iff, List.find?_eq_none]
  intro m mem same
  exact h (List.mem_map.mpr ⟨m, mem, beq_iff_eq.mp same⟩)

theorem readLines?_lines (settings : List Setting) {root : List (String × Toml)}
    (distinct : ((root ++ settings.map Setting.member).map Prod.fst).Nodup) {n : Nat}
    (enough : settings.length < n) :
    readLines? n { root } (settings.flatMap Setting.line) =
      some (root ++ settings.map Setting.member) := by
  induction settings generalizing root n with
  | nil =>
    obtain ⟨m, rfl⟩ := Nat.exists_eq_add_of_lt enough
    rw [List.flatMap_nil, List.map_nil, List.append_nil, readLines?]
    rfl
  | cons s settings ih =>
    obtain ⟨m, rfl⟩ : ∃ m, n = m + 1 := ⟨n - 1, by omega⟩
    have new : lookup? s.member.1 root = none := by
      rw [List.map_append, List.map_cons, List.map_cons, List.nodup_middle,
        List.nodup_cons] at distinct
      exact lookup?_eq_none fun mem => distinct.1 (List.mem_append_left _ mem)
    have split : root ++ (s :: settings).map Setting.member =
        root ++ [s.member] ++ settings.map Setting.member := by
      rw [List.map_cons, List.append_assoc, List.singleton_append]
    rw [split] at distinct ⊢
    rw [List.flatMap_cons, readLines?_line s new, ih distinct (Nat.lt_of_succ_lt_succ enough)]

theorem length_le_flatMap_line (settings : List Setting) :
    settings.length ≤ (settings.flatMap Setting.line).length := by
  induction settings with
  | nil => exact Nat.zero_le _
  | cons s settings ih =>
    obtain ⟨c, tail, line, -⟩ := s.exists_line_eq_cons
    rw [List.flatMap_cons, List.length_append, line, List.length_cons, List.length_cons]
    omega

/-- Lines with distinct keys are read as their members. -/
theorem read?_lines (settings : List Setting)
    (distinct : ((settings.map Setting.member).map Prod.fst).Nodup) :
    read? (String.ofList (settings.flatMap Setting.line)) = some (settings.map Setting.member) := by
  have lines : readLines? _ {} (settings.flatMap Setting.line) =
      some ([] ++ settings.map Setting.member) :=
    readLines?_lines settings distinct (Nat.lt_succ_of_le (length_le_flatMap_line settings))
  unfold read?
  rw [String.toList_ofList]
  split
  · rename_i rest same
    -- No line begins with a byte order mark.
    cases settings with
    | nil => cases same
    | cons s settings =>
      obtain ⟨c, tail, line, first⟩ := s.exists_line_eq_cons
      rw [List.flatMap_cons, line, List.cons_append, List.cons.injEq] at same
      exact absurd same.1 (ne_of_isKeyPart first (by decide))
  · exact lines

end DocStore.Toml
