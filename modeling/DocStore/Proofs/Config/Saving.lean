import DocStore.Config
import DocStore.Proofs.Outcome
import DocStore.Proofs.Sql.Scanning
import DocStore.Proofs.Toml.Reading

/-! # Saving a configuration

A valid configuration has bare texts: the name of a journal mode, in letters of either case, and a
plain identifier. So the file that it is saved to holds three lines that read back as its fields. A
timeout that needs all 64 bits is valid as well, but there is no file for it, as integers in files
have a sign. -/
set_option autoImplicit false

namespace DocStore

open Toml (Bare Setting)

/-! ## Bare texts -/

theorem Toml.isKeyPart_of_isIdentifierPart {c : Char} (h : Sql.isIdentifierPart c = true) :
    isKeyPart c = true := by
  simp only [Sql.isIdentifierPart, Sql.isIdentifierStart, Bool.or_eq_true, Bool.and_eq_true,
    decide_eq_true_eq, Char.le_def] at h
  unfold isKeyPart Char.isAlphanum Char.isAlpha Char.isUpper Char.isLower Char.isDigit
  simp only [Bool.or_eq_true, Bool.and_eq_true, decide_eq_true_eq, ge_iff_le]
  tauto

theorem Toml.bare_of_isPlainIdentifier {name : String} (h : Sql.isPlainIdentifier name = true) :
    Bare name.toList where
  filled := Sql.toList_ne_nil_of_isPlainIdentifier h
  parts := fun c mem => isKeyPart_of_isIdentifierPart (Sql.isIdentifierPart_of_mem h c mem)

theorem Toml.isKeyPart_of_toLower {c : Char} (h : isKeyPart c.toLower = true) :
    isKeyPart c = true := by
  unfold Char.toLower at h
  split at h
  · rename_i upper
    have letter : c.isUpper = true := decide_eq_true upper
    unfold isKeyPart Char.isAlphanum Char.isAlpha
    rw [letter]
    rfl
  · exact h

namespace JournalMode

theorem bare_text (m : JournalMode) : Bare m.text.toList := by
  cases m with
  | wal => exact .of_all (by decide) (by decide)
  | delete => exact .of_all (by decide) (by decide)
  | memory => exact .of_all (by decide) (by decide)

/-- The name of a mode is bare in any letters. -/
theorem bare_of_ofText {s : String} {m : JournalMode} (h : ofText s = .ok m) : Bare s.toList := by
  have lower : m.text.toList = Text.lower s.toList := by
    unfold ofText at h
    dsimp only at h
    split at h
    · rename_i found
      cases h
      have same := List.find?_some found
      rw [beq_iff_eq.mp same, String.toList_ofList]
    · cases h
  have bare := m.bare_text
  rw [lower] at bare
  refine ⟨fun none => bare.filled (by rw [none]; rfl), fun c mem => ?_⟩
  exact Toml.isKeyPart_of_toLower (bare.parts _ (List.mem_map_of_mem mem))

end JournalMode

namespace StoreConfig

variable {c : StoreConfig}

theorem validate_eq_ok : c.validate = .ok () ↔
    (∃ m, c.mode = .ok m) ∧ Sql.isPlainIdentifier c.documentColumn = true := by
  rw [validate, Outcome.bind_eq_ok]
  constructor
  · rintro ⟨m, known, h⟩
    refine ⟨⟨m, known⟩, ?_⟩
    by_contra other
    rw [if_neg other] at h
    cases h
  · rintro ⟨⟨m, known⟩, plain⟩
    exact ⟨m, known, if_pos plain⟩

/-! ## The file -/

/-- The members that a configuration is saved as. -/
def members (c : StoreConfig) : List (String × Toml) :=
  [(journalModeKey, .string c.journalMode), (busyTimeoutKey, .integer c.busyTimeout.toNat),
    (documentColumnKey, .string c.documentColumn)]

theorem ofSettings?_members (c : StoreConfig) : ofSettings? c.members = some c := by
  simp [members, ofSettings?, textSetting, natSetting, Toml.lookup?, journalModeKey,
    busyTimeoutKey, documentColumnKey]

/-- The content of a file is read as the members, if the texts are bare. -/
theorem read?_toText (journalMode : Bare c.journalMode.toList)
    (documentColumn : Bare c.documentColumn.toList) (fits : c.busyTimeout.toNat < 2 ^ 63) :
    ∃ text, c.toText = .ok text ∧ Toml.read? text = some c.members := by
  have first : Bare journalModeKey.toList := .of_all (by decide) (by decide)
  have second : Bare busyTimeoutKey.toList := .of_all (by decide) (by decide)
  have third : Bare documentColumnKey.toList := .of_all (by decide) (by decide)
  let settings : List Setting :=
    [⟨_, _, _, first, Toml.reads_write journalMode⟩, ⟨_, _, _, second, Toml.reads_decimal fits⟩,
      ⟨_, _, _, third, Toml.reads_write documentColumn⟩]
  have written : c.toText = .ok (String.ofList (settings.flatMap Setting.line)) := by
    rw [toText, if_neg (by omega)]
    simp [settings, Setting.line, line]
  have same : settings.map Setting.member = c.members := by
    simp [settings, Setting.member, members]
  have read := Toml.read?_lines settings (by rw [same]; simp [members]; decide)
  rw [same] at read
  exact ⟨_, written, read⟩

/-- A valid configuration is saved to a file that it is loaded from again, if its timeout fits into
an integer of 64 bits with sign. Else it cannot be saved. -/
theorem load_toText (c : StoreConfig) (valid : c.validate = .ok ()) :
    (c.busyTimeout.toNat < 2 ^ 63 → ∃ text, c.toText = .ok text ∧ load (some text) = .ok c) ∧
      (2 ^ 63 ≤ c.busyTimeout.toNat → c.toText = .error (.config .unwritable)) := by
  obtain ⟨⟨m, known⟩, plain⟩ := validate_eq_ok.mp valid
  refine ⟨fun fits => ?_, fun long => if_pos (by omega)⟩
  obtain ⟨text, written, read⟩ :=
    read?_toText (JournalMode.bare_of_ofText known) (Toml.bare_of_isPlainIdentifier plain) fits
  refine ⟨text, written, ?_⟩
  rw [load, ofText, read, Option.bind_some, ofSettings?_members]
  dsimp only
  rw [valid]
  rfl

/-- A mode in capital letters, a quarter of a second, and a column of one's own. -/
def spelled : StoreConfig :=
  ({ journalMode := "MEMORY" : StoreConfig }.withBusyTimeout 0 250000000).withDocumentColumn "body"

theorem load_toText_spelled : spelled.validate = .ok () ∧ spelled.busyTimeout.toNat < 2 ^ 63 ∧
    ∃ text, spelled.toText = .ok text ∧ load (some text) = .ok spelled := by
  have valid : spelled.validate = .ok () := validate_eq_ok.mpr ⟨⟨.memory, rfl⟩, by decide⟩
  have fits : spelled.busyTimeout.toNat < 2 ^ 63 := by decide
  exact ⟨valid, fits, (load_toText spelled valid).1 fits⟩

/-- A timeout of as many seconds as 64 bits hold becomes the longest timeout, which is valid, but is
not saved. -/
theorem load_toText_longest :
    let longest := ({} : StoreConfig).withBusyTimeout 18446744073709551615 0
    longest.busyTimeout.toNat = 18446744073709551615 ∧ longest.validate = .ok () ∧
      longest.toText = .error (.config .unwritable) := by
  exact ⟨by decide, validate_eq_ok.mpr ⟨⟨.wal, rfl⟩, by decide⟩, if_pos (by decide)⟩

end StoreConfig
end DocStore
