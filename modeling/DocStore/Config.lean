import DocStore.Error
import DocStore.Sql.Fragment
import DocStore.Text.Blank
import DocStore.Toml.Reader

/-! # Configuration

How a database is opened: its journal mode, how long a statement waits on a locked database, and
the column that holds the documents. A configuration can be kept in a settings file. The journal
mode stays the text it was given as, so a file may hold a mode that does not exist; `validate` tells.
-/
set_option autoImplicit false

namespace DocStore

inductive JournalMode where
  | wal
  | delete
  | memory
deriving DecidableEq

namespace JournalMode

def text : JournalMode → String
  | wal => "wal"
  | delete => "delete"
  | memory => "memory"

def pragma : JournalMode → String
  | wal => "WAL"
  | delete => "DELETE"
  | memory => "MEMORY"

/-- The mode of a name in ASCII letters of either case. -/
def ofText (s : String) : Except Error JournalMode :=
  let name := String.ofList (Text.lower s.toList)
  match [wal, delete, memory].find? fun m => m.text == name with
  | some m => .ok m
  | none => .error (.config (.journalMode name))

end JournalMode

structure StoreConfig where
  journalMode : String := JournalMode.wal.text
  /-- How long a statement waits on a locked database, in milliseconds. -/
  busyTimeout : UInt64 := 5000
  documentColumn : String := Sql.Column.defaultName
deriving DecidableEq

namespace StoreConfig

/-! ## Fields -/

def withJournalMode (c : StoreConfig) (m : JournalMode) : StoreConfig :=
  { c with journalMode := m.text }

/-- Sets the timeout in whole milliseconds; one beyond 64 bits becomes the greatest. -/
def withBusyTimeout (c : StoreConfig) (seconds nanos : Nat) : StoreConfig :=
  let millis := seconds * 1000 + nanos / 1000000
  { c with busyTimeout := UInt64.ofNat (min millis 18446744073709551615) }

def withDocumentColumn (c : StoreConfig) (column : String) : StoreConfig :=
  { c with documentColumn := column }

def mode (c : StoreConfig) : Except Error JournalMode := JournalMode.ofText c.journalMode

/-- The timeout in whole seconds, and the nanoseconds beyond them. -/
def timeout (c : StoreConfig) : Nat × Nat :=
  (c.busyTimeout.toNat / 1000, c.busyTimeout.toNat % 1000 * 1000000)

/-- The first fault of a configuration, if there is one. -/
def validate (c : StoreConfig) : Except Error Unit := do
  let _ ← c.mode
  if Sql.isPlainIdentifier c.documentColumn then pure ()
  else throw (.config (.documentColumn c.documentColumn))

/-! ## Settings files -/

def fileName : String := "jsondoc.toml"

def journalModeKey : String := "journal_mode"
def busyTimeoutKey : String := "busy_timeout_ms"
def documentColumnKey : String := "document_column"

/-- The settings file that is written where there is none. -/
def defaultText : String :=
  "# jsondoc store configuration\n" ++
  "#\n" ++
  "# Journal mode: \"wal\" (default), \"delete\" or \"memory\"\n" ++
  "#   \"wal\"    = concurrent readers alongside one writer\n" ++
  "#   \"delete\" = classic rollback journal\n" ++
  "#   \"memory\" = journal kept in memory, not crash safe\n" ++
  "journal_mode = \"wal\"\n" ++
  "\n" ++
  "# Milliseconds a statement waits on a locked database before failing.\n" ++
  "busy_timeout_ms = 5000\n" ++
  "\n" ++
  "# Column holding the JSON document in every collection table.\n" ++
  "document_column = \"data\"\n"

def textSetting (key default : String) (settings : List (String × Toml)) : Option String :=
  match Toml.lookup? key settings with
  | none => some default
  | some (.string s) => some s
  | some _ => none

def natSetting (key : String) (default : UInt64) (settings : List (String × Toml)) :
    Option UInt64 :=
  match Toml.lookup? key settings with
  | none => some default
  | some (.integer i) => if 0 ≤ i then some (UInt64.ofNat i.toNat) else none
  | some _ => none

/-- The configuration of some settings; other settings are ignored. -/
def ofSettings? (settings : List (String × Toml)) : Option StoreConfig := do
  let standard : StoreConfig := {}
  let journalMode ← textSetting journalModeKey standard.journalMode settings
  let busyTimeout ← natSetting busyTimeoutKey standard.busyTimeout settings
  let documentColumn ← textSetting documentColumnKey standard.documentColumn settings
  pure { journalMode, busyTimeout, documentColumn }

def ofText (content : String) : Except Error StoreConfig := do
  match (Toml.read? content).bind ofSettings? with
  | none => throw (.config .unreadable)
  | some c =>
    c.validate
    pure c

/-- The configuration of a settings file, which may be missing. -/
def load (file : Option String) : Except Error StoreConfig :=
  match file with
  | none => .error .io
  | some content => ofText content

def line (key : String) (value : List Char) : List Char :=
  key.toList ++ [' ', '=', ' '] ++ value ++ ['\n']

/-- The content of the settings file of a configuration. Settings files hold integers of 64 bits
with sign, so a longer timeout has no form. -/
def toText (c : StoreConfig) : Except Error String :=
  if 9223372036854775807 < c.busyTimeout.toNat then .error (.config .unwritable)
  else
    .ok (String.ofList (line journalModeKey (Toml.write c.journalMode.toList) ++
      line busyTimeoutKey (Text.decimal c.busyTimeout.toNat) ++
      line documentColumnKey (Toml.write c.documentColumn.toList)))

/-- A settings file after the default is written where there is none. -/
def defaultIfMissing (file : Option String) : String := file.getD defaultText

end StoreConfig
end DocStore
