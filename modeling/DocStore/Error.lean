import DocStore.Json.Node
import DocStore.Sql.Quoting
import DocStore.Text.Quoted
import DocStore.Text.Utf8

/-! # Errors

An error names its cause; `Error.message` is the one place where causes are put into words. -/
set_option autoImplicit false

namespace DocStore

inductive UnencodableCause where
  | notFinite (x : Binary64)
  | noEncoder
  /-- A map key whose encoded form is an array or an object. -/
  | compoundKey (encoded : Json)

inductive InvalidTextCause where
  | bytes (e : Utf8.DecodeError)
  /-- A path, shown with its ill-formed parts replaced. -/
  | path (shown : String)

/-- What a decoder found in place of what it expected. -/
inductive Found where
  | json (j : Json)
  | field (found : Found) (key : String)
  | blob (size : Nat)

inductive ConfigCause where
  | columnOfCompiler (column : String)
  | documentColumn (column : String)
  | journalMode (text : String)
  /-- The file is no configuration in its file format. -/
  | unreadable
  /-- The configuration has no form in the file format. -/
  | unwritable
deriving DecidableEq

inductive EngineCause where
  | reported (text : String)
  | uniqueViolation (index : String)
  | noSuchTable
  | noSuchColumn
  | reservedName
  | nameTaken
  | badStatement
  | badPath
  | malformedJson
  | datatypeMismatch
deriving DecidableEq

inductive Error where
  | unencodable (typeName : String) (cause : UnencodableCause)
  | invalidText (source : String) (cause : InvalidTextCause)
  | nestingTooDeep (depth limit : Nat)
  | emptyPredicateList (operator : String)
  | emptyUpdateList
  | nonNumericDelta (found : Json)
  | invalidIndexSql (sql : String)
  | decode (expected : String) (found : Found)
  | invalidCollectionName (name : String)
  | notADocument (found : Json)
  | config (cause : ConfigCause)
  /-- A text is not JSON of the expected kind. -/
  | serialization
  | io
  | engine (cause : EngineCause)

/-! ## Wording -/

def UnencodableCause.message : UnencodableCause → String
  | .notFinite x => x.text ++ " is not a finite number"
  | .noEncoder => "no custom encoder matched"
  | .compoundKey encoded => "mapping key encodes to non-scalar " ++ encoded.text

def InvalidTextCause.message : InvalidTextCause → String
  | .bytes e => e.message
  | .path shown => shown ++ " is not valid UTF-8"

def Found.message : Found → String
  | .json j => j.text
  | .field found key => found.message ++ " in field " ++ Text.quoted key
  | .blob size => "BLOB of " ++ toString size ++ " bytes"

def ConfigCause.message : ConfigCause → String
  | .columnOfCompiler c => "document column '" ++ c ++ "' is not a plain identifier"
  | .documentColumn c => "Invalid document column '" ++ c ++ "'. Expected a plain identifier."
  | .journalMode t =>
    "Invalid journal mode '" ++ t ++ "'. Expected \"wal\", \"delete\" or \"memory\"."
  | .unreadable => "Failed to parse config file"
  | .unwritable => "Failed to serialize config"

def EngineCause.message : EngineCause → String
  | .reported text => text
  | .uniqueViolation index => "UNIQUE constraint failed: index " ++ Sql.quoteLiteral index
  | .noSuchTable => "no such table"
  | .noSuchColumn => "no such column"
  | .reservedName => "object name reserved for internal use"
  | .nameTaken => "name already in use"
  | .badStatement => "syntax error"
  | .badPath => "bad JSON path"
  | .malformedJson => "malformed JSON"
  | .datatypeMismatch => "datatype mismatch"

namespace Error

def message : Error → String
  | unencodable t cause => "Cannot encode value of type " ++ t ++ ": " ++ cause.message
  | invalidText source cause => "Invalid text in " ++ source ++ ": " ++ cause.message
  | nestingTooDeep depth limit =>
    "Value nesting depth " ++ toString depth ++ " exceeds maximum of " ++ toString limit ++ " levels"
  | emptyPredicateList operator => "Empty predicate list in " ++ operator
  | emptyUpdateList => "Update requires at least one operation"
  | nonNumericDelta found => "Increment delta must be numeric, got " ++ found.text
  | invalidIndexSql sql => "Invalid index SQL: " ++ sql
  | decode expected found =>
    "Decode error: expected " ++ expected ++ ", found " ++ found.message
  | invalidCollectionName name => "Invalid collection name: " ++ Text.quoted name
  | notADocument found => "Document must encode to a JSON object, got " ++ found.kindName
  | config cause => "Configuration error: " ++ cause.message
  | serialization => "Serialization error"
  | io => "I/O error"
  | engine cause => "Engine error: " ++ cause.message

def kindName : Error → String
  | unencodable .. => "Unencodable"
  | invalidText .. => "InvalidText"
  | nestingTooDeep .. => "NestingTooDeep"
  | emptyPredicateList .. => "EmptyPredicateList"
  | emptyUpdateList => "EmptyUpdateList"
  | nonNumericDelta .. => "NonNumericDelta"
  | invalidIndexSql .. => "InvalidIndexSql"
  | decode .. => "Decode"
  | invalidCollectionName .. => "InvalidCollectionName"
  | notADocument .. => "NotADocument"
  | config .. => "Config"
  | serialization => "Serialization"
  | io => "Io"
  | engine .. => "Engine"

def isEngine : Error → Bool
  | engine _ => true
  | _ => false

/-- Whether the message of an error is fixed. The words for a file or text that cannot be read are
left open, and so are the engine's words for most of its refusals. -/
def isWorded : Error → Bool
  | serialization | io => false
  | config cause => cause != .unreadable && cause != .unwritable
  | engine (.reported _) | engine (.uniqueViolation _) => true
  | engine _ => false
  | _ => true

/-- The error of a decoder that found a value of the wrong shape. -/
def unexpected (expected : String) (found : Json) : Error := .decode expected (.json found)

end Error
end DocStore
