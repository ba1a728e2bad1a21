import VectorTable.Json.Basic
import VectorTable.Text.Escaped

/-!
# VectorTable — errors

What can go wrong, by cause. Faults of the configuration and of the table's layout mean that a
store was never opened. A violation is found before any statement reaches the database. A
storage error carries the driver's own words next to the operation they interrupted.

* `Error.message` — the full text of an error.
-/

namespace VectorTable

/-- A fault in a configuration. `stated` carries the text of a check made elsewhere. -/
inductive ConfigFault where
  | emptyName (what : String)
  | nameWithNul (what name : String)
  | longName (what name : String)
  | sharedColumn (role name : String)
  | repeatedMetadataColumn (name : String)
  | zeroLimit
  | fetchBelowLimit (fetch limit : UInt64)
  | lambdaOutside (lambda : Double)
  | zeroVectorSize
  | missingDataType (column : String)
  | stated (text : String)

/-- Two settings that exclude each other. -/
inductive ConflictFault where
  | columnLists
  | stated (text : String)

/-- A request that breaks a promise of its caller. -/
inductive Violation where
  | unequalBatch (embeddings segments : Nat)
  | unequalRows (ids embeddings segments : Nat)
  | emptyEmbeddings
  | dimension (found : Nat) (table : String) (expected : Nat)
  | emptyQuery
  | zeroMaxResults
  | noIds
  | malformedId (id : String)
  | unknownKey (key table : String)
  | mixedValues (key : String)
  | stated (text : String)

/-- A value that cannot be written as JSON or read from it. -/
inductive EncodingFault where
  | notFinite (value : Double)
  | integerTooLarge (key : String) (value : Int)
  | unsupported (key : String) (value : Json)
  | notAnObject (value : Json)
  | malformedOverflow
  | stated (text : String)

/-- An error of a store or of the management of its tables. -/
inductive Error where
  | config (fault : ConfigFault)
  | conflict (fault : ConflictFault)
  | tableNotFound (schema table : String)
  | missingColumn (schema table column role : String)
  | typeMismatch (schema table column role expected actual : String)
  | violation (fault : Violation)
  | storage (context source : String)
  | encoding (fault : EncodingFault)

/-- The longest name, in bytes of UTF-8, that the database keeps whole. -/
def maxNameBytes : Nat := 63

/-! ## Messages -/

def ConfigFault.message : ConfigFault → String
  | .emptyName what => s!"{what} must not be empty"
  | .nameWithNul what name => s!"{what} '{Text.escape name}' must not contain NUL characters"
  | .longName what name => s!"{what} '{name}' is longer than {maxNameBytes} bytes"
  | .sharedColumn role name => s!"{role} column '{name}' is used for more than one role"
  | .repeatedMetadataColumn name =>
    s!"metadata column '{name}' is listed twice or collides with a reserved column"
  | .zeroLimit => "k must be > 0"
  | .fetchBelowLimit fetch limit => s!"fetch_k ({fetch}) must be >= k ({limit})"
  | .lambdaOutside lambda => s!"lambda_mult ({lambda.display}) must be within [0, 1]"
  | .zeroVectorSize => "vector_size must be > 0"
  | .missingDataType column => s!"metadata column '{column}' has no data type"
  | .stated text => text

def ConflictFault.message : ConflictFault → String
  | .columnLists =>
    "metadata_columns and ignore_metadata_columns cannot be used together"
  | .stated text => text

def Violation.message : Violation → String
  | .unequalBatch embeddings segments =>
    s!"embeddings ({embeddings}) and segments ({segments}) must have the same length"
  | .unequalRows ids embeddings segments =>
    s!"ids ({ids}), embeddings ({embeddings}) and segments ({segments}) must have the same length"
  | .emptyEmbeddings => "embeddings must not be empty"
  | .dimension found table expected =>
    s!"embedding has dimension {found}, {table} expects {expected}"
  | .emptyQuery => "query embedding must not be empty"
  | .zeroMaxResults => "max_results must be > 0"
  | .noIds => "ids must not be empty"
  | .malformedId id => s!"id '{id}' is not a valid UUID"
  | .unknownKey key table =>
    s!"filter key '{key}' is not a metadata column of {table} and the table has no overflow column"
  | .mixedValues key => s!"filter on '{key}' mixes numeric and non-numeric values"
  | .stated text => text

def EncodingFault.message : EncodingFault → String
  | .notFinite value => s!"non-finite number {value.display} cannot be stored as JSON"
  | .integerTooLarge key value =>
    s!"metadata key '{key}': integer {value} does not fit in a signed 64-bit value"
  | .unsupported key value => s!"metadata key '{key}': unsupported JSON value {value.render}"
  | .notAnObject value => s!"expected a JSON object for metadata, got {value.render}"
  | .malformedOverflow => "overflow metadata is not valid JSON"
  | .stated text => text

/-- The full text of an error. -/
def Error.message : Error → String
  | .config fault => s!"config error: {fault.message}"
  | .conflict fault => s!"configuration conflict: {fault.message}"
  | .tableNotFound schema table =>
    s!"table \"{schema}\".\"{table}\" does not exist or has no columns"
  | .missingColumn schema table column role =>
    s!"{role} column \"{column}\" does not exist in \"{schema}\".\"{table}\""
  | .typeMismatch schema table column role expected actual =>
    s!"{role} column \"{column}\" in \"{schema}\".\"{table}\" has type {actual}, " ++
      s!"expected {expected}"
  | .violation fault => s!"invariant violation: {fault.message}"
  | .storage context source => s!"storage error: {context}: {source}"
  | .encoding fault => s!"encoding error: {fault.message}"

/-- The driver's words inside an error, where there are any. -/
def Error.source? : Error → Option String
  | .storage _ source => some source
  | _ => none

end VectorTable
