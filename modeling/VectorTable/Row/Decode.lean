import VectorTable.Json.Reader
import VectorTable.Row.Encode

/-!
# VectorTable — reading rows

A search row holds the metadata columns first, then the id, the text, the vector, the JSON
column if there is one, and the distance. Each cell must have exactly the type that its place
asks for; metadata, the text and the JSON column may be null.

* `SearchLayout` — the places of the columns;
* `Metadata.merge` — metadata put together from columns and JSON;
* `decodeMatch` — a whole row.
-/

namespace VectorTable

/-- A cell of a row as the database returns it. -/
inductive Cell where
  | null
  | int2 (value : Int16)
  | int4 (value : Int32)
  | int8 (value : Int64)
  | float4 (value : Single)
  | float8 (value : Double)
  | uuid (value : Uuid)
  | text (value : String)
  | vector (values : List Single)
deriving DecidableEq

/-- A row of cells in the order of the select list. -/
abbrev Row := List Cell

namespace Cell

def text? : Cell → Option String
  | .text s => some s
  | _ => none

def vector? : Cell → Option (List Single)
  | .vector v => some v
  | _ => none

def float8? : Cell → Option Double
  | .float8 x => some x
  | _ => none

def int4? : Cell → Option Int32
  | .int4 i => some i
  | _ => none

end Cell

namespace Row

/-- A cell that may be null; otherwise `read` must accept it. -/
def optional {α : Type} (row : Row) (index : Nat) (read : Cell → Option α) :
    Except String (Option α) :=
  match row[index]? with
  | none => .error s!"column {index} is missing"
  | some .null => .ok none
  | some cell =>
    match read cell with
    | some value => .ok (some value)
    | none => .error s!"column {index} has another type"

/-- A cell that must not be null. -/
def required {α : Type} (row : Row) (index : Nat) (read : Cell → Option α) :
    Except String α := do
  match ← row.optional index read with
  | some value => .ok value
  | none => .error s!"column {index} is null"

end Row

/-! ## Metadata columns -/

/-- The text of a number: a whole number that fits 64 bits, else a float, else a plain text. -/
def MetadataValue.ofNumericText (text : String) : MetadataValue :=
  match Int64.parse? text.toList with
  | some i => (MetadataValue.ofInt? i.toInt).getD (.long i)
  | none =>
    match Binary.parse? text.toList with
    | some x => .double x
    | none => .string text

/-- The metadata value in a cell, as a column of a given kind has it. -/
def ColumnKind.readCell : ColumnKind → Cell → Option MetadataValue
  | .smallInt, .int2 i => some (.integer i.toInt32)
  | .integer, .int4 i => some (.integer i)
  | .bigInt, .int8 i => some (.long i)
  | .real, .float4 x => some (.float x)
  | .double, .float8 x => some (.double x)
  | .uuid, .uuid u => some (.uuid u)
  | .numeric, .text s => some (.ofNumericText s)
  | .text, .text s | .vector, .text s | .other, .text s => some (.string s)
  | _, _ => none

/-- Metadata from columns over metadata from JSON text. Columns win over the JSON, later ones
over earlier ones, and null columns leave the JSON as it is. -/
def Metadata.merge (columns : List (String × Option MetadataValue)) (overflow : Option String) :
    Except Error Metadata := do
  let stored ← match overflow with
    | none => .ok ∅
    | some text =>
      match Json.parse? text with
      | some v => Metadata.ofJson v
      | none => .error (.encoding .malformedOverflow)
  return columns.foldl (fun m (key, value) => value.elim m fun v => m.insert key v) stored

/-! ## Whole rows -/

/-- The places of the columns that follow the metadata columns. -/
structure SearchLayout where
  id : Nat
  content : Nat
  embedding : Nat
  overflow : Option Nat
  distance : Nat
deriving DecidableEq

def Catalog.searchLayout (c : Catalog) : SearchLayout :=
  let n := c.metadata.length
  { id := n
    content := n + 1
    embedding := n + 2
    overflow := c.overflow.map fun _ => n + 3
    distance := n + 3 + c.overflow.toList.length }

/-- The segment of a row. A row with neither text nor metadata has none; a row with metadata
alone has an empty text. -/
def embeddedSegment (content : Option String) (metadata : Metadata) : Option TextSegment :=
  if content.isNone && metadata.isEmpty then none else some ⟨content.getD "", metadata⟩

/-- The cells of a row, before the metadata is put together. -/
structure RawMatch where
  columns : List (String × Option MetadataValue)
  id : String
  content : Option String
  vector : List Single
  overflow : Option String
  distance : Double

/-- Reads the cells of a row, the metadata columns first. -/
def RawMatch.ofRow (catalog : Catalog) (row : Row) : Except String RawMatch := do
  let layout := catalog.searchLayout
  let columns ← catalog.metadata.zipIdx.mapM fun (c, i) => do
    return (c.name, ← row.optional i c.kind.readCell)
  let id ← row.required layout.id Cell.text?
  let content ← row.optional layout.content Cell.text?
  let vector ← row.required layout.embedding Cell.vector?
  let overflow ← match layout.overflow with
    | some i => row.optional i Cell.text?
    | none => .ok none
  let distance ← row.required layout.distance Cell.float8?
  return ⟨columns, id, content, vector, overflow, distance⟩

/-- A search row as a match. -/
def decodeMatch (catalog : Catalog) (row : Row) : Except Error Match := do
  let raw ← (RawMatch.ofRow catalog row).mapError
    (.storage s!"failed to decode search row from {catalog.tableText}")
  let metadata ← Metadata.merge raw.columns raw.overflow
  return ⟨raw.distance, raw.id, ⟨raw.vector⟩, embeddedSegment raw.content metadata⟩

/-- All rows as matches in the same order, or the fault of the first row that has one. -/
def decodeMatches (catalog : Catalog) (rows : List Row) : Except Error (List Match) :=
  rows.mapM (decodeMatch catalog)

end VectorTable
