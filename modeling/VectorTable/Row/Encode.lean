import VectorTable.Catalog
import VectorTable.Segment

/-!
# VectorTable — writing rows

A row binds the id, the text and the vector, then one value for each metadata column, then the
JSON text of the metadata without a column. A value whose kind suits its column is bound in
the column's own width; any other is bound as text with a cast to the column's type, and the
database converts it.

* `Column.param` — a metadata value for a column;
* `Metadata.split` — metadata spread over the columns;
* `encodeRow` — a whole row.
-/

namespace VectorTable

/-- The double whose shortest decimal is that of a 32-bit float: 0.1 stays 0.1. -/
def Binary.widenDecimal (x : Single) : Double :=
  (Binary.parse? x.display.toList).getD x.widen

namespace ColumnKind

/-- The null of a kind. -/
def typedNull : ColumnKind → SqlValue
  | .smallInt | .integer => .integer none
  | .bigInt => .bigint none
  | .real => .real none
  | .double => .double none
  | .uuid => .uuid none
  | .text | .numeric | .vector | .other => .text none

/-- A number in the width of a column, so that a comparison sees the number that the column
stores. What would lose digits keeps its own width. -/
def numericValue (kind : ColumnKind) (value : MetadataValue) : SqlValue :=
  match kind, value with
  | .real, .float x => .real (some x)
  | .real, .double x => .real (some x.narrow)
  | .double, .float x => .double (some x.widenDecimal)
  | .bigInt, .integer i => .bigint (some i.toInt64)
  | .smallInt, .long i | .integer, .long i =>
    if -0x80000000 ≤ i.toInt ∧ i.toInt < 0x80000000 then .integer (some (Int32.ofInt i.toInt))
    else .bigint (some i)
  | _, .integer i => .integer (some i)
  | _, .long i => .bigint (some i)
  | _, .float x => .real (some x)
  | _, .double x => .double (some x)
  | _, .string _ | _, .uuid _ => .text (some value.toText)

end ColumnKind

namespace Column

/-- A value as text, cast to the column's type. -/
def textCast (c : Column) (value : Option MetadataValue) : Param :=
  .casted (.text (value.map MetadataValue.toText)) c.typeName

/-- A metadata value, or its absence, bound for a column. -/
def param (c : Column) (value : Option MetadataValue) : Param :=
  match c.kind, value with
  | .text, value => .plain (.text (value.map MetadataValue.toText))
  | .numeric, value | .vector, value | .other, value => c.textCast value
  | kind, none => .plain kind.typedNull
  | .uuid, some (.uuid u) => .plain (.uuid (some u))
  | .uuid, value => c.textCast value
  | kind, some value =>
    if value.isNumeric then .plain (kind.numericValue value) else c.textCast (some value)

end Column

/-- Metadata spread over the columns of a table. -/
structure SplitMetadata where
  columns : List Param
  overflow : Option Param
deriving DecidableEq

namespace Metadata

/-- The entries whose keys have no column. -/
def withoutColumn (catalog : Catalog) (m : Metadata) : Entries MetadataValue :=
  m.entries.filter fun e => (catalog.metadataColumn? e.1).isNone

/-- Spreads metadata over the columns. Keys without a column go into the JSON column, if the
table has one, and are dropped otherwise. Without metadata everything is null. -/
def split (catalog : Catalog) (m : Option Metadata) : Except Error SplitMetadata := do
  let columns := catalog.metadata.map fun c => c.param (m.bind (·.get? c.name))
  match catalog.overflow with
  | none => return ⟨columns, none⟩
  | some column =>
    let json ← m.mapM fun m => entriesToJson (m.withoutColumn catalog)
    return ⟨columns, some (.casted (.text (json.map Json.render)) column.typeName)⟩

/-- The keys that are dropped. -/
def dropped (catalog : Catalog) (m : Metadata) : List String :=
  if catalog.overflow.isSome then [] else (m.withoutColumn catalog).map (·.1)

end Metadata

/-- The id of a row, cast where the id column has another type. -/
def Column.idParam (c : Column) (id : Uuid) : Param :=
  if c.kind = .uuid then .plain (.uuid (some id)) else .casted (.uuid (some id)) c.typeName

/-- A row: one value for each column that an insert writes. -/
def encodeRow (catalog : Catalog) (id : Uuid) (embedding : Embedding)
    (segment : Option TextSegment) : Except Error (List Param) := do
  let split ← Metadata.split catalog (segment.map (·.metadata))
  return [catalog.id.idParam id, .plain (.text (segment.map (·.text))),
    .plain (.vector embedding.vector)] ++ split.columns ++ split.overflow.toList

end VectorTable
