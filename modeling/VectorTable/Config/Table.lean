import VectorTable.Index
import VectorTable.Text.Blank

/-!
# VectorTable — table configuration

The layout of a new table: the columns that every store needs, one column for each listed
metadata key, and the JSON column for the other keys.

* `TableConfig.validate` — which layouts are sound;
* `TableConfig.createStatements` — the statements that make the table.
-/

namespace VectorTable

/-- A metadata column of a new table. Its type is written into the statement as it stands. -/
structure MetadataColumn where
  name : String
  dataType : String
  nullable : Bool := true
deriving DecidableEq

namespace MetadataColumn

def definition (c : MetadataColumn) : Sql :=
  [.name c.name, .text " ", .text c.dataType] ++
    if c.nullable then [] else [.text " NOT NULL"]

def toJson (c : MetadataColumn) : Json :=
  .ofMembers [("name", .string c.name), ("data_type", .string c.dataType),
    ("nullable", .bool c.nullable)]

def decode : Json.Decoder MetadataColumn := fun t => do
  let r ← Json.Record.ofTree? ["name", "data_type", "nullable"] t
  return {
    name := ← r.required "name" .text
    dataType := ← r.required "data_type" .text
    nullable := ← r.member "nullable" .bool true }

end MetadataColumn

/-- The layout of a new table. -/
structure TableConfig where
  table : String := ""
  vectorSize : UInt32 := 0
  schema : String := "public"
  idColumn : String := "id"
  contentColumn : String := "content"
  embeddingColumn : String := "embedding"
  metadataColumns : List MetadataColumn := []
  overflowColumn : String := "metadata_json"
  /-- An existing table of the same name is dropped first. -/
  overwrite : Bool := false
  /-- The table gets the JSON column for keys without a column. -/
  storeMetadata : Bool := false
deriving DecidableEq

namespace TableConfig

instance : Inhabited TableConfig := ⟨{}⟩

/-- The columns with a role, each with the role's name. -/
def reserved (c : TableConfig) : List (String × String) :=
  [("id", c.idColumn), ("content", c.contentColumn), ("embedding", c.embeddingColumn)] ++
    if c.storeMetadata then [("overflow", c.overflowColumn)] else []

def checkMetadataColumn (c : MetadataColumn) : Except Error Unit := do
  Identifier.check "metadata column" c.name
  if Text.isBlankText c.dataType then throw (.config (.missingDataType c.name))

/-- Whether the layout is sound. The first fault found is reported. -/
def validate (c : TableConfig) : Except Error Unit := do
  Identifier.check "table_name" c.table
  Identifier.check "schema_name" c.schema
  Identifier.check "id_column" c.idColumn
  Identifier.check "content_column" c.contentColumn
  Identifier.check "embedding_column" c.embeddingColumn
  Identifier.check "overflow_column" c.overflowColumn
  if c.vectorSize = 0 then throw (.config .zeroVectorSize)
  c.metadataColumns.forM checkMetadataColumn
  Identifier.checkDistinct c.reserved (c.metadataColumns.map (·.name))

/-- The definitions of the columns, in order. -/
def columnDefinitions (c : TableConfig) : List Sql :=
  [[.name c.idColumn, .text " UUID PRIMARY KEY"],
    [.name c.contentColumn, .text " TEXT NULL"],
    [.name c.embeddingColumn, .text s!" vector({c.vectorSize}) NOT NULL"]] ++
    c.metadataColumns.map MetadataColumn.definition ++
    if c.storeMetadata then [MetadataColumn.definition ⟨c.overflowColumn, "JSON", true⟩] else []

/-- The statements that make the table, in order. -/
def createStatements (c : TableConfig) : List Sql :=
  let table := Sql.qualified c.schema c.table
  [[.text "CREATE EXTENSION IF NOT EXISTS vector"]] ++
    (if c.overwrite then [.text "DROP TABLE IF EXISTS " :: table] else []) ++
    [.text "CREATE TABLE " :: table ++ [.text " ("] ++ Sql.commas c.columnDefinitions ++
      [.text ")"]]

/-! ## JSON -/

def toJson (c : TableConfig) : Json :=
  .ofMembers [
    ("table_name", .string c.table),
    ("vector_size", .ofUInt32 c.vectorSize),
    ("schema_name", .string c.schema),
    ("id_column", .string c.idColumn),
    ("content_column", .string c.contentColumn),
    ("embedding_column", .string c.embeddingColumn),
    ("metadata_columns", .array (c.metadataColumns.map MetadataColumn.toJson)),
    ("overflow_column", .string c.overflowColumn),
    ("overwrite_existing", .bool c.overwrite),
    ("store_metadata", .bool c.storeMetadata)]

def memberNames : List String :=
  ["table_name", "vector_size", "schema_name", "id_column", "content_column",
    "embedding_column", "metadata_columns", "overflow_column", "overwrite_existing",
    "store_metadata"]

/-- Reads a layout; a missing member takes its default. -/
def decode : Json.Decoder TableConfig := fun t => do
  let r ← Json.Record.ofTree? memberNames t
  let d : TableConfig := {}
  return {
    table := ← r.member "table_name" .text d.table
    vectorSize := ← r.member "vector_size" .uint32 d.vectorSize
    schema := ← r.member "schema_name" .text d.schema
    idColumn := ← r.member "id_column" .text d.idColumn
    contentColumn := ← r.member "content_column" .text d.contentColumn
    embeddingColumn := ← r.member "embedding_column" .text d.embeddingColumn
    metadataColumns := ← r.member "metadata_columns" (.list MetadataColumn.decode)
      d.metadataColumns
    overflowColumn := ← r.member "overflow_column" .text d.overflowColumn
    overwrite := ← r.member "overwrite_existing" .bool d.overwrite
    storeMetadata := ← r.member "store_metadata" .bool d.storeMetadata }

end TableConfig

end VectorTable
