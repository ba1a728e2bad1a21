import VectorTable.Index

/-!
# VectorTable — store configuration

How a store uses an existing table: which columns hold the id, the text, the vector and the
metadata, and how it searches.

* `StoreConfig.validate` — all that can be checked without the table;
* `StoreConfig.toJson`, `StoreConfig.decode` — as a JSON object and back.
-/

namespace VectorTable

/-- The configuration of a store. -/
structure StoreConfig where
  table : String := ""
  schema : String := "public"
  idColumn : String := "id"
  contentColumn : String := "content"
  embeddingColumn : String := "embedding"
  /-- Columns that each hold one metadata key. -/
  metadataColumns : List String := []
  /-- The JSON column for the other keys. A name that the table lacks turns it off. -/
  overflowColumn : Option String := some "metadata_json"
  /-- If not empty, every column but these and the ones with a role holds a metadata key. -/
  ignoredColumns : List String := []
  strategy : DistanceStrategy := .cosine
  queryOptions : Option QueryOptions := none
  /-- The number of results when a request sets none. -/
  limit : UInt64 := 4
  /-- The number of candidates that are fetched before re-ranking. -/
  fetchLimit : UInt64 := 20
  /-- The weight of relevance against diversity in re-ranking, from 0 to 1. -/
  lambda : Double := .ofDecimal ⟨false, 5, -1⟩
deriving DecidableEq

namespace StoreConfig

instance : Inhabited StoreConfig := ⟨{}⟩

/-- The columns with a role, each with the role's name. -/
def reserved (c : StoreConfig) : List (String × String) :=
  [("id", c.idColumn), ("content", c.contentColumn), ("embedding", c.embeddingColumn)] ++
    c.overflowColumn.toList.map ("overflow", ·)

/-- Metadata columns may be listed or excluded, not both. -/
def checkColumnLists (c : StoreConfig) : Except Error Unit :=
  if c.metadataColumns.isEmpty || c.ignoredColumns.isEmpty then .ok ()
  else .error (.conflict .columnLists)

/-- The weight lies between 0 and 1; `nan` does not. -/
def lambdaInRange (c : StoreConfig) : Bool :=
  (Binary.zero false).le c.lambda && c.lambda.le (.ofInt 1)

/-- All that can be checked without the table. The first fault found is reported. -/
def validate (c : StoreConfig) : Except Error Unit := do
  c.checkColumnLists
  Identifier.check "table_name" c.table
  Identifier.check "schema_name" c.schema
  Identifier.check "id_column" c.idColumn
  Identifier.check "content_column" c.contentColumn
  Identifier.check "embedding_column" c.embeddingColumn
  c.overflowColumn.toList.forM (Identifier.check "overflow_column")
  c.metadataColumns.forM (Identifier.check "metadata column")
  c.ignoredColumns.forM (Identifier.check "ignored metadata column")
  Identifier.checkDistinct c.reserved c.metadataColumns
  if c.limit = 0 then throw (.config .zeroLimit)
  if c.fetchLimit < c.limit then throw (.config (.fetchBelowLimit c.fetchLimit c.limit))
  if !c.lambdaInRange then throw (.config (.lambdaOutside c.lambda))

/-! ## JSON -/

def toJson (c : StoreConfig) : Json :=
  .ofMembers [
    ("table_name", .string c.table),
    ("schema_name", .string c.schema),
    ("id_column", .string c.idColumn),
    ("content_column", .string c.contentColumn),
    ("embedding_column", .string c.embeddingColumn),
    ("metadata_columns", .array (c.metadataColumns.map .string)),
    ("overflow_column", c.overflowColumn.elim .null .string),
    ("ignore_metadata_columns", .array (c.ignoredColumns.map .string)),
    ("distance_strategy", c.strategy.toJson),
    ("query_options", c.queryOptions.elim .null QueryOptions.toJson),
    ("k", .ofUInt64 c.limit),
    ("fetch_k", .ofUInt64 c.fetchLimit),
    ("lambda_mult", .ofDouble c.lambda)]

def memberNames : List String :=
  ["table_name", "schema_name", "id_column", "content_column", "embedding_column",
    "metadata_columns", "overflow_column", "ignore_metadata_columns", "distance_strategy",
    "query_options", "k", "fetch_k", "lambda_mult"]

/-- Reads a configuration; a missing member takes its default. -/
def decode : Json.Decoder StoreConfig := fun t => do
  let r ← Json.Record.ofTree? memberNames t
  let d : StoreConfig := {}
  return {
    table := ← r.member "table_name" .text d.table
    schema := ← r.member "schema_name" .text d.schema
    idColumn := ← r.member "id_column" .text d.idColumn
    contentColumn := ← r.member "content_column" .text d.contentColumn
    embeddingColumn := ← r.member "embedding_column" .text d.embeddingColumn
    metadataColumns := ← r.member "metadata_columns" (.list .text) d.metadataColumns
    overflowColumn := ← r.member "overflow_column" (.optional .text) d.overflowColumn
    ignoredColumns := ← r.member "ignore_metadata_columns" (.list .text) d.ignoredColumns
    strategy := ← r.member "distance_strategy" DistanceStrategy.decode d.strategy
    -- The configuration itself has opened one object around the options.
    queryOptions := ← r.member "query_options"
      (.optional (QueryOptions.decode (Json.maxDepth - 1))) d.queryOptions
    limit := ← r.member "k" .uint64 d.limit
    fetchLimit := ← r.member "fetch_k" .uint64 d.fetchLimit
    lambda := ← r.member "lambda_mult" .double d.lambda }

end StoreConfig

end VectorTable
