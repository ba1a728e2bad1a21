import VectorTable.EmbeddingStore
import VectorTable.Filter.Predicate
import VectorTable.Relevance
import VectorTable.Session
import VectorTable.Sql.Statement

/-!
# VectorTable — stores over a table

An embedding store over an existing table with a vector column. The table's columns are read
and verified once, when the store is opened. A request is checked in full before its first
statement is sent; inserts and searches run in one transaction each.

* `Store.openTable` — a store, or the first fault of its configuration or table;
* `Store.interface` — its operations as those of an embedding store;
* `Store.searchDiverse` — search with re-ranking by maximal marginal relevance.
-/

namespace VectorTable

/-- A store over a verified table. -/
structure Store where
  config : StoreConfig
  catalog : Catalog
deriving DecidableEq

namespace Store

/-! ## Opening -/

/-- The columns of a table in their order, dropped ones excluded. For a vector the type's
parameter is its declared dimension. -/
def introspection (config : StoreConfig) : Statement where
  sql := [.text <|
    "SELECT a.attname::text AS column_name, " ++
    "format_type(a.atttypid, a.atttypmod) AS data_type, " ++
    "t.typname::text AS type_name, " ++
    "a.atttypmod AS type_modifier " ++
    "FROM pg_catalog.pg_attribute a " ++
    "JOIN pg_catalog.pg_class c ON c.oid = a.attrelid " ++
    "JOIN pg_catalog.pg_namespace n ON n.oid = c.relnamespace " ++
    "JOIN pg_catalog.pg_type t ON t.oid = a.atttypid " ++
    "WHERE c.relname = ", .slot 1, .text " AND n.nspname = ", .slot 2,
    .text " AND a.attnum > 0 AND NOT a.attisdropped ORDER BY a.attnum"]
  values := [.text (some config.table), .text (some config.schema)]

/-- A row of the introspection as a column. -/
def columnOfRow (row : Row) : Except String Column := do
  return {
    name := ← row.required 0 Cell.text?
    dataType := ← row.required 1 Cell.text?
    typeName := ← row.required 2 Cell.text?
    modifier := ← row.required 3 Cell.int4? }

/-- Reads the columns of a table. -/
def readColumns (config : StoreConfig) : Session (List Column) := do
  let table := Identifier.qualified config.schema config.table
  let failure (source : String) : Error := .storage s!"failed to read columns of {table}" source
  let reply ← .send (.select (introspection config)) fun source => ([], failure source)
  let columns ← (reply.rows.mapM columnOfRow).mapError failure
  .log .store .debug s!"discovered {columns.length} columns in {table}"
  return columns

/-- Verifies the columns of a table and logs when the JSON column is missing. -/
def verifyColumns (config : StoreConfig) (columns : List Column) : Session Catalog := do
  let roles ← Catalog.findRoles config columns
  if let (some name, none) := (config.overflowColumn, roles.overflow) then
    let table := Identifier.qualified config.schema config.table
    .log .store .debug <| s!"overflow column '{name}' not found in {table}, " ++
      "extra metadata will not be stored"
  Catalog.ofRoles config columns roles

/-- Opens a store: validates the configuration, then reads and verifies the columns. -/
def openTable (config : StoreConfig) : Session Store := do
  config.validate
  let catalog ← verifyColumns config (← readColumns config)
  let overflow := catalog.overflow.elim "disabled" (·.name)
  .log .store .info <| s!"using {catalog.tableText} " ++
    s!"({catalog.metadata.length} metadata columns, overflow {overflow}, " ++
    s!"{config.strategy.title} distance)"
  return ⟨config, catalog⟩

/-! ## Common parts -/

/-- The table's name in its schema. -/
def tableText (s : Store) : String := s.catalog.tableText

/-- A refused request is logged and becomes a storage error of the operation. -/
def refusal (s : Store) (operation : String) : Refusal := fun source =>
  let context := s!"{operation} on {s.tableText}"
  ([⟨.store, .error, s!"{context} failed: {source}"⟩], .storage context source)

/-- Ids as UUIDs. -/
def parseIds (ids : List String) : Except Error (List Uuid) :=
  ids.mapM fun id =>
    match Uuid.parse? id with
    | some uuid => .ok uuid
    | none => .error (.violation (.malformedId id))

/-- An embedding must have the expected dimension. -/
def checkDimension (s : Store) (expected : Nat) (embedding : Embedding) : Except Error Unit :=
  if embedding.dimension = expected then .ok ()
  else .error (.violation (.dimension embedding.dimension s.tableText expected))

/-! ## Insert and delete -/

/-- The encoded rows of a batch, after all checks on it. The vectors must have the declared
dimension or, where none is declared, that of the first one. -/
def encodeBatch (s : Store) (ids : List String) (embeddings : List Embedding)
    (segments : List (Option TextSegment)) : Except Error (List (List Param)) := do
  let uuids ← parseIds ids
  let expected := s.catalog.dimension?.getD ((embeddings.head?.map Embedding.dimension).getD 0)
  if expected = 0 then throw (.violation .emptyEmbeddings)
  embeddings.forM (s.checkDimension expected)
  (uuids.zip (embeddings.zip segments)).mapM fun (id, embedding, segment) =>
    encodeRow s.catalog id embedding segment

/-- The log messages about metadata keys that a batch drops. -/
def droppedKeyMessages (s : Store) (segments : List (Option TextSegment)) : List String :=
  segments.filterMap fun segment =>
    match segment.map fun segment => segment.metadata.dropped s.catalog with
    | none | some [] => none
    | some keys => some <| s!"no overflow column in {s.tableText}, " ++
        s!"dropping metadata keys {Text.quotedList keys}"

/-- Inserts a batch of rows in one transaction. -/
def addAllWithIds (s : Store) (ids : List String) (embeddings : List Embedding)
    (segments : List (Option TextSegment)) : Session Unit := do
  if ids.length ≠ embeddings.length ∨ ids.length ≠ segments.length then
    .fail (.violation (.unequalRows ids.length embeddings.length segments.length))
  else if ids.isEmpty then
    return
  else
    -- Everything that can fail in the batch itself fails before the transaction begins.
    let rows ← s.encodeBatch ids embeddings segments
    (s.droppedKeyMessages segments).forM (.log .store .debug)
    let _ ← .send .begin (s.refusal "insert")
    (insertStatements s.catalog rows).forM fun statement => do
      .log .store .debug <| s!"insert of {statement.values.length} parameters " ++
        s!"into {s.tableText}"
      let _ ← .send (.execute statement) (s.refusal "insert")
    let _ ← .send .commit (s.refusal "insert")

/-- Deletes rows by their ids. -/
def removeAll (s : Store) (ids : List String) : Session Unit := do
  if ids.isEmpty then .fail (.violation .noIds)
  else
    let statement := deleteStatement s.catalog (← parseIds ids)
    .log .store .debug statement.sql.render
    let reply ← .send (.execute statement) (s.refusal "delete")
    .log .store .debug s!"deleted {reply.affected} of {ids.length} rows"

/-! ## Search -/

/-- The number of results of a request: its own, which must not be zero, or the store's. -/
def resultLimit (s : Store) (request : SearchRequest) : Except Error UInt64 :=
  match request.maxResults with
  | none => .ok s.config.limit
  | some k => if k = 0 then .error (.violation .zeroMaxResults) else .ok k

/-- The statement of a search. Its first value is the query vector. -/
def searchStatement (s : Store) (request : SearchRequest) (limit : UInt64) :
    Except Error Statement := do
  let (_, bindings) := Bindings.empty.push (.vector request.query.vector)
  match request.filter with
  | none => return VectorTable.searchStatement s.catalog s.config.strategy none limit bindings
  | some filter =>
    let (predicate, bindings) ← (filter.toPredicate s.catalog).run bindings
    return VectorTable.searchStatement s.catalog s.config.strategy predicate limit bindings

/-- The statement of a search, after all checks on the request. -/
def checkedSearch (s : Store) (request : SearchRequest) (limit : UInt64) :
    Except Error Statement := do
  if request.query.vector.isEmpty then throw (.violation .emptyQuery)
  s.catalog.dimension?.toList.forM fun expected => s.checkDimension expected request.query
  s.searchStatement request limit

/-- The settings of a search, as statements for one transaction. -/
def settingStatements (s : Store) : List Statement :=
  (s.config.queryOptions.elim [] QueryOptions.settings).map fun setting =>
    .constant [.text "SET LOCAL ", .text setting]

/-- The nearest rows, at most `limit` of them, nearest first. -/
def nearest (s : Store) (request : SearchRequest) (limit : UInt64) : Session (List Match) := do
  let statement ← s.checkedSearch request limit
  .log .store .debug statement.sql.render
  let _ ← .send .begin (s.refusal "search")
  s.settingStatements.forM fun setting => do
    let _ ← .send (.execute setting) (s.refusal "search")
  let reply ← .send (.select statement) (s.refusal "search")
  let _ ← .send .commit (s.refusal "search")
  -- The rows are read after the transaction, which a bad row therefore leaves alone.
  decodeMatches s.catalog reply.rows

def search (s : Store) (request : SearchRequest) : Session (List Match) := do
  s.nearest request (← s.resultLimit request)

/-- The matches at some positions. -/
def pick (candidates : List Match) (positions : List Nat) : List Match :=
  positions.filterMap (candidates[·]?)

/-- Search for rows that are close to the query and different from each other: fetches the
nearest candidates, at least as many as are asked for, and chooses among them. -/
def searchDiverse (s : Store) (request : SearchRequest) : Session (List Match) := do
  let k ← s.resultLimit request
  let candidates ← s.nearest request (max s.config.fetchLimit k)
  let vectors := candidates.map (·.embedding.vector)
  return pick candidates
    (Relevance.select request.query.vector vectors k.toNat s.config.lambda)

/-- The store's operations. -/
def interface (s : Store) : EmbeddingStore Session where
  generateId := .freshId
  addAllWithIds := s.addAllWithIds
  removeAll := s.removeAll
  search := s.search

end Store

end VectorTable
