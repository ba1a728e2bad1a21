import VectorTable.Config.Table
import VectorTable.Session

/-!
# VectorTable — management of tables and indexes

Creating tables for stores, and creating, dropping and rebuilding indexes. A table is created
in one transaction. Statements about indexes stand alone, since an index cannot be built
without locking inside a transaction.
-/

namespace VectorTable

namespace Administration

/-- Connecting to a database, given the driver's answer. -/
def connect (outcome : Except String Unit) : Except Error Unit :=
  outcome.mapError (.storage "failed to connect to PostgreSQL")

/-- Creates the vector extension and a table. Without `overwrite` an existing table makes it
fail. -/
def createTable (config : TableConfig) : Session Unit := do
  config.validate
  let table := Identifier.qualified config.schema config.table
  let failure (what : String) (source : String) : Error :=
    .storage s!"{what} while creating {table}" source
  let _ ← .send .begin fun source => ([], failure "failed to begin transaction" source)
  config.createStatements.forM fun sql => do
    .log .administration .debug sql.render
    let _ ← .send (.execute (.constant sql)) fun source =>
      ([⟨.administration, .error, s!"statement failed on {table}: {source}"⟩],
        failure "statement failed" source)
  let _ ← .send .commit fun source => ([], failure "failed to commit" source)
  .log .administration .info <| s!"created table {table} with vector({config.vectorSize}) " ++
    s!"column {Identifier.quote config.embeddingColumn}"

/-- Sends one statement outside a transaction. -/
def execute (sql : Sql) (context : String) : Session Unit := do
  .log .administration .debug sql.render
  let _ ← .send (.execute (.constant sql)) fun source =>
    ([⟨.administration, .error, s!"{context}: {source}"⟩], .storage context source)

/-- Builds an index on the embedding column of a table, after the extension it needs, if any. -/
def createIndex (schema table column : String) (index : VectorIndex) (concurrently : Bool) :
    Session Unit := do
  Identifier.check "schema_name" schema
  Identifier.check "table_name" table
  Identifier.check "embedding_column" column
  let name := index.resolvedName table
  Identifier.check "index name" name
  let qualified := Identifier.qualified schema table
  index.kind.requiredExtension.toList.forM fun extension =>
    execute [.text "CREATE EXTENSION IF NOT EXISTS ", .name extension]
      s!"failed to install extension {extension}"
  execute (index.createStatement schema table column concurrently)
    s!"failed to create index \"{name}\" on {qualified}"
  .log .administration .info <|
    s!"created {index.kind.accessMethod} index \"{name}\" on {qualified}"

/-- The name of an index in its schema, if both names are sound. -/
def checkIndex (schema index : String) : Except Error Sql := do
  Identifier.check "schema_name" schema
  Identifier.check "index name" index
  return Sql.qualified schema index

/-- Drops an index if it exists. -/
def dropIndex (schema index : String) : Session Unit := do
  let qualified ← checkIndex schema index
  execute (.text "DROP INDEX IF EXISTS " :: qualified) s!"failed to drop index {qualified.render}"
  .log .administration .info s!"dropped index {qualified.render}"

/-- Rebuilds an index. -/
def rebuildIndex (schema index : String) : Session Unit := do
  let qualified ← checkIndex schema index
  execute (.text "REINDEX INDEX " :: qualified) s!"failed to reindex {qualified.render}"

end Administration

end VectorTable
