import VectorTable.Column
import VectorTable.Config.Store

/-!
# VectorTable — the catalog of a table

The columns of a table, checked against a configuration: which column holds the id, the text
and the vector, which ones hold metadata, and which one takes the metadata without a column.
A catalog is made once, when a store is opened.

* `Catalog.verify` — the catalog of a table, or the first fault of its layout.
-/

namespace VectorTable

/-- The verified columns of a table. -/
structure Catalog where
  schema : String
  table : String
  /-- All columns in the order of the table. -/
  columns : List Column
  id : Column
  content : Column
  embedding : Column
  /-- The metadata columns, in the order in which values are written and read. -/
  metadata : List Column
  /-- The JSON column for keys without a column of their own. -/
  overflow : Option Column
deriving DecidableEq

namespace Catalog

/-! ## Verification -/

/-- The last column with a name, with its position. -/
def lastNamed? (columns : List Column) (name : String) : Option (Column × Nat) :=
  columns.zipIdx.reverse.find? (·.1.name = name)

/-- The columns with a role and their positions. -/
structure Roles where
  id : Column × Nat
  content : Column × Nat
  embedding : Column × Nat
  overflow : Option (Column × Nat)

/-- The positions that are taken by a role. -/
def Roles.positions (r : Roles) : List Nat :=
  [r.id.2, r.content.2, r.embedding.2] ++ r.overflow.toList.map (·.2)

/-- The column that has a role. -/
def find (config : StoreConfig) (columns : List Column) (name role : String) :
    Except Error (Column × Nat) :=
  match lastNamed? columns name with
  | some found => .ok found
  | none => .error (.missingColumn config.schema config.table name role)

/-- The fault of a column whose type does not suit its role. -/
def wrongType (config : StoreConfig) (column : Column) (role expected : String) : Error :=
  .typeMismatch config.schema config.table column.name role expected column.dataType

/-- The columns with a role, each checked for its type. -/
def findRoles (config : StoreConfig) (columns : List Column) : Except Error Roles := do
  config.checkColumnLists
  if columns.isEmpty then throw (.tableNotFound config.schema config.table)
  let id ← find config columns config.idColumn "id"
  let content ← find config columns config.contentColumn "content"
  if !content.1.isCharacterString then
    throw (wrongType config content.1 "content" "a character string type")
  let embedding ← find config columns config.embeddingColumn "embedding"
  if embedding.1.kind ≠ .vector then
    throw (wrongType config embedding.1 "embedding" "vector")
  return ⟨id, content, embedding, config.overflowColumn.bind (lastNamed? columns)⟩

/-- The metadata columns: the configured ones in their order or, where columns are excluded
instead, all others without a role in the order of the table. -/
def findMetadata (config : StoreConfig) (columns : List Column) (roles : Roles) :
    Except Error (List Column) :=
  if config.ignoredColumns.isEmpty then
    config.metadataColumns.mapM fun name => (find config columns name "metadata").map (·.1)
  else
    .ok ((columns.zipIdx.filter fun (c, i) =>
      i ∉ roles.positions ∧ c.name ∉ config.ignoredColumns).map (·.1))

/-- The catalog of columns whose roles are known. -/
def ofRoles (config : StoreConfig) (columns : List Column) (roles : Roles) :
    Except Error Catalog := do
  let metadata ← findMetadata config columns roles
  return {
    schema := config.schema
    table := config.table
    columns := columns
    id := roles.id.1
    content := roles.content.1
    embedding := roles.embedding.1
    metadata := metadata
    overflow := roles.overflow.map (·.1) }

/-- The catalog of a table with the given columns, in their order. -/
def verify (config : StoreConfig) (columns : List Column) : Except Error Catalog := do
  let roles ← findRoles config columns
  ofRoles config columns roles

/-! ## Access -/

/-- The table's name in its schema. -/
def qualifiedTable (c : Catalog) : Sql := Sql.qualified c.schema c.table

def tableText (c : Catalog) : String := c.qualifiedTable.render

/-- The column with a name, the last one of several. -/
def column? (c : Catalog) (name : String) : Option Column :=
  (lastNamed? c.columns name).map (·.1)

/-- The metadata column of a key. -/
def metadataColumn? (c : Catalog) (key : String) : Option Column :=
  c.metadata.find? (·.name = key)

/-- The declared dimension of the vectors. -/
def dimension? (c : Catalog) : Option Nat := c.embedding.dimension?

/-- The columns that an insert writes, in order. -/
def insertColumns (c : Catalog) : List Column :=
  [c.id, c.content, c.embedding] ++ c.metadata ++ c.overflow.toList

end Catalog

end VectorTable
