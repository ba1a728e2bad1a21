import VectorTable.Row.Decode
import VectorTable.Sql.Predicate

/-!
# VectorTable — statements of a store

The statements that read and write the rows of a table: inserts of many rows at once, the
deletion of rows by their ids, and the search for the nearest rows.

* `insertStatements` — as few statements as the limit on bound values allows;
* `deleteStatement`, `searchStatement`.
-/

namespace VectorTable

/-- The most values that one statement may bind. -/
def maxBoundValues : Nat := 65535

/-! ## Insert -/

/-- A list cut into pieces of `size` elements, the last one possibly shorter. -/
def chunks {α : Type} (size : Nat) (l : List α) : List (List α) :=
  match l with
  | [] => []
  | a :: rest => (a :: rest.take (size - 1)) :: chunks size (rest.drop (size - 1))
termination_by l.length
decreasing_by simp only [List.length_drop, List.length_cons]; omega

/-- A row as a tuple of slots, the first of which has the number `start + 1`. -/
def tuple (start : Nat) (row : List Param) : Sql :=
  [.text "("] ++
    Sql.commas ((row.zipIdx (start + 1)).map fun (p, n) => Sql.placeholder n p.cast) ++
    [.text ")"]

/-- Rows as tuples, numbered on from one to the next. -/
def tuples (start : Nat) : List (List Param) → List Sql
  | [] => []
  | row :: rows => tuple start row :: tuples (start + row.length) rows

/-- The statement that inserts some rows. -/
def insertStatement (catalog : Catalog) (rows : List (List Param)) : Statement where
  sql := [.text "INSERT INTO "] ++ catalog.qualifiedTable ++ [.text " ("] ++
    Sql.commas (catalog.insertColumns.map fun c => [.name c.name]) ++ [.text ") VALUES "] ++
    Sql.commas (tuples 0 rows)
  values := rows.flatMap fun row => row.map (·.value)

/-- How many rows one statement takes: as many as the limit allows, and at least one. -/
def rowsPerStatement (catalog : Catalog) : Nat :=
  max (maxBoundValues / catalog.insertColumns.length) 1

/-- The statements that insert rows, each of which has one value for each column written. -/
def insertStatements (catalog : Catalog) (rows : List (List Param)) : List Statement :=
  (chunks (rowsPerStatement catalog) rows).map (insertStatement catalog)

/-! ## Delete -/

/-- The statement that deletes the rows with some ids. -/
def deleteStatement (catalog : Catalog) (ids : List Uuid) : Statement where
  sql := [.text "DELETE FROM "] ++ catalog.qualifiedTable ++
    [.text " WHERE ", .name catalog.id.name, .text " = ANY(", .slot 1, .text "::",
      .name catalog.id.typeName, .text "[])"]
  values := [.uuids ids]

/-! ## Search -/

/-- A column read as text. -/
def asText (c : Column) : Sql := [.name c.name, .text "::text"]

/-- The expressions that a search reads, in the order of the layout. The query vector is in the
first slot. -/
def selectList (catalog : Catalog) (strategy : DistanceStrategy) : List Sql :=
  catalog.metadata.map Column.selectExpression ++
    [asText catalog.id, asText catalog.content, [.name catalog.embedding.name]] ++
    catalog.overflow.toList.map asText ++
    [strategy.distanceExpression [.name catalog.embedding.name] [.slot 1] ++
      [.text " AS distance"]]

/-- A number of rows as bound for a limit, at most the largest signed number of 64 bits. -/
def limitValue (limit : UInt64) : SqlValue :=
  .bigint (some (Int64.ofNat (min limit.toNat (0x8000000000000000 - 1))))

/-- The search for the nearest rows that satisfy a predicate. The query vector and the values
of the predicate are already bound; the limit comes last. -/
def searchStatement (catalog : Catalog) (strategy : DistanceStrategy)
    (predicate : Option Predicate) (limit : UInt64) (bindings : Bindings) : Statement :=
  let (slot, bindings) := bindings.push (limitValue limit)
  { sql := [.text "SELECT "] ++ Sql.commas (selectList catalog strategy) ++ [.text " FROM "] ++
      catalog.qualifiedTable ++
      (match predicate with
        | some p => .text " WHERE " :: p.sql
        | none => []) ++
      [.text " ORDER BY "] ++
      strategy.orderExpression [.name catalog.embedding.name] [.slot 1] ++
      [.text " LIMIT ", .slot slot]
    values := bindings.toList }

end VectorTable
