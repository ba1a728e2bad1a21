import VectorTable.Distance

/-!
# VectorTable — vector indexes

The kinds of index over an embedding column, with their build parameters, and the settings of a
search that match them. Options and predicates of an index are written into its statement as
they stand, so they must come from a trusted configuration.

* `VectorIndex.createStatement` — the statement that builds an index;
* `QueryOptions.settings` — the settings of a search.
-/

namespace VectorTable

/-- An index algorithm with its build parameters. -/
inductive IndexKind where
  | hnsw (m efConstruction : UInt32)
  | ivfFlat (lists : UInt32)
  | ivf (lists : UInt32) (quantizer : String)
  | scann (leaves : UInt32) (quantizer : String)
deriving DecidableEq

namespace IndexKind

def hnswDefault : IndexKind := .hnsw 16 64

def ivfFlatDefault : IndexKind := .ivfFlat 100

def ivfDefault : IndexKind := .ivf 100 "sq8"

def scannDefault : IndexKind := .scann 5 "sq8"

/-- The name of the access method. -/
def accessMethod : IndexKind → String
  | .hnsw .. => "hnsw"
  | .ivfFlat .. => "ivfflat"
  | .ivf .. => "ivf"
  | .scann .. => "ScaNN"

/-- The build parameters as written after `WITH`. -/
def options : IndexKind → String
  | .hnsw m efConstruction => s!"(m = {m}, ef_construction = {efConstruction})"
  | .ivfFlat lists => s!"(lists = {lists})"
  | .ivf lists quantizer => s!"(lists = {lists}, quantizer = {quantizer})"
  | .scann leaves quantizer => s!"(num_leaves = {leaves}, quantizer = {quantizer})"

/-- The extension that must be installed before such an index can be built. -/
def requiredExtension : IndexKind → Option String
  | .scann .. => some "alloydb_scann"
  | _ => none

def toJson : IndexKind → Json
  | .hnsw m efConstruction =>
    .ofMembers [("type", .string "hnsw"), ("m", .ofUInt32 m),
      ("ef_construction", .ofUInt32 efConstruction)]
  | .ivfFlat lists => .ofMembers [("type", .string "ivf_flat"), ("lists", .ofUInt32 lists)]
  | .ivf lists quantizer =>
    .ofMembers [("type", .string "ivf"), ("lists", .ofUInt32 lists),
      ("quantizer", .string quantizer)]
  | .scann leaves quantizer =>
    .ofMembers [("type", .string "scann"), ("num_leaves", .ofUInt32 leaves),
      ("quantizer", .string quantizer)]

open Json (Record) in
/-- Reads a kind whose members may open `room` arrays and objects, itself included. -/
def decode (room : Nat) : Json.Decoder IndexKind := fun t => do
  match ← Json.tagged? room t with
  | ("hnsw", rest) =>
    let r ← Record.ofTree? ["m", "ef_construction"] rest
    return .hnsw (← r.required "m" .uint32) (← r.required "ef_construction" .uint32)
  | ("ivf_flat", rest) =>
    let r ← Record.ofTree? ["lists"] rest
    return .ivfFlat (← r.required "lists" .uint32)
  | ("ivf", rest) =>
    let r ← Record.ofTree? ["lists", "quantizer"] rest
    return .ivf (← r.required "lists" .uint32) (← r.required "quantizer" .text)
  | ("scann", rest) =>
    let r ← Record.ofTree? ["num_leaves", "quantizer"] rest
    return .scann (← r.required "num_leaves" .uint32) (← r.required "quantizer" .text)
  | _ => none

end IndexKind

/-- A vector index. Its name defaults to one made from the table and the access method, and its
predicates make it a partial index. -/
structure VectorIndex where
  name : Option String := none
  kind : IndexKind
  strategy : DistanceStrategy := default
  predicates : List String := []
deriving DecidableEq

namespace VectorIndex

/-- The operator class, or the name of the metric where the access method wants that. -/
def operatorClass (i : VectorIndex) : String :=
  match i.kind with
  | .scann .. => i.strategy.measureName
  | _ => i.strategy.operatorClass

/-- The name of the index on a table. -/
def resolvedName (i : VectorIndex) (table : String) : String :=
  match i.name with
  | some name => name
  | none => s!"{table}_" ++ String.ofList (i.kind.accessMethod.toList.map Char.toLower) ++ "_index"

/-- The statement that builds the index, without locking out writes if `concurrently`. -/
def createStatement (i : VectorIndex) (schema table column : String) (concurrently : Bool) :
    Sql :=
  [.text "CREATE INDEX ", .text (if concurrently then "CONCURRENTLY " else ""),
      .name (i.resolvedName table), .text " ON "] ++
    Sql.qualified schema table ++
    [.text " USING ", .text i.kind.accessMethod, .text " (", .name column, .text " ",
      .text i.operatorClass, .text ") WITH ", .text i.kind.options] ++
    (if i.predicates.isEmpty then []
     else .text " WHERE " :: Sql.separated " AND "
       (i.predicates.map fun p => [.text "(", .text p, .text ")"]))

def toJson (i : VectorIndex) : Json :=
  .ofMembers [("name", i.name.elim .null .string), ("kind", i.kind.toJson),
    ("distance_strategy", i.strategy.toJson),
    ("partial_indexes", .array (i.predicates.map .string))]

def memberNames : List String := ["name", "kind", "distance_strategy", "partial_indexes"]

def decode : Json.Decoder VectorIndex := fun t => do
  let r ← Json.Record.ofTree? memberNames t
  return {
    name := ← r.member "name" (.optional .text) none
    kind := ← r.required "kind" (IndexKind.decode (Json.maxDepth - 1))
    strategy := ← r.member "distance_strategy" DistanceStrategy.decode default
    predicates := ← r.member "partial_indexes" (.list .text) [] }

end VectorIndex

/-- The settings of one search, matching the index in use. -/
inductive QueryOptions where
  | hnsw (efSearch : UInt32)
  | ivfFlat (probes : UInt32)
  | ivf (probes : UInt32)
  | scann (leavesToSearch : UInt32) (reorderedNeighbors : Int32)
deriving DecidableEq

namespace QueryOptions

def hnswDefault : QueryOptions := .hnsw 40

def ivfFlatDefault : QueryOptions := .ivfFlat 1

def ivfDefault : QueryOptions := .ivf 1

def scannDefault : QueryOptions := .scann 1 (-1)

/-- The settings, each of the form `key = value`. -/
def settings : QueryOptions → List String
  | .hnsw efSearch => [s!"hnsw.ef_search = {efSearch}"]
  | .ivfFlat probes => [s!"ivfflat.probes = {probes}"]
  | .ivf probes => [s!"ivf.probes = {probes}"]
  | .scann leavesToSearch reorderedNeighbors =>
    [s!"scann.num_leaves_to_search = {leavesToSearch}",
      s!"scann.pre_reordering_num_neighbors = {reorderedNeighbors}"]

def toJson : QueryOptions → Json
  | .hnsw efSearch => .ofMembers [("type", .string "hnsw"), ("ef_search", .ofUInt32 efSearch)]
  | .ivfFlat probes => .ofMembers [("type", .string "ivf_flat"), ("probes", .ofUInt32 probes)]
  | .ivf probes => .ofMembers [("type", .string "ivf"), ("probes", .ofUInt32 probes)]
  | .scann leavesToSearch reorderedNeighbors =>
    .ofMembers [("type", .string "scann"),
      ("num_leaves_to_search", .ofUInt32 leavesToSearch),
      ("pre_reordering_num_neighbors", .ofInt32 reorderedNeighbors)]

open Json (Record) in
/-- Reads options whose members may open `room` arrays and objects, themselves included. -/
def decode (room : Nat) : Json.Decoder QueryOptions := fun t => do
  match ← Json.tagged? room t with
  | ("hnsw", rest) =>
    let r ← Record.ofTree? ["ef_search"] rest
    return .hnsw (← r.required "ef_search" .uint32)
  | ("ivf_flat", rest) =>
    let r ← Record.ofTree? ["probes"] rest
    return .ivfFlat (← r.required "probes" .uint32)
  | ("ivf", rest) =>
    let r ← Record.ofTree? ["probes"] rest
    return .ivf (← r.required "probes" .uint32)
  | ("scann", rest) =>
    let r ← Record.ofTree? ["num_leaves_to_search", "pre_reordering_num_neighbors"] rest
    return .scann (← r.required "num_leaves_to_search" .uint32)
      (← r.required "pre_reordering_num_neighbors" .int32)
  | _ => none

end QueryOptions

end VectorTable
