import VectorTable.Segment

/-!
# VectorTable — embedding stores

What every store of embeddings offers: three operations of its own, and the conveniences that
are made of them in the same way for all stores. Ids are texts, and new ones are random UUIDs in
hyphenated form.
-/

namespace VectorTable

/-- The operations of a store whose work is done in `m`. -/
structure EmbeddingStore (m : Type → Type) where
  /-- A new id. -/
  generateId : m Uuid
  /-- Stores a batch, one row for each id with its vector and segment. -/
  addAllWithIds : List String → List Embedding → List (Option TextSegment) → m Unit
  /-- Deletes the rows with the given ids. -/
  removeAll : List String → m Unit
  /-- The rows nearest to a vector, nearest first. -/
  search : SearchRequest → m (List Match)

namespace EmbeddingStore

variable {m : Type → Type} [Monad m]

/-- New ids, as texts. -/
def generateIds (store : EmbeddingStore m) (count : Nat) : m (List String) :=
  (List.replicate count ()).mapM fun _ => do return toString (← store.generateId)

/-- Stores an embedding under a new id and returns the id. -/
def add (store : EmbeddingStore m) (embedding : Embedding) : m String := do
  let id := toString (← store.generateId)
  store.addAllWithIds [id] [embedding] [none]
  return id

/-- Stores an embedding under an id of the caller's. -/
def addWithId (store : EmbeddingStore m) (id : String) (embedding : Embedding) : m Unit :=
  store.addAllWithIds [id] [embedding] [none]

/-- Stores an embedding with its segment. -/
def addWithSegment (store : EmbeddingStore m) (embedding : Embedding) (segment : TextSegment) :
    m String := do
  let id := toString (← store.generateId)
  store.addAllWithIds [id] [embedding] [some segment]
  return id

/-- Stores embeddings without segments, each under a new id. -/
def addAll (store : EmbeddingStore m) (embeddings : List Embedding) : m (List String) := do
  let ids ← store.generateIds embeddings.length
  store.addAllWithIds ids embeddings (List.replicate embeddings.length none)
  return ids

/-- Stores embeddings with their segments, each under a new id. -/
def addAllWithSegments [MonadLiftT (Except Error) m] (store : EmbeddingStore m)
    (embeddings : List Embedding) (segments : List TextSegment) : m (List String) := do
  if embeddings.length ≠ segments.length then
    liftM (Except.error (ε := Error) (α := Unit)
      (.violation (.unequalBatch embeddings.length segments.length)))
  let ids ← store.generateIds embeddings.length
  store.addAllWithIds ids embeddings (segments.map some)
  return ids

/-- Deletes one row. -/
def remove (store : EmbeddingStore m) (id : String) : m Unit := store.removeAll [id]

end EmbeddingStore

end VectorTable
