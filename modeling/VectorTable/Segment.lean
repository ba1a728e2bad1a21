import VectorTable.Filter
import VectorTable.Metadata.Basic

/-!
# VectorTable — embeddings, segments and searches

What a store holds and what it is asked for: vectors, the texts they were computed from, and
searches for the nearest vectors with their answers.
-/

namespace VectorTable

/-- A dense embedding vector. -/
structure Embedding where
  vector : List Single
deriving DecidableEq

/-- The number of components. -/
def Embedding.dimension (e : Embedding) : Nat := e.vector.length

/-- The text that an embedding was computed from, with its metadata. -/
structure TextSegment where
  text : String
  metadata : Metadata := ∅
deriving DecidableEq

/-- A search for the nearest vectors. Without `maxResults` the store's own limit applies. -/
structure SearchRequest where
  query : Embedding
  maxResults : Option UInt64 := none
  filter : Option Filter := none
deriving DecidableEq

/-- A row found by a search. The distance is lower the closer the row is, and the segment is
missing where the row was stored without a text. -/
structure Match where
  distance : Double
  id : String
  embedding : Embedding
  segment : Option TextSegment
deriving DecidableEq

end VectorTable
