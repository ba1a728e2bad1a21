import VectorTable.Metadata.Value

/-!
# VectorTable — filters

Conditions on the metadata of a segment, which a store applies before it ranks. How a key is
looked up, in a column of its own or in a JSON document, is up to the store. The negative
conditions also hold of a segment that lacks the key.
-/

namespace VectorTable

/-- How a value is compared with another one. -/
inductive Comparison where
  | eq
  | ne
  | gt
  | ge
  | lt
  | le
deriving DecidableEq

/-- A condition on metadata. -/
inductive Filter where
  | compare (op : Comparison) (key : String) (value : MetadataValue)
  | isIn (key : String) (values : List MetadataValue)
  | notIn (key : String) (values : List MetadataValue)
  | and (left right : Filter)
  | or (left right : Filter)
  | not (inner : Filter)
deriving DecidableEq

end VectorTable
