import VectorTable.Json.Decode
import VectorTable.Sql.Token

/-!
# VectorTable — distance strategies

A strategy fixes every fragment of SQL that depends on the metric: the operator that orders
rows, the function that reports a distance, and the operator class of an index. As all of them
come from one value, they cannot disagree.
-/

namespace VectorTable

/-- The metric that orders rows and measures distances. -/
inductive DistanceStrategy where
  | euclidean
  | cosine
  | innerProduct
deriving DecidableEq

namespace DistanceStrategy

instance : Inhabited DistanceStrategy := ⟨.cosine⟩

/-- The ordering operator. -/
def operator : DistanceStrategy → String
  | .euclidean => "<->"
  | .cosine => "<=>"
  | .innerProduct => "<#>"

/-- The function that reports the metric. -/
def searchFunction : DistanceStrategy → String
  | .euclidean => "l2_distance"
  | .cosine => "cosine_distance"
  | .innerProduct => "inner_product"

/-- The operator class of graph and inverted-file indexes. -/
def operatorClass : DistanceStrategy → String
  | .euclidean => "vector_l2_ops"
  | .cosine => "vector_cosine_ops"
  | .innerProduct => "vector_ip_ops"

/-- The name of the metric in tree-quantization indexes. -/
def measureName : DistanceStrategy → String
  | .euclidean => "l2"
  | .cosine => "cosine"
  | .innerProduct => "dot_product"

/-- The reported distance between a column and a vector, both given as expressions. The inner
product grows with similarity while its operator orders by the negation, so it is negated. -/
def distanceExpression (s : DistanceStrategy) (column vector : Sql) : Sql :=
  match s with
  | .euclidean | .cosine =>
    [.text s.searchFunction, .text "("] ++ column ++ [.text ", "] ++ vector ++ [.text ")"]
  | .innerProduct =>
    [.text "(", .text s.searchFunction, .text "("] ++ column ++ [.text ", "] ++ vector ++
      [.text ") * -1)"]

/-- The expression to order by, nearest first. -/
def orderExpression (s : DistanceStrategy) (column vector : Sql) : Sql :=
  column ++ [.text " ", .text s.operator, .text " "] ++ vector

/-- The name in configurations. -/
def name : DistanceStrategy → String
  | .euclidean => "euclidean"
  | .cosine => "cosine"
  | .innerProduct => "inner_product"

/-- The strategy with a name. -/
def ofName? : String → Option DistanceStrategy
  | "euclidean" => some .euclidean
  | "cosine" => some .cosine
  | "inner_product" => some .innerProduct
  | _ => none

/-- The name in log messages. -/
def title : DistanceStrategy → String
  | .euclidean => "Euclidean"
  | .cosine => "Cosine"
  | .innerProduct => "InnerProduct"

def toJson (s : DistanceStrategy) : Json := .string s.name

def decode : Json.Decoder DistanceStrategy := Json.Decoder.choice ofName?

end DistanceStrategy

end VectorTable
