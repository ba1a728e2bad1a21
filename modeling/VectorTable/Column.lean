import VectorTable.Sql.Value

/-!
# VectorTable — columns

A column as the database reports it, and how its values travel. Columns whose type has a form
of its own are bound and read in that form; all others, JSON among them, as text.
-/

namespace VectorTable

/-- How the values of a column are bound and read. -/
inductive ColumnKind where
  | text
  | smallInt
  | integer
  | bigInt
  | real
  | double
  /-- Numbers of any precision, written and read as text. -/
  | numeric
  | uuid
  | vector
  /-- Every type without a form of its own, read as text. -/
  | other
deriving DecidableEq

/-- A column of a table. -/
structure Column where
  name : String
  /-- The type as displayed, with its parameters. -/
  dataType : String
  /-- The plain name of the type. -/
  typeName : String
  /-- The type's parameter, for a vector its dimension; -1 without one. -/
  modifier : Int32 := -1
deriving DecidableEq

namespace Column

/-- A vector column of a given dimension. -/
def ofVector (name : String) (dimension : UInt32) : Column where
  name := name
  dataType := s!"vector({dimension})"
  typeName := "vector"
  modifier := if dimension.toNat < 0x80000000 then Int32.ofNat dimension.toNat else -1

/-- The kind of a column goes by the plain name of its type. -/
def kind (c : Column) : ColumnKind :=
  match c.typeName with
  | "text" | "varchar" | "bpchar" | "name" | "citext" => .text
  | "int2" => .smallInt
  | "int4" => .integer
  | "int8" => .bigInt
  | "float4" => .real
  | "float8" => .double
  | "numeric" => .numeric
  | "uuid" => .uuid
  | "vector" => .vector
  | _ => .other

def isCharacterString (c : Column) : Bool := c.kind = .text

/-- The declared dimension of a vector column. -/
def dimension? (c : Column) : Option Nat :=
  if c.kind = .vector ∧ 0 < c.modifier.toInt then some c.modifier.toInt.toNat else none

/-- The column is read as text, whatever it holds. -/
def readsAsText (c : Column) : Bool :=
  match c.kind with
  | .text | .numeric | .vector | .other => true
  | _ => false

/-- The expression that reads the column. -/
def selectExpression (c : Column) : Sql :=
  if c.readsAsText then [.name c.name, .text "::text"] else [.name c.name]

end Column

end VectorTable
