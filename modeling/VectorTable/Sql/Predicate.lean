import VectorTable.Filter
import VectorTable.Sql.Value

/-!
# VectorTable — predicates

Boolean expressions over a row, as the condition of a search. Operands are columns, bound
values, and members of a JSON column looked up by a bound key.

* `Predicate.sql` — the text of a predicate.
-/

namespace VectorTable

/-- The operator of a comparison. -/
def Comparison.symbol : Comparison → String
  | .eq => "="
  | .ne => "<>"
  | .gt => ">"
  | .ge => ">="
  | .lt => "<"
  | .le => "<="

/-- A scalar expression. -/
inductive Operand where
  /-- The value of a column. -/
  | column (name : String)
  /-- The value bound to a slot, cast to a type if one is given. -/
  | bound (slot : Nat) (cast : Option String)
  /-- The text of the member of a JSON column whose key is bound to a slot. -/
  | memberText (json : String) (key : Nat)
  /-- The same member as a number; null if it is not one. -/
  | memberNumber (json : String) (key : Nat)
deriving DecidableEq

def Operand.sql : Operand → Sql
  | .column name => [.name name]
  | .bound slot cast => Sql.placeholder slot cast
  | .memberText json key => [.text "(", .name json, .text "::jsonb ->> ", .slot key, .text ")"]
  | .memberNumber json key =>
    [.text "(CASE WHEN jsonb_typeof(", .name json, .text "::jsonb -> ", .slot key,
      .text ") = 'number' THEN (", .name json, .text "::jsonb ->> ", .slot key,
      .text ")::numeric END)"]

/-- A boolean expression, which may be null. -/
inductive Predicate where
  | constant (value : Bool)
  | compare (op : Comparison) (left right : Operand)
  | isNull (e : Operand)
  | isIn (e : Operand) (list : List Operand)
  | notIn (e : Operand) (list : List Operand)
  | and (left right : Predicate)
  | or (left right : Predicate)
  | not (inner : Predicate)
  /-- False where the inner expression is null. -/
  | orFalse (inner : Predicate)
deriving DecidableEq

namespace Predicate

def sql : Predicate → Sql
  | .constant value => [.text (if value then "TRUE" else "FALSE")]
  | .compare op left right => left.sql ++ [.text " ", .text op.symbol, .text " "] ++ right.sql
  | .isNull e => e.sql ++ [.text " IS NULL"]
  | .isIn e list => e.sql ++ [.text " IN ("] ++ Sql.commas (list.map Operand.sql) ++ [.text ")"]
  | .notIn e list =>
    e.sql ++ [.text " NOT IN ("] ++ Sql.commas (list.map Operand.sql) ++ [.text ")"]
  | .and left right => [.text "("] ++ left.sql ++ [.text " AND "] ++ right.sql ++ [.text ")"]
  | .or left right => [.text "("] ++ left.sql ++ [.text " OR "] ++ right.sql ++ [.text ")"]
  | .not inner => [.text "(NOT "] ++ inner.sql ++ [.text ")"]
  | .orFalse inner => [.text "COALESCE("] ++ inner.sql ++ [.text ", FALSE)"]

end Predicate

end VectorTable
