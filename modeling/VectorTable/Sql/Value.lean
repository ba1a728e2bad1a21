import VectorTable.Sql.Token
import VectorTable.Uuid

/-!
# VectorTable — bound values

Values travel beside the text of a statement, in numbered slots. A slot may be cast to a type,
and then its value is converted by the database.

* `SqlValue`, `Param` — a value, and a value with its cast;
* `Bindings` — the values bound so far, which number the slots.
-/

namespace VectorTable

/-- A typed value; an absent one is a null of its type. -/
inductive SqlValue where
  | text (value : Option String)
  | integer (value : Option Int32)
  | bigint (value : Option Int64)
  | real (value : Option Single)
  | double (value : Option Double)
  | uuid (value : Option Uuid)
  | uuids (values : List Uuid)
  | vector (values : List Single)
deriving DecidableEq

/-- A value with the name of the type that its slot is cast to, if any. -/
structure Param where
  value : SqlValue
  cast : Option String
deriving DecidableEq

namespace Param

def plain (value : SqlValue) : Param := ⟨value, none⟩

def casted (value : SqlValue) (typeName : String) : Param := ⟨value, some typeName⟩

end Param

/-- A slot as it stands in an expression, with its cast. -/
def Sql.placeholder (number : Nat) (cast : Option String) : Sql :=
  match cast with
  | none => [.slot number]
  | some typeName => [.slot number, .text "::", .name typeName]

/-- The values bound so far; the one in slot `n` is the `n`-th. -/
structure Bindings where
  values : Array SqlValue
deriving DecidableEq

namespace Bindings

def empty : Bindings := ⟨#[]⟩

/-- Binds a value; the answer starts with the number of its slot. -/
def push (b : Bindings) (value : SqlValue) : Nat × Bindings :=
  (b.values.size + 1, ⟨b.values.push value⟩)

def toList (b : Bindings) : List SqlValue := b.values.toList

end Bindings

/-- A statement with the values of its slots in order. -/
structure Statement where
  sql : Sql
  values : List SqlValue
deriving DecidableEq

/-- A statement without slots. -/
def Statement.constant (sql : Sql) : Statement := ⟨sql, []⟩

end VectorTable
