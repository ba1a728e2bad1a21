import VectorTable.Row.Encode
import VectorTable.Sql.Predicate

/-!
# VectorTable — filters as predicates

A filter becomes a predicate over the table. A key with a metadata column is compared with that
column; any other key is looked up in the JSON column, with the key itself bound like a value.
Every value is bound, from left to right. A negative condition is stated so that it also holds
where the key is absent and its expression therefore null.

* `Filter.toPredicate` — the predicate of a filter, its values added to those already bound.
-/

namespace VectorTable

/-- Work that binds values and may fail. -/
abbrev Binder := StateT Bindings (Except Error)

/-- Where the values of a key are. -/
inductive Target where
  | column (c : Column)
  | member (json : String)
deriving DecidableEq

/-- Where a key is looked up; without a column it needs the JSON column. -/
def Catalog.resolve (c : Catalog) (key : String) : Except Error Target :=
  match c.metadataColumn? key with
  | some column => .ok (.column column)
  | none =>
    match c.overflow with
    | some json => .ok (.member json.name)
    | none => .error (.violation (.unknownKey key c.tableText))

/-- Binds a value; the answer is the number of its slot. -/
def bindValue (value : SqlValue) : Binder Nat := modifyGet fun b => b.push value

/-- Binds a value with its cast. -/
def bindParam (p : Param) : Binder Operand := do
  return .bound (← bindValue p.value) p.cast

namespace Target

/-- The left side of a comparison with a value: numbers are compared as numbers. -/
def left (target : Target) (key : String) (value : MetadataValue) : Binder Operand :=
  match target with
  | .column c => return .column c.name
  | .member json => do
    let slot ← bindValue (.text (some key))
    return if value.isNumeric then .memberNumber json slot else .memberText json slot

/-- The value as bound for a comparison. Against the JSON column a number is bound by the text
that the JSON holds for it. -/
def param (target : Target) (value : MetadataValue) : Except Error Param :=
  match target with
  | .column c => .ok (c.param (some value))
  | .member _ =>
    if value.isNumeric then do
      let json ← value.toJson
      return .casted (.text (some json.render)) "numeric"
    else .ok (.plain (.text (some value.toText)))

/-- The right side of a comparison with a value. -/
def right (target : Target) (value : MetadataValue) : Binder Operand := do
  bindParam (← target.param value)

/-- The right sides of a comparison with any of several values. -/
def rightList (target : Target) (key : String) (values : List MetadataValue) :
    Binder (List Operand) := do
  if values.any (·.isNumeric) && values.any (!·.isNumeric) then
    throw (.violation (.mixedValues key))
  values.mapM target.right

end Target

namespace Filter

/-- A comparison of a key with a value. -/
def comparePredicate (catalog : Catalog) (op : Comparison) (key : String)
    (value : MetadataValue) : Binder Predicate := do
  let target ← catalog.resolve key
  let left ← target.left key value
  let right ← target.right value
  return if op = .ne then .or (.isNull left) (.compare .ne left right)
    else .compare op left right

/-- Membership of a key's value in a list, or its negation. The first value decides how the key
is looked up; an empty list needs no look-up. -/
def listPredicate (catalog : Catalog) (negative : Bool) (key : String)
    (values : List MetadataValue) : Binder Predicate := do
  match values with
  | [] => return .constant negative
  | first :: _ =>
    -- The key is bound before the list, so its slot comes first.
    let target ← catalog.resolve key
    let left ← target.left key first
    let list ← target.rightList key values
    return if negative then .or (.isNull left) (.notIn left list) else .isIn left list

/-- The predicate of a filter, with its values bound. -/
def toPredicate (catalog : Catalog) : Filter → Binder Predicate
  | .compare op key value => comparePredicate catalog op key value
  | .isIn key values => listPredicate catalog false key values
  | .notIn key values => listPredicate catalog true key values
  | .and left right => do
    let left ← toPredicate catalog left
    let right ← toPredicate catalog right
    return .and left right
  | .or left right => do
    let left ← toPredicate catalog left
    let right ← toPredicate catalog right
    return .or left right
  | .not inner => do
    let inner ← toPredicate catalog inner
    return .not (.orFalse inner)

end Filter

end VectorTable
