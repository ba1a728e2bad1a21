import VectorTable.Identifier

/-!
# VectorTable — statements as tokens

A statement is a list of tokens: fixed text, quoted names, and numbered slots for values. Only
names and slots depend on data, and a name is always written between quotes, so what a
statement says outside its quotes is decided by its fixed text alone.

* `Sql.render` — the text of a statement.
-/

namespace VectorTable

/-- A part of a statement. -/
inductive Sql.Token where
  /-- Text that is written as it stands. -/
  | text (s : String)
  /-- A name, written as a quoted identifier. -/
  | name (s : String)
  /-- The place of the bound value with a given number, counted from one. -/
  | slot (n : Nat)
deriving DecidableEq

/-- The tokens of a statement or of a part of one. -/
abbrev Sql := List Sql.Token

namespace Sql

def Token.render : Token → String
  | .text s => s
  | .name s => Identifier.quote s
  | .slot n => "$" ++ toString n

/-- The text of a statement. -/
def render (sql : Sql) : String := String.join (sql.map Token.render)

/-- Expressions separated by a text. -/
def separated (separator : String) (parts : List Sql) : Sql :=
  (parts.intersperse [.text separator]).flatten

/-- A list of expressions separated by commas. -/
def commas (parts : List Sql) : Sql := separated ", " parts

/-- A name in a schema. -/
def qualified (schema name : String) : Sql := [.name schema, .text ".", .name name]

end Sql

end VectorTable
