import VectorTable.Metadata.Basic
import VectorTable.Proofs.Sql.Expression
import VectorTable.Sql.Value

/-!
# VectorTable — the meaning of a condition

What the database makes of a condition on one row. Conditions have three values: a comparison
with a null is null, `AND`, `OR` and `NOT` follow Kleene's tables, `IN` is the disjunction of
equalities, and a search returns the rows on which its condition is true, not those on which it
is null.

Of the database's own types nothing is assumed but what a condition can see: how bound values
become data, how data are converted, and how they compare. These are the fields of an `Engine`.
-/

namespace VectorTable

/-- A JSON scalar as the database keeps it. Numbers have any size and any number of digits, so a
number is kept as its numeral. -/
inductive JsonScalar where
  | null
  | bool (value : Bool)
  | number (numeral : String)
  | string (value : String)
deriving DecidableEq

namespace JsonScalar

/-- What `->>` makes of a member; a JSON null becomes the null of SQL. -/
def text? : JsonScalar → Option String
  | .null => none
  | .bool b => some (if b then "true" else "false")
  | .number numeral => some numeral
  | .string s => some s

/-- What `jsonb_typeof` says of a member. -/
def kind : JsonScalar → String
  | .null => "null"
  | .bool _ => "boolean"
  | .number _ => "number"
  | .string _ => "string"

end JsonScalar

/-- A value of the database, null excluded. -/
inductive Datum (α : Type) where
  | truth (value : Bool)
  | text (value : String)
  | scalar (value : JsonScalar)
  | object (members : Dictionary JsonScalar)
  /-- A value of any other type. -/
  | native (value : α)

/-- A value bound to a slot is null. -/
def SqlValue.isNull : SqlValue → Bool
  | .text none | .integer none | .bigint none | .real none | .double none | .uuid none => true
  | _ => false

/-- What is left to the database. -/
structure Engine where
  /-- The values of its own types. -/
  Native : Type
  /-- A bound value that is neither null nor a text. -/
  native : SqlValue → Native
  /-- The conversion of a value to the type with a given name. -/
  cast : String → Datum Native → Datum Native
  /-- The comparison of two values that are not null. -/
  holds : Comparison → Datum Native → Datum Native → Bool

namespace Engine

/-- What statements rely on in every database. -/
structure Lawful (db : Engine) : Prop where
  /-- `<>` is the complement of `=` where neither side is null. -/
  holds_ne : ∀ a b, db.holds .ne a b = !db.holds .eq a b
  /-- Texts are equal if they are the same text. -/
  holds_eq_text : ∀ s t, db.holds .eq (.text s) (.text t) = decide (s = t)

variable (db : Engine)

/-- A row of a table: the value of each column, or null. -/
abbrev Tuple := String → Option (Datum db.Native)

/-- A bound value as a value of the database. -/
def bound (value : SqlValue) : Option (Datum db.Native) :=
  if value.isNull then none
  else match value with
    | .text (some s) => some (.text s)
    | value => some (.native (db.native value))

/-- A bound value, converted as its slot asks. -/
def param (p : Param) : Option (Datum db.Native) :=
  match p.cast with
  | none => db.bound p.value
  | some type => (db.bound p.value).map (db.cast type)

/-- Two values compared; null if one of them is. -/
def compare (op : Comparison) : Option (Datum db.Native) → Option (Datum db.Native) → Option Bool
  | some a, some b => some (db.holds op a b)
  | _, _ => none

end Engine

/-! ## A database of whole numbers -/

/-- Whether a comparison holds of two values in a given order. -/
def Comparison.accepts : Comparison → Ordering → Bool
  | .eq, o => o = .eq
  | .ne, o => o ≠ .eq
  | .gt, o => o = .gt
  | .ge, o => o ≠ .lt
  | .lt, o => o = .lt
  | .le, o => o ≠ .gt

/-- The order of two values of like type. Truth values and JSON are only told apart from others. -/
def Datum.order : Datum Int → Datum Int → Ordering
  | .text s, .text t => if s = t then .eq else if s < t then .lt else .gt
  | .native i, .native j => compare i j
  | _, _ => .lt

/-- A database whose own values are whole numbers; it converts texts to them, and nothing else. -/
def Engine.wholeNumbers : Engine where
  Native := Int
  native
    | .integer (some i) => i.toInt
    | .bigint (some i) => i.toInt
    | _ => 0
  cast type d :=
    match d with
    | .text s => if type = "jsonb" then d else .native ((Decimal.parseInt? s.toList).getD 0)
    | d => d
  holds op a b := op.accepts (a.order b)

theorem Engine.wholeNumbers_lawful : Engine.wholeNumbers.Lawful where
  holds_ne a b := by simp [Engine.wholeNumbers, Comparison.accepts]
  holds_eq_text s t := by
    by_cases h : s = t
    · simp [Engine.wholeNumbers, Comparison.accepts, Datum.order, h]
    · by_cases hlt : s < t <;>
        simp [Engine.wholeNumbers, Comparison.accepts, Datum.order, h, hlt]

/-! ## Three truth values -/

namespace Truth

def and : Option Bool → Option Bool → Option Bool
  | some false, _ | _, some false => some false
  | some true, some true => some true
  | _, _ => none

def or : Option Bool → Option Bool → Option Bool
  | some true, _ | _, some true => some true
  | some false, some false => some false
  | _, _ => none

def not : Option Bool → Option Bool := Option.map (!·)

/-- The disjunction of a list. -/
def any (values : List (Option Bool)) : Option Bool := values.foldr or (some false)

/-- A conjunction is true if both sides are; null on one side does not help. -/
theorem and_eq_true {a b : Option Bool} :
    and a b = some true ↔ a = some true ∧ b = some true := by
  unfold and
  split <;> simp_all

/-- A disjunction is true if one side is, even where the other is null. -/
theorem or_eq_true {a b : Option Bool} :
    or a b = some true ↔ a = some true ∨ b = some true := by
  unfold or
  split <;> simp_all

/-- One of several truth values is true. -/
theorem any_eq_true {values : List (Option Bool)} :
    any values = some true ↔ some true ∈ values := by
  induction values with
  | nil => simp [any]
  | cons a rest ih =>
    have hcons : any (a :: rest) = or a (any rest) := rfl
    rw [hcons, or_eq_true, ih, List.mem_cons, eq_comm]

/-- A disjunction of truth values that are all known is known. -/
theorem any_map_some (values : List Bool) :
    any (values.map some) = some (values.any id) := by
  induction values with
  | nil => rfl
  | cons a rest ih =>
    have hcons : any ((a :: rest).map some) = or (some a) (any (rest.map some)) := rfl
    rw [hcons, ih, List.any_cons]
    cases a <;> cases rest.any id <;> rfl

end Truth

/-! ## Evaluation -/

/-- A value as a truth value. -/
def Datum.truth? {α : Type} : Datum α → Option Bool
  | .truth b => some b
  | _ => none

namespace Sql.Expression

variable (db : Engine) (row : db.Tuple) (values : List SqlValue)

mutual

/-- The value of an expression on a row, with the values bound to its slots; `none` is null. -/
def eval : Expression → Option (Datum db.Native)
  | .column name => row name
  | .slot 0 => none
  | .slot (n + 1) => values[n]?.bind db.bound
  | .literal s => some (.text s)
  | .truth b => some (.truth b)
  | .cast e type => (eval e).map (db.cast type)
  | .member object key =>
    match eval object, eval key with
    | some (.object members), some (.text k) => (members.get? k).map .scalar
    | _, _ => none
  | .memberText object key =>
    match eval object, eval key with
    | some (.object members), some (.text k) =>
      ((members.get? k).bind JsonScalar.text?).map .text
    | _, _ => none
  | .kind e =>
    match eval e with
    | some (.scalar v) => some (.text v.kind)
    | some (.object _) => some (.text "object")
    | _ => none
  | .compare op left right => (db.compare op (eval left) (eval right)).map .truth
  | .isNull e => some (.truth (eval e).isNone)
  | .isIn e list =>
    (Truth.any ((evalAll list).map (db.compare .eq (eval e)))).map .truth
  | .notIn e list =>
    (Truth.not (Truth.any ((evalAll list).map (db.compare .eq (eval e))))).map .truth
  | .and left right =>
    (Truth.and ((eval left).bind Datum.truth?) ((eval right).bind Datum.truth?)).map .truth
  | .or left right =>
    (Truth.or ((eval left).bind Datum.truth?) ((eval right).bind Datum.truth?)).map .truth
  | .not e => (Truth.not ((eval e).bind Datum.truth?)).map .truth
  | .coalesce list => (evalAll list).findSome? id
  | .when condition e =>
    if (eval condition).bind Datum.truth? = some true then eval e else none

/-- The values of several expressions. -/
def evalAll : List Expression → List (Option (Datum db.Native))
  | [] => []
  | e :: rest => eval e :: evalAll rest

end

/-- The items of a list are evaluated one by one. -/
theorem evalAll_eq_map (list : List Expression) :
    evalAll db row values list = list.map (eval db row values) := by
  induction list with
  | nil => rfl
  | cons e rest ih => simp [evalAll, ih]

/-- The condition is true on the row, so that a search may return it. -/
def IsTrue (e : Expression) : Prop := (e.eval db row values).bind Datum.truth? = some true

variable {db row values}

/-- A truth value is read back from the value that it is made. -/
theorem truth?_map_truth (t : Option Bool) :
    (t.map (Datum.truth (α := db.Native))).bind Datum.truth? = t := by
  cases t <;> rfl

/-- A condition is true if its truth value is. -/
theorem isTrue_iff {e : Expression} {t : Option Bool} (h : e.eval db row values = t.map .truth) :
    e.IsTrue db row values ↔ t = some true := by
  rw [IsTrue, h, truth?_map_truth]

/-- A comparison is true if neither side is null and it holds. -/
theorem isTrue_compare {op : Comparison} {left right : Expression} :
    (Expression.compare op left right).IsTrue db row values ↔
      db.compare op (left.eval db row values) (right.eval db row values) = some true :=
  isTrue_iff rfl

/-- A test for null is true of null, and is never null itself. -/
theorem isTrue_isNull {e : Expression} :
    (Expression.isNull e).IsTrue db row values ↔ e.eval db row values = none := by
  simp [IsTrue, eval, Datum.truth?]

/-- Membership in a list is true where one of the comparisons is, whatever the others are. -/
theorem isTrue_isIn {e : Expression} {list : List Expression} :
    (Expression.isIn e list).IsTrue db row values ↔
      ∃ item ∈ list,
        db.compare .eq (e.eval db row values) (item.eval db row values) = some true := by
  have htruth : (Expression.isIn e list).IsTrue db row values ↔
      Truth.any ((evalAll db row values list).map (db.compare .eq (e.eval db row values))) =
        some true := isTrue_iff rfl
  rw [htruth, Truth.any_eq_true, evalAll_eq_map]
  simp

/-- Where neither side of `NOT IN` has a null, it is the complement of `IN`. -/
theorem isTrue_notIn {e : Expression} {list : List Expression} {a : Datum db.Native}
    (he : e.eval db row values = some a)
    (hlist : ∀ item ∈ list, (item.eval db row values).isSome = true) :
    (Expression.notIn e list).IsTrue db row values ↔
      ¬ (Expression.isIn e list).IsTrue db row values := by
  -- No comparison is null, so that the disjunction has two truth values only.
  have hknown : ∃ known : List Bool,
      (evalAll db row values list).map (db.compare .eq (e.eval db row values)) =
        known.map some := by
    refine ⟨list.map fun item =>
      (db.compare .eq (e.eval db row values) (item.eval db row values)).getD false, ?_⟩
    rw [evalAll_eq_map, List.map_map, List.map_map]
    refine List.map_congr_left fun item hitem => ?_
    obtain ⟨d, hd⟩ := Option.isSome_iff_exists.mp (hlist item hitem)
    simp [he, hd, Engine.compare]
  obtain ⟨known, hknown⟩ := hknown
  have hin : (Expression.isIn e list).IsTrue db row values ↔ known.any id = true := by
    rw [isTrue_iff rfl, hknown, Truth.any_map_some, Option.some_inj]
  have hnotIn : (Expression.notIn e list).IsTrue db row values ↔
      Truth.not (some (known.any id)) = some true := by
    rw [← Truth.any_map_some, ← hknown]
    exact isTrue_iff rfl
  rw [hin, hnotIn]
  cases known.any id <;> simp [Truth.not]

theorem isTrue_and {left right : Expression} :
    (Expression.and left right).IsTrue db row values ↔
      left.IsTrue db row values ∧ right.IsTrue db row values :=
  (isTrue_iff rfl).trans Truth.and_eq_true

theorem isTrue_or {left right : Expression} :
    (Expression.or left right).IsTrue db row values ↔
      left.IsTrue db row values ∨ right.IsTrue db row values :=
  (isTrue_iff rfl).trans Truth.or_eq_true

/-- A condition that is made false where it is null has a complement. -/
theorem isTrue_not_coalesce {e : Expression} {t : Option Bool}
    (h : e.eval db row values = t.map .truth) :
    (Expression.not (.coalesce [e, .truth false])).IsTrue db row values ↔
      ¬ e.IsTrue db row values := by
  have hcoalesce : (Expression.coalesce [e, .truth false]).eval db row values =
      [t.map .truth, some (.truth false)].findSome? id := by
    rw [← h]
    rfl
  have hnot : (Expression.not (.coalesce [e, .truth false])).IsTrue db row values ↔
      Truth.not (([t.map .truth, some (.truth false)].findSome? id).bind
        (Datum.truth? (α := db.Native))) = some true := by
    rw [← hcoalesce]
    exact isTrue_iff rfl
  rw [hnot, isTrue_iff h]
  -- null, false and true: null is made false, and false is negated
  rcases t with _ | _ | _ <;> simp [Truth.not, Datum.truth?]

end Sql.Expression

end VectorTable
