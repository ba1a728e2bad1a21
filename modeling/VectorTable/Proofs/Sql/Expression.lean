import VectorTable.Proofs.Sql.Lexeme
import VectorTable.Sql.Predicate

/-!
# VectorTable — reading a condition

How the database reads the text of a condition. The reader goes through the lexemes from left to
right and keeps a stack of the constructs that are still open: parentheses, calls, lists, the
parts of a `CASE`, and operators that wait for their right side. Before an operator is put on
the stack, the waiting operators that bind more tightly are applied, and also those that bind
as tightly, if they group to the left. From loose to tight the operators are

    OR,  AND,  NOT,  IS NULL,  = <> < <= > >=,  IN,  -> ->>,  ::

and comparisons do not group at all. A missing parenthesis therefore shows as another expression.

* `Sql.Expression` — the syntax tree of a condition;
* `Sql.read` — the expression that a text denotes, if it is one.
-/

namespace VectorTable.Sql

/-- A scalar expression, conditions included. -/
inductive Expression where
  | column (name : String)
  | slot (n : Nat)
  | literal (s : String)
  | truth (value : Bool)
  | cast (e : Expression) (type : String)
  /-- A member of a JSON object, as JSON. -/
  | member (object key : Expression)
  /-- A member of a JSON object, as text. -/
  | memberText (object key : Expression)
  /-- The kind of a JSON value. -/
  | kind (e : Expression)
  | compare (op : Comparison) (left right : Expression)
  | isNull (e : Expression)
  | isIn (e : Expression) (list : List Expression)
  | notIn (e : Expression) (list : List Expression)
  | and (left right : Expression)
  | or (left right : Expression)
  | not (e : Expression)
  /-- The first of the values that is not null. -/
  | coalesce (list : List Expression)
  /-- The value where the condition is true, and null elsewhere. -/
  | when (condition value : Expression)

/-- An operator between two expressions. -/
inductive Operator where
  | or
  | and
  | compare (op : Comparison)
  | member
  | memberText
deriving DecidableEq

namespace Operator

/-- How tightly an operator binds. Between `and` and the comparisons stand `NOT`, with rank 2,
and `IS NULL`, with rank 3; `IN` has rank 5. -/
def rank : Operator → Nat
  | .or => 0
  | .and => 1
  | .compare _ => 4
  | .member | .memberText => 6

def apply : Operator → Expression → Expression → Expression
  | .or => .or
  | .and => .and
  | .compare op => .compare op
  | .member => .member
  | .memberText => .memberText

end Operator

/-- A function that a condition may call. -/
inductive Function where
  | coalesce
  | jsonKind

/-- The call of a function, if it has the right number of arguments. -/
def Function.call? : Function → List Expression → Option Expression
  | .coalesce, args => some (.coalesce args)
  | .jsonKind, [e] => some (.kind e)
  | .jsonKind, _ => none

/-- A construct that is open. -/
inductive Frame where
  | group
  | operator (op : Operator) (left : Expression)
  | not
  | call (f : Function) (args : List Expression)
  | list (negative : Bool) (left : Expression) (items : List Expression)
  | condition
  | result (condition : Expression)

/-- What the reader expects. -/
inductive Expected where
  | operand
  /-- An operator, or the end of the construct, after an expression. -/
  | operator (left : Expression)
  | arguments (f : Function)
  | whenKey
  | type (e : Expression)
  | nullKey (e : Expression)
  | inKey (e : Expression)
  | list (negative : Bool) (left : Expression)

/-- A state of the reader: what comes next, and the open constructs from the inside out. -/
abbrev Reading := Expected × List Frame

namespace Reading

/-- Applies the waiting operators that bind at least as tightly as a rank. -/
def settle (rank : Nat) (e : Expression) : List Frame → Expression × List Frame
  | .operator op left :: frames =>
    if rank ≤ op.rank then settle rank (op.apply left e) frames
    else (e, .operator op left :: frames)
  | .not :: frames => if rank ≤ 2 then settle rank (.not e) frames else (e, .not :: frames)
  | frames => (e, frames)

/-- Puts an operator on the stack. -/
def push (op : Operator) (e : Expression) (frames : List Frame) : Option Reading :=
  match op with
  | .compare c =>
    match settle 5 e frames with
    | (_, .operator (.compare _) _ :: _) => none
    | (e, frames) => some (.operand, .operator (.compare c) e :: frames)
  | op =>
    let (e, frames) := settle op.rank e frames
    some (.operand, .operator op e :: frames)

/-- Puts a construct that needs the expression before it in place of that expression. -/
def after (rank : Nat) (expected : Expression → Expected) (e : Expression)
    (frames : List Frame) : Option Reading :=
  let (e, frames) := settle rank e frames
  some (expected e, frames)

/-- A closing parenthesis. -/
def close (e : Expression) (frames : List Frame) : Option Reading :=
  match settle 0 e frames with
  | (e, .group :: frames) => some (.operator e, frames)
  | (e, .call f args :: frames) => (f.call? (args ++ [e])).map fun e => (.operator e, frames)
  | (e, .list negative left items :: frames) =>
    some (.operator (if negative then .notIn left (items ++ [e]) else .isIn left (items ++ [e])),
      frames)
  | _ => none

/-- A comma. -/
def next (e : Expression) (frames : List Frame) : Option Reading :=
  match settle 0 e frames with
  | (e, .call f args :: frames) => some (.operand, .call f (args ++ [e]) :: frames)
  | (e, .list negative left items :: frames) =>
    some (.operand, .list negative left (items ++ [e]) :: frames)
  | _ => none

/-- The key word after the condition of a `CASE`. -/
def thenKey (e : Expression) (frames : List Frame) : Option Reading :=
  match settle 0 e frames with
  | (e, .condition :: frames) => some (.operand, .result e :: frames)
  | _ => none

/-- The end of a `CASE`. -/
def endKey (e : Expression) (frames : List Frame) : Option Reading :=
  match settle 0 e frames with
  | (e, .result condition :: frames) => some (.operator (.when condition e), frames)
  | _ => none

/-- One lexeme where an operand is expected. -/
def readOperand (frames : List Frame) : Lexeme → Option Reading
  | .name s => some (.operator (.column s), frames)
  | .slot n => some (.operator (.slot n), frames)
  | .literal s => some (.operator (.literal s), frames)
  | .symbol "(" => some (.operand, .group :: frames)
  | .word "true" => some (.operator (.truth true), frames)
  | .word "false" => some (.operator (.truth false), frames)
  | .word "not" => some (.operand, .not :: frames)
  | .word "case" => some (.whenKey, frames)
  | .word "coalesce" => some (.arguments .coalesce, frames)
  | .word "jsonb_typeof" => some (.arguments .jsonKind, frames)
  | _ => none

/-- One lexeme after an expression. -/
def readOperator (e : Expression) (frames : List Frame) : Lexeme → Option Reading
  | .word "or" => push .or e frames
  | .word "and" => push .and e frames
  | .symbol "=" => push (.compare .eq) e frames
  | .symbol "<>" => push (.compare .ne) e frames
  | .symbol ">" => push (.compare .gt) e frames
  | .symbol ">=" => push (.compare .ge) e frames
  | .symbol "<" => push (.compare .lt) e frames
  | .symbol "<=" => push (.compare .le) e frames
  | .symbol "->" => push .member e frames
  | .symbol "->>" => push .memberText e frames
  | .symbol "::" => some (.type e, frames)
  | .word "is" => after 4 .nullKey e frames
  | .word "in" => after 6 (.list false) e frames
  | .word "not" => after 6 .inKey e frames
  | .symbol ")" => close e frames
  | .symbol "," => next e frames
  | .word "then" => thenKey e frames
  | .word "end" => endKey e frames
  | _ => none

/-- One lexeme. -/
def step : Reading → Lexeme → Option Reading
  | (.operand, frames), l => readOperand frames l
  | (.operator e, frames), l => readOperator e frames l
  | (.arguments f, frames), .symbol "(" => some (.operand, .call f [] :: frames)
  | (.whenKey, frames), .word "when" => some (.operand, .condition :: frames)
  | (.type e, frames), .name t | (.type e, frames), .word t => some (.operator (.cast e t), frames)
  | (.nullKey e, frames), .word "null" => some (.operator (.isNull e), frames)
  | (.inKey e, frames), .word "in" => some (.list true e, frames)
  | (.list negative e, frames), .symbol "(" => some (.operand, .list negative e [] :: frames)
  | _, _ => none

/-- All lexemes, one after the other. -/
def run (r : Reading) (lexemes : List Lexeme) : Option Reading := lexemes.foldlM step r

/-- The expression at the end of the text, if nothing is open. -/
def result? : Reading → Option Expression
  | (.operator e, frames) =>
    match settle 0 e frames with
    | (e, []) => some e
    | _ => none
  | _ => none

end Reading

/-- The expression that a text denotes. -/
def read (text : String) : Option Expression :=
  (Reading.run (.operand, []) (scan text)).bind Reading.result?

/-! ## Steps of the reader -/

namespace Reading

@[simp] theorem run_nil (r : Reading) : run r [] = some r := rfl

@[simp] theorem run_cons (r : Reading) (l : Lexeme) (rest : List Lexeme) :
    run r (l :: rest) = (step r l).bind (run · rest) := rfl

/-- A list of lexemes may be read in two parts. -/
theorem run_append (r : Reading) (a b : List Lexeme) :
    run r (a ++ b) = (run r a).bind (run · b) := by
  simp [run, List.foldlM_append, Option.bind_eq_bind]

/-- Settling in two stages, the tighter operators first. -/
theorem settle_settle {low high : Nat} (h : low ≤ high) (e : Expression) (frames : List Frame) :
    settle low (settle high e frames).1 (settle high e frames).2 = settle low e frames := by
  induction frames generalizing e with
  | nil => rfl
  | cons frame frames ih =>
    cases frame with
    | operator op left =>
      -- Where the first stage stops, the second one starts.
      by_cases hop : high ≤ op.rank
      · have hlow : low ≤ op.rank := Nat.le_trans h hop
        simp only [settle, if_pos hop, if_pos hlow, ih]
      · simp only [settle, if_neg hop]
    | not =>
      by_cases hnot : high ≤ 2
      · have hlow : low ≤ 2 := Nat.le_trans h hnot
        simp only [settle, if_pos hnot, if_pos hlow, ih]
      · simp only [settle, if_neg hnot]
    | group | call | list | condition | result => rfl

/-- The stack waits for a condition: an operator on top of it binds less tightly than all those
inside a condition. -/
def Waiting : List Frame → Prop
  | .operator op _ :: _ => op.rank < 3
  | _ => True

/-- What waits for a condition is not settled by the operators inside it. -/
theorem settle_of_waiting {frames : List Frame} (h : Waiting frames) {rank : Nat}
    (hrank : 3 ≤ rank) (e : Expression) : settle rank e frames = (e, frames) := by
  cases frames with
  | nil => rfl
  | cons frame frames =>
    cases frame with
    | operator op left =>
      have hop : op.rank < 3 := h
      simp only [settle, if_neg (show ¬ rank ≤ op.rank by omega)]
    | not => simp only [settle, if_neg (show ¬ rank ≤ 2 by omega)]
    | group | call | list | condition | result => rfl

end Reading

end VectorTable.Sql
