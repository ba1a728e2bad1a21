import VectorTable.Json.Basic

/-!
# VectorTable — JSON as written

A JSON text is read in two steps. The first finds its structure: a `Json.Tree` lists members in
the order of the text and keeps repeated ones. The second gives it meaning, and there a text
can still fail that has the right structure: a number may exceed every float, a text may hold
half a surrogate pair, arrays and objects may be nested too deep. A member that nobody asks for
never takes the second step.

* `Tree.toJson?` — the value a tree denotes;
* `Json.parse?` (in the reader) — both steps at once.
-/

namespace VectorTable.Json

/-- The structure of a JSON text. A number is `none` if it lies beyond the floats, a text or key
is `none` if it has an unpaired surrogate. -/
inductive Tree where
  | null
  | bool (value : Bool)
  | number (value : Option Number)
  | string (value : Option String)
  | array (items : List Tree)
  | object (members : List (Option String × Tree))

/-- How many arrays and objects may be open at once. -/
def maxDepth : Nat := 127

namespace Tree

instance : Inhabited Tree := ⟨.null⟩

mutual

/-- The value that a tree denotes, where `room` more arrays and objects may be opened. Of
members with the same key the last one counts. -/
def toJson? (room : Nat) : Tree → Option Json
  | .null => some .null
  | .bool b => some (.bool b)
  | .number n => n.map .number
  | .string s => s.map .string
  | .array items =>
    match room with
    | 0 => none
    | room + 1 => (itemsToJson? room items).map .array
  | .object members =>
    match room with
    | 0 => none
    | room + 1 => (membersToJson? room members).map ofMembers

def itemsToJson? (room : Nat) : List Tree → Option (List Json)
  | [] => some []
  | v :: vs =>
    match toJson? room v, itemsToJson? room vs with
    | some v, some vs => some (v :: vs)
    | _, _ => none

def membersToJson? (room : Nat) : List (Option String × Tree) → Option (List (String × Json))
  | [] => some []
  | (k, v) :: ms =>
    match k, toJson? room v, membersToJson? room ms with
    | some k, some v, some ms => some ((k, v) :: ms)
    | _, _, _ => none

end

end Tree

end VectorTable.Json
