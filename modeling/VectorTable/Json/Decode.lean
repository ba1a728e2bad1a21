import VectorTable.Json.Tree

/-!
# VectorTable — typed values from JSON

Decoders read typed values from the structure of a JSON text. They are strict: a whole number
must be written as one, null stands for nothing but an absent optional value, and text is not
taken for a number. A record accepts its members in any order, ignores the ones it does not
know, and refuses a known member that occurs twice; it may also be written as an array of its
members in their declared order.
-/

namespace VectorTable.Json

/-- Reads a value of type `α` if the tree has one. -/
abbrev Decoder (α : Type) := Tree → Option α

namespace Decoder

def text : Decoder String
  | .string s => s
  | _ => none

def bool : Decoder Bool
  | .bool b => some b
  | _ => none

/-- A whole number. -/
def integer : Decoder Int
  | .number (some (.integer i _)) => some i
  | _ => none

def uint32 : Decoder UInt32 := fun t =>
  (integer t).bind fun i => if 0 ≤ i ∧ i < 0x100000000 then some (UInt32.ofNat i.toNat) else none

def uint64 : Decoder UInt64 := fun t =>
  (integer t).bind fun i =>
    if 0 ≤ i ∧ i < 0x10000000000000000 then some (UInt64.ofNat i.toNat) else none

def int32 : Decoder Int32 := fun t =>
  (integer t).bind fun i => if -0x80000000 ≤ i ∧ i < 0x80000000 then some (Int32.ofInt i) else none

/-- A float; a whole number is rounded to one. -/
def double : Decoder Double
  | .number (some (.integer i _)) => some (Binary.ofInt i)
  | .number (some (.float x _)) => some x
  | _ => none

def list {α : Type} (item : Decoder α) : Decoder (List α)
  | .array items => items.mapM item
  | _ => none

/-- An optional value; null stands for its absence. -/
def optional {α : Type} (value : Decoder α) : Decoder (Option α)
  | .null => some none
  | t => (value t).map some

/-- One of several names, as a text or as an object whose only member has that name and null. -/
def choice {α : Type} (named : String → Option α) : Decoder α
  | .string (some name) => named name
  | .object [(some name, .null)] => named name
  | _ => none

end Decoder

/-- The members of a record that are present, by their names. -/
abbrev Record := List (String × Tree)

namespace Record

/-- The members of a record with the given member names. -/
def ofTree? (names : List String) : Tree → Option Record
  | .array items => if items.length ≤ names.length then some (names.zip items) else none
  | .object members => do
    let members ← members.mapM fun (key, value) => key.map (·, value)
    -- All keys must be texts, but of the values only the known ones are looked at.
    let known := members.filter fun m => m.1 ∈ names
    if (known.map (·.1)).Nodup then some known else none
  | _ => none

/-- A member that must be present. -/
def required {α : Type} (record : Record) (name : String) (value : Decoder α) : Option α :=
  (record.lookup name).bind value

/-- A member that has a default. -/
def member {α : Type} (record : Record) (name : String) (value : Decoder α) (default : α) :
    Option α :=
  match record.lookup name with
  | none => some default
  | some t => value t

end Record

/-- The member that names the variant of a tagged value. -/
def tagName : String := "type"

/-- The tag of a tagged value and the record of its other members. The tag may stand anywhere
among them, so all of them are given meaning first, with `room` more arrays and objects; as an
array, the tag comes first. -/
def tagged? (room : Nat) (t : Tree) : Option (String × Tree) :=
  if (t.toJson? room).isNone then none
  else match t with
  | .array (.string (some tag) :: items) => some (tag, .array items)
  | .object members =>
    match members.filter (·.1 = some tagName) with
    | [(_, .string (some tag))] => some (tag, .object (members.filter (·.1 ≠ some tagName)))
    | _ => none
  | _ => none

end VectorTable.Json
