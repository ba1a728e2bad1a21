import VectorTable.Dictionary
import VectorTable.Metadata.Value

/-!
# VectorTable — metadata

The metadata of a text segment: scalar values under text keys. The typed getters take any kind
that converts to the one asked for without loss, so that a value reads back the same after it
has gone through JSON. (The one getter that may lose digits is `getFloat?` of a `double`.)

* `Metadata.toJson`, `Metadata.ofJson` — as a JSON object and back.
-/

namespace VectorTable

/-- Scalar values under text keys. -/
abbrev Metadata := Dictionary MetadataValue

namespace Metadata

/-! ## Typed getters -/

def getString? (m : Metadata) (key : String) : Option String :=
  match m.get? key with
  | some (.string s) => some s
  | _ => none

def getUuid? (m : Metadata) (key : String) : Option Uuid :=
  match m.get? key with
  | some (.uuid u) => some u
  | some (.string s) => Uuid.parse? s
  | _ => none

def getInteger? (m : Metadata) (key : String) : Option Int32 :=
  match m.get? key with
  | some (.integer i) => some i
  | some (.long i) =>
    if -0x80000000 ≤ i.toInt ∧ i.toInt < 0x80000000 then some (Int32.ofInt i.toInt) else none
  | _ => none

def getLong? (m : Metadata) (key : String) : Option Int64 :=
  match m.get? key with
  | some (.integer i) => some i.toInt64
  | some (.long i) => some i
  | _ => none

def getFloat? (m : Metadata) (key : String) : Option Single :=
  match m.get? key with
  | some (.float x) => some x
  | some (.double x) => some x.narrow
  | _ => none

def getDouble? (m : Metadata) (key : String) : Option Double :=
  match m.get? key with
  | some (.float x) => some x.widen
  | some (.double x) => some x
  | _ => none

/-! ## JSON -/

/-- The entries as the members of a JSON object. -/
def entriesToJson (entries : Entries MetadataValue) : Except Error Json := do
  let members ← entries.mapM fun (key, value) => do return (key, ← value.toJson)
  return .object members

/-- All entries as a JSON object. -/
def toJson (m : Metadata) : Except Error Json := entriesToJson m.entries

/-- The entries of the members of an object, without those that are null. -/
def entriesOfJson (members : List (String × Json)) : Except Error (Entries MetadataValue) := do
  let entries ← members.mapM fun (key, value) => do
    return (← MetadataValue.ofJson? key value).map (key, ·)
  return entries.filterMap id

/-- The metadata of a JSON object. Null stands for no metadata. -/
def ofJson : Json → Except Error Metadata
  | .null => .ok ∅
  | .object members => (entriesOfJson members).map .ofList
  | v => .error (.encoding (.notAnObject v))

/-! ## Comparison -/

/-- Equal as values of the program: the same keys, and under each of them values that agree. -/
def agrees (a b : Metadata) : Bool :=
  a.size = b.size && a.entries.all fun (key, value) =>
    match b.get? key with
    | some other => value.agrees other
    | none => false

end Metadata

end VectorTable
