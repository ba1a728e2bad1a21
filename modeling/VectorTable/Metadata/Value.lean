import VectorTable.Error
import VectorTable.Uuid

/-!
# VectorTable — metadata values

A metadata value is a scalar: a text, a whole number of 32 or 64 bits, a float of 32 or 64
bits, or a UUID. JSON knows fewer kinds, so a value that has gone through JSON may come back as
another kind: a UUID as text, a short `long` as an `integer`, a `float` as the `double` with
the same value.

* `MetadataValue.toJson`, `MetadataValue.ofJson?` — to JSON and back;
* `MetadataValue.toText` — plain text, without quotes.
-/

namespace VectorTable

/-- A scalar metadata value. -/
inductive MetadataValue where
  | string (value : String)
  | integer (value : Int32)
  | long (value : Int64)
  | float (value : Single)
  | double (value : Double)
  | uuid (value : Uuid)
deriving DecidableEq

namespace MetadataValue

instance : Inhabited MetadataValue := ⟨.string ""⟩

/-- The value compares as a number. -/
def isNumeric : MetadataValue → Bool
  | .integer _ | .long _ | .float _ | .double _ => true
  | .string _ | .uuid _ => false

/-- Plain text: texts as they are, floats by their shortest decimal, UUIDs with hyphens. -/
def toText : MetadataValue → String
  | .string s => s
  | .integer i => toString i
  | .long i => toString i
  | .float x => x.display
  | .double x => x.display
  | .uuid u => toString u

/-- A finite float as a JSON number. -/
def finiteNumber (x : Double) : Except Error Json :=
  if h : x.isFinite = true then .ok (.number (.float x h))
  else .error (.encoding (.notFinite x))

/-- The JSON form. Infinities and `nan` have none. -/
def toJson : MetadataValue → Except Error Json
  | .string s => .ok (.string s)
  | .integer i => .ok (.ofInt32 i)
  | .long i => .ok (.ofInt64 i)
  | .float x => finiteNumber x.widen
  | .double x => finiteNumber x
  | .uuid u => .ok (.string (toString u))

/-- A whole number in the narrower of the two integer kinds that holds it. -/
def ofInt? (i : Int) : Option MetadataValue :=
  if -0x80000000 ≤ i ∧ i < 0x80000000 then some (.integer (Int32.ofInt i))
  else if -0x8000000000000000 ≤ i ∧ i < 0x8000000000000000 then some (.long (Int64.ofInt i))
  else none

/-- A JSON scalar as the value of a key; null is the absence of a value. -/
def ofJson? (key : String) : Json → Except Error (Option MetadataValue)
  | .null => .ok none
  | .string s => .ok (some (.string s))
  | .number (.integer i _) =>
    match ofInt? i with
    | some v => .ok (some v)
    | none => .error (.encoding (.integerTooLarge key i))
  | .number (.float x _) => .ok (some (.double x))
  | v => .error (.encoding (.unsupported key v))

/-- Equal as values of the program: like kinds, and floats compared as numbers, so that a `nan`
differs from itself. -/
def agrees : MetadataValue → MetadataValue → Bool
  | .float x, .float y => x.eq y
  | .double x, .double y => x.eq y
  | a, b => a = b

end MetadataValue

end VectorTable
