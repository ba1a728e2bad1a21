import VectorTable.Dictionary
import VectorTable.Number.Shortest

/-!
# VectorTable — JSON values

The values that JSON texts denote. A number is a whole number that fits 64 bits, signed or
unsigned, or else a finite 64-bit float; which of the two is kept apart, so `1` and `1.0` are
different values. The members of an object are listed with their keys in increasing order.

* `Json.render` — the compact text of a value.
-/

namespace VectorTable

/-- A JSON number. -/
inductive Json.Number where
  | integer (value : Int) (inRange : -0x8000000000000000 ≤ value ∧ value < 0x10000000000000000)
  | float (value : Double) (finite : value.isFinite = true)
deriving DecidableEq

/-- A JSON value. -/
inductive Json where
  | null
  | bool (value : Bool)
  | number (value : Json.Number)
  | string (value : String)
  | array (items : List Json)
  | object (members : List (String × Json))

namespace Json

instance : Inhabited Json := ⟨.null⟩

/-- The object with the given members, put in order. -/
def ofMembers (members : Entries Json) : Json := .object (Entries.sort members)

/-- A whole number, kept as such if it fits 64 bits. -/
def Number.ofInt? (i : Int) : Option Number :=
  if h : -0x8000000000000000 ≤ i ∧ i < 0x10000000000000000 then some (.integer i h) else none

/-- A float, if it is finite. -/
def Number.ofDouble? (x : Double) : Option Number :=
  if h : x.isFinite = true then some (.float x h) else none

/-- A whole number of at most 32 bits with its sign. -/
def ofInt32 (i : Int32) : Json :=
  .number (.integer i.toInt ⟨by have := i.le_toInt; omega, by have := i.toInt_lt; omega⟩)

/-- A signed whole number of 64 bits. -/
def ofInt64 (i : Int64) : Json :=
  .number (.integer i.toInt ⟨i.le_toInt, by have := i.toInt_lt; omega⟩)

/-- An unsigned whole number of 32 bits. -/
def ofUInt32 (n : UInt32) : Json :=
  .number (.integer n.toNat ⟨by omega, by have := n.toNat_lt; omega⟩)

/-- An unsigned whole number of 64 bits. -/
def ofUInt64 (n : UInt64) : Json :=
  .number (.integer n.toNat ⟨by omega, by have := n.toNat_lt; omega⟩)

/-- A float; what is not finite has no JSON number and becomes null. -/
def ofDouble (x : Double) : Json :=
  (Number.ofDouble? x).elim .null .number

/-! ## Numbers as text -/

/-- The notation of a float: positional while the point stands at most sixteen places after the
first digit and at most four places before it, scientific otherwise. A whole number keeps one
zero after the point, which tells it from an integer. -/
def floatChars (d : Decimal) : List Char :=
  let point := d.digits.length + d.exponent
  d.signChars ++
    if -5 < point ∧ point ≤ 16 then
      if 0 ≤ d.exponent then d.positional ++ ['.', '0'] else d.positional
    else d.scientific

/-- A float by its shortest decimal; a tie between two of them goes to the even digit. -/
def doubleChars : Double → List Char
  | .nan => []
  | .signed negative m =>
    let (c, e) := Format.double.shortest .even m.val
    floatChars ⟨negative, c, e⟩

def Number.chars : Number → List Char
  | .integer i _ => (if i < 0 then ['-'] else []) ++ Nat.toDigits 10 i.natAbs
  | .float x _ => doubleChars x

/-! ## Texts -/

/-- The two hexadecimal digits of a control character. -/
def controlDigits (n : Nat) : List Char := [(n / 16).digitChar, (n % 16).digitChar]

/-- A character inside quotes. Only quotes, backslashes and controls are escaped. -/
def quoteChar (c : Char) : List Char :=
  if c = '"' then ['\\', '"']
  else if c = '\\' then ['\\', '\\']
  else if c = '\x08' then ['\\', 'b']
  else if c = '\t' then ['\\', 't']
  else if c = '\n' then ['\\', 'n']
  else if c = '\x0c' then ['\\', 'f']
  else if c = '\r' then ['\\', 'r']
  else if c.toNat < 0x20 then '\\' :: 'u' :: '0' :: '0' :: controlDigits c.toNat
  else [c]

def quote (s : String) : List Char := '"' :: (s.toList.flatMap quoteChar ++ ['"'])

/-! ## Values -/

mutual

/-- The compact text of a value. -/
def chars : Json → List Char
  | .null => "null".toList
  | .bool b => if b then "true".toList else "false".toList
  | .number n => n.chars
  | .string s => quote s
  | .array [] => ['[', ']']
  | .array (v :: vs) => '[' :: (v.chars ++ itemsChars vs)
  | .object [] => ['\x7b', '\x7d']
  | .object ((k, v) :: ms) => '\x7b' :: (quote k ++ ':' :: (v.chars ++ membersChars ms))

/-- The items after the first one, up to the bracket. -/
def itemsChars : List Json → List Char
  | [] => [']']
  | v :: vs => ',' :: (v.chars ++ itemsChars vs)

/-- The members after the first one, up to the brace. -/
def membersChars : List (String × Json) → List Char
  | [] => ['\x7d']
  | (k, v) :: ms => ',' :: (quote k ++ ':' :: (v.chars ++ membersChars ms))

end

def render (v : Json) : String := String.ofList v.chars

end Json

end VectorTable
