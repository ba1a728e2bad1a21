import VectorTable.Number.Binary

/-!
# VectorTable — decimal numerals

A decimal numeral is a sign, a whole coefficient and a power of ten. This module reads numerals
and rounds them to a binary format. Reading never loses a digit: the coefficient holds all of
them, before and after the point, and rounding happens once, at the end.

* `Decimal.parse?` — digits with an optional point and exponent;
* `Decimal.parseInt?` — a signed whole number;
* `Binary.parse?` — a float in any of its spellings, `inf` and `nan` included.
-/

namespace VectorTable

/-- The number `± coefficient * 10 ^ exponent`. -/
structure Decimal where
  negative : Bool
  coefficient : Nat
  exponent : Int
deriving DecidableEq

namespace Decimal

/-- The digits that a text starts with, and the text after them. -/
def readDigits (s : List Char) : List Char × List Char :=
  (s.takeWhile Char.isDigit, s.dropWhile Char.isDigit)

/-- An optional sign; the answer says whether it was a minus. -/
def readSign : List Char → Bool × List Char
  | '-' :: r => (true, r)
  | '+' :: r => (false, r)
  | r => (false, r)

/-- An optional exponent: the letter `e` in either case, an optional sign, and at least one
digit. A text that does not start with the letter has the exponent 0. -/
def readExponent : List Char → Option (Int × List Char)
  | c :: r =>
    if c = 'e' || c = 'E' then
      let (negative, r) := readSign r
      let (digits, rest) := readDigits r
      if digits.isEmpty then none
      else
        let size : Int := Nat.ofDigitChars 10 digits 0
        some (if negative then -size else size, rest)
    else some (0, c :: r)
  | [] => some (0, [])

/-- The numeral with the given digits before and after the point. -/
def ofParts (negative : Bool) (whole fraction : List Char) (exponent : Int) : Decimal :=
  ⟨negative, Nat.ofDigitChars 10 (whole ++ fraction) 0, exponent - fraction.length⟩

/-- An optional point with the digits after it. -/
def readFraction : List Char → List Char × List Char
  | '.' :: r => readDigits r
  | r => ([], r)

/-- A numeral without its sign: digits with an optional point among them, at least one digit in
all, then an optional exponent, and nothing more. -/
def parse? (negative : Bool) (s : List Char) : Option Decimal :=
  let (whole, rest) := readDigits s
  let (fraction, rest) := readFraction rest
  if whole.isEmpty && fraction.isEmpty then none
  else match readExponent rest with
    | some (exponent, []) => some (ofParts negative whole fraction exponent)
    | _ => none

/-- A whole number: an optional sign and at least one digit. -/
def parseInt? (s : List Char) : Option Int :=
  let (negative, rest) := readSign s
  match readDigits rest with
  | ([], _) => none
  | (digits, []) =>
    let size : Int := Nat.ofDigitChars 10 digits 0
    some (if negative then -size else size)
  | _ => none

end Decimal

namespace Binary

variable {f : Format}

/-- The value nearest to a decimal numeral; beyond the range of the format it is infinite. -/
def ofDecimal (d : Decimal) : Binary f :=
  ofOrdinal d.negative (f.roundDecimal d.coefficient d.exponent)
    (f.roundDecimal_le_infinity _ _)

/-- A float as text: an optional sign, then `inf`, `infinity` or `nan` in any case, or a
decimal numeral. -/
def parse? (s : List Char) : Option (Binary f) :=
  let (negative, body) := Decimal.readSign s
  let word := String.ofList (body.map Char.toLower)
  if word = "inf" || word = "infinity" then some (infinite negative)
  else if word = "nan" then some .nan
  else (Decimal.parse? negative body).map ofDecimal

end Binary

/-- The text of a whole number, if it lies in the signed 64-bit range. -/
def Int64.parse? (s : List Char) : Option Int64 :=
  (Decimal.parseInt? s).bind fun i =>
    if Int64.minValue.toInt ≤ i && i ≤ Int64.maxValue.toInt then some (Int64.ofInt i) else none

end VectorTable
