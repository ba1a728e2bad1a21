/-!
# VectorTable — UUIDs

A UUID is kept as its thirty-two hexadecimal digits. It is written in lower case with hyphens
after the 8th, 12th, 16th and 20th digit. It is read, in either case, without hyphens, with
them, with them between braces, or with them after `urn:uuid:`.
-/

namespace VectorTable

/-- A universally unique identifier. -/
structure Uuid where
  digits : List (Fin 16)
  length_digits : digits.length = 32
deriving DecidableEq

/-- The value of a hexadecimal digit in either case. -/
def hexValue? (c : Char) : Option (Fin 16) :=
  if '0' ≤ c ∧ c ≤ '9' then some (Fin.ofNat 16 (c.toNat - 48))
  else if 'a' ≤ c ∧ c ≤ 'f' then some (Fin.ofNat 16 (c.toNat - 87))
  else if 'A' ≤ c ∧ c ≤ 'F' then some (Fin.ofNat 16 (c.toNat - 55))
  else none

/-- A hexadecimal digit in lower case. -/
def hexChar (d : Fin 16) : Char := d.val.digitChar

namespace Uuid

/-- The number of digits in each group of the hyphenated form. -/
def groups : List Nat := [8, 4, 4, 4, 12]

/-- The text cut into groups of the given sizes, with a hyphen between any two. -/
def hyphenate : List Nat → List Char → List Char
  | [], s => s
  | [_], s => s
  | n :: ns, s => s.take n ++ '-' :: hyphenate ns (s.drop n)

/-- Takes out the hyphens between groups of the given sizes; `none` if one is not in its
place or the last group has another size. -/
def unhyphenate : List Nat → List Char → Option (List Char)
  | [], s => if s.isEmpty then some [] else none
  | [n], s => if s.length = n then some s else none
  | n :: ns, s =>
    match s.drop n with
    | '-' :: r => (unhyphenate ns r).map (s.take n ++ ·)
    | _ => none

def toChars (u : Uuid) : List Char := hyphenate groups (u.digits.map hexChar)

instance : ToString Uuid := ⟨fun u => String.ofList u.toChars⟩

/-- Thirty-two hexadecimal digits. -/
def ofHex? (s : List Char) : Option Uuid :=
  (s.mapM hexValue?).bind fun digits =>
    if h : digits.length = 32 then some ⟨digits, h⟩ else none

/-- The hyphenated form. -/
def ofHyphenated? (s : List Char) : Option Uuid := (unhyphenate groups s).bind ofHex?

/-- Any of the accepted forms, told apart by their lengths. -/
def ofChars? (s : List Char) : Option Uuid :=
  if s.length = 32 then ofHex? s
  else if s.length = 36 then ofHyphenated? s
  else if s.length = 38 then
    if s.head? = some '\x7b' ∧ s.getLast? = some '\x7d' then ofHyphenated? (s.drop 1).dropLast
    else none
  else if s.length = 45 then
    if (s.take 9).map Char.toLower = "urn:uuid:".toList then ofHyphenated? (s.drop 9) else none
  else none

def parse? (s : String) : Option Uuid := ofChars? s.toList

end Uuid

end VectorTable
