import VectorTable.Number.Format

/-!
# VectorTable — floating-point numbers

The values of a binary format: one `nan`, and signed magnitudes given by their ordinals, so
that zero and infinity come in two signs. Arithmetic is exact on units followed by one
rounding to nearest even, as the standard for binary formats asks.

Two floats may be compared in two ways. Equality of `Binary` (which is decidable) tells apart
the two zeros and finds `nan` equal to itself; `Binary.eq` and `Binary.lt` compare the numbers,
and are false as soon as one side is `nan`.
-/

namespace VectorTable

/-- A value of the format `f`. -/
inductive Binary (f : Format) where
  | nan
  | signed (negative : Bool) (magnitude : Fin (f.infinity + 1))
deriving DecidableEq

/-- A 32-bit float. -/
abbrev Single := Binary .single

/-- A 64-bit float. -/
abbrev Double := Binary .double

namespace Binary

variable {f : Format}

/-- The signed value whose magnitude has the given ordinal, which is at most infinity. -/
def ofOrdinal (negative : Bool) (ordinal : Nat) (h : ordinal ≤ f.infinity) : Binary f :=
  .signed negative ⟨ordinal, Nat.lt_succ_of_le h⟩

/-- The signed value nearest to a quotient of units. -/
def ofQuotient (negative : Bool) (numerator denominator : Nat) : Binary f :=
  ofOrdinal negative (f.round numerator denominator) (f.round_le_infinity _ _)

def zero (negative : Bool) : Binary f := ofOrdinal negative 0 (Nat.zero_le _)

def infinite (negative : Bool) : Binary f := ofOrdinal negative f.infinity (Nat.le_refl _)

/-- Neither `nan` nor infinite. -/
def isFinite : Binary f → Bool
  | .nan => false
  | .signed _ m => m.val < f.infinity

/-! ## Bit patterns -/

/-- The bit pattern: the sign bit above the ordinal. The one `nan` is the quiet one. -/
def toBits : Binary f → Nat
  | .nan => f.infinity + Nat.pow 2 (f.fractionBits - 1)
  | .signed negative m =>
    (if negative then Nat.pow 2 (f.fractionBits + f.exponentBits) else 0) + m.val

/-- The value with a given bit pattern; every pattern above infinity is `nan`. -/
def ofBits (bits : Nat) : Binary f :=
  let ordinal := bits % Nat.pow 2 (f.fractionBits + f.exponentBits)
  if h : ordinal ≤ f.infinity then
    ofOrdinal (bits / Nat.pow 2 (f.fractionBits + f.exponentBits) % 2 = 1) ordinal h
  else .nan

/-! ## Order -/

/-- The place of a number on the line: its ordinal with its sign. Both zeros lie at 0. -/
def key (negative : Bool) (m : Fin (f.infinity + 1)) : Int :=
  if negative then -(m.val : Int) else m.val

/-- Numeric equality. -/
def eq : Binary f → Binary f → Bool
  | .signed s m, .signed t n => key s m = key t n
  | _, _ => false

/-- Numeric strict order. -/
def lt : Binary f → Binary f → Bool
  | .signed s m, .signed t n => key s m < key t n
  | _, _ => false

/-- Numeric order. -/
def le : Binary f → Binary f → Bool
  | .signed s m, .signed t n => key s m ≤ key t n
  | _, _ => false

/-- The greater of two numbers; `nan` gives way to the other operand. -/
def max : Binary f → Binary f → Binary f
  | .nan, y => y
  | x, .nan => x
  | x, y => if lt x y then y else x

/-! ## Arithmetic -/

def neg : Binary f → Binary f
  | .nan => .nan
  | .signed s m => .signed (!s) m

/-- A finite number in units, with its sign. -/
def inUnits (negative : Bool) (m : Fin (f.infinity + 1)) : Int :=
  if negative then -(f.units m.val : Int) else f.units m.val

/-- Sum. A zero sum is negative only if both operands are. -/
def add : Binary f → Binary f → Binary f
  | .signed s m, .signed t n =>
    if m.val = f.infinity then
      if n.val = f.infinity && s != t then .nan else infinite s
    else if n.val = f.infinity then infinite t
    else
      -- A sum of units is a whole number of units, so only its size can call for rounding.
      let sum := inUnits s m + inUnits t n
      if sum = 0 then zero (s && t) else ofQuotient (sum < 0) sum.natAbs 1
  | _, _ => .nan

def sub (x y : Binary f) : Binary f := add x (neg y)

/-- Product. -/
def mul : Binary f → Binary f → Binary f
  | .signed s m, .signed t n =>
    if m.val = f.infinity || n.val = f.infinity then
      if m.val = 0 || n.val = 0 then .nan else infinite (s != t)
    else ofQuotient (s != t) (f.units m.val * f.units n.val) (Nat.pow 2 f.places)
  | _, _ => .nan

/-- Quotient. -/
def div : Binary f → Binary f → Binary f
  | .signed s m, .signed t n =>
    if m.val = f.infinity then
      if n.val = f.infinity then .nan else infinite (s != t)
    else if n.val = f.infinity then zero (s != t)
    else if n.val = 0 then
      if m.val = 0 then .nan else infinite (s != t)
    else ofQuotient (s != t) (f.units m.val * Nat.pow 2 f.places) (f.units n.val)
  | _, _ => .nan

/-- Square root. The root of a number of units lies strictly between two whole numbers or is
one; being far longer than the fraction, it rounds as the half between them does. -/
def sqrt : Binary f → Binary f
  | .nan => .nan
  | .signed s m =>
    if m.val = 0 then .signed s m
    else if s then .nan
    else if m.val = f.infinity then .signed s m
    else
      -- In units the root of `x` is the root of `x * 2 ^ places`.
      let square := f.units m.val * Nat.pow 2 f.places
      let root := square.sqrt
      ofQuotient false (if root * root = square then 2 * root else 2 * root + 1) 2

/-! ## Conversions -/

/-- The nearest value in another format. -/
def convert (g : Format) : Binary f → Binary g
  | .nan => .nan
  | .signed s m =>
    if m.val = f.infinity then infinite s
    else ofQuotient s (f.units m.val * Nat.pow 2 g.places) (Nat.pow 2 f.places)

/-- The nearest value to a whole number. -/
def ofInt (i : Int) : Binary f :=
  ofQuotient (i < 0) (i.natAbs * Nat.pow 2 f.places) 1

instance : Inhabited (Binary f) := ⟨.nan⟩

end Binary

/-- The 64-bit float with the same value. -/
def Binary.widen (x : Single) : Double := x.convert .double

/-- The nearest 32-bit float. -/
def Binary.narrow (x : Double) : Single := x.convert .single

end VectorTable
