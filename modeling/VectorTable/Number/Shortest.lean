import VectorTable.Number.Decimal

/-!
# VectorTable — shortest decimal form

The shortest decimal of a float is the one with the fewest digits that rounds back to it, and
among those the nearest to it. The multiples of a power of ten form a grid. If any point of a
grid rounds back, then so does one of the two neighbours of the value on that grid, so the
search looks at these two, from coarse grids to fine ones, and takes the first that rounds
back. On the finest grid the value itself is a point, so the search always ends.

How a tie between the two neighbours is settled is left to the caller.
-/

namespace VectorTable

/-- Which of two equally near decimals is taken. -/
inductive Tie where
  | up
  | even
deriving DecidableEq

namespace Format

/-- The magnitude with the given ordinal divided by `10 ^ exponent`, as a quotient. -/
def scaled (f : Format) (ordinal : Nat) (exponent : Int) : Nat × Nat :=
  match exponent with
  | .ofNat k => (f.units ordinal, Nat.pow 2 f.places * Nat.pow 10 k)
  | .negSucc k => (f.units ordinal * Nat.pow 10 (k + 1), Nat.pow 2 f.places)

/-- The multiple of `10 ^ exponent` that is nearest to the magnitude among its two neighbours
that round back to it, if one of them does. -/
def onGrid (f : Format) (tie : Tie) (ordinal : Nat) (exponent : Int) : Option Nat :=
  let (numerator, denominator) := f.scaled ordinal exponent
  let below := numerator / denominator
  let twice := 2 * (numerator % denominator)
  let fits (c : Nat) : Bool := f.roundDecimal c exponent = ordinal
  -- Twice the rest against the denominator: above, below or at the middle of the two.
  let upward := denominator < twice ||
    (denominator = twice && (tie = .up || below % 2 = 1))
  match fits below, fits (below + 1) with
  | true, true => some (if upward then below + 1 else below)
  | true, false => some below
  | false, true => some (below + 1)
  | false, false => none

/-- The search through the grids, `steps` of them before the finest. -/
def searchGrids (f : Format) (tie : Tie) (ordinal : Nat) : Nat → Int → Nat × Int
  | 0, _ => (f.units ordinal * Nat.pow 5 f.places, -f.places)
  | steps + 1, exponent =>
    match f.onGrid tie ordinal exponent with
    | some c => (c, exponent)
    | none => searchGrids f tie ordinal steps (exponent - 1)

/-- A power of ten above the magnitude: its logarithm, from the number of binary places. -/
def topExponent (f : Format) (ordinal : Nat) : Int :=
  -- The logarithm of two to the base ten is close to 0.30103; the 2 makes up for rounding down.
  let bits : Int := (f.units ordinal).log2 + 1 - f.places
  bits * 30103 / 100000 + 2

/-- The shortest decimal of a finite magnitude, as a coefficient and a power of ten. -/
def shortest (f : Format) (tie : Tie) (ordinal : Nat) : Nat × Int :=
  if ordinal = 0 then (0, 0)
  else
    let top := f.topExponent ordinal
    f.searchGrids tie ordinal (top + f.places).toNat top

end Format

namespace Decimal

/-- The digits of the coefficient. -/
def digits (d : Decimal) : List Char := Nat.toDigits 10 d.coefficient

def signChars (d : Decimal) : List Char := if d.negative then ['-'] else []

/-- Positional notation of the magnitude: no exponent, and a point only before digits. -/
def positional (d : Decimal) : List Char :=
  match d.exponent with
  | .ofNat k => d.digits ++ List.replicate k '0'
  | .negSucc k =>
    let digits := d.digits
    if k + 1 < digits.length then
      digits.take (digits.length - (k + 1)) ++ '.' :: digits.drop (digits.length - (k + 1))
    else
      '0' :: '.' :: (List.replicate (k + 1 - digits.length) '0' ++ digits)

/-- Positional notation with the sign. -/
def plain (d : Decimal) : List Char := d.signChars ++ d.positional

/-- Scientific notation of the magnitude: one digit before the point, the others, if any, after
it, and an exponent that always has its sign. -/
def scientific (d : Decimal) : List Char :=
  let digits := d.digits
  let exponent := digits.length + d.exponent - 1
  digits.take 1 ++ (if digits.length = 1 then [] else '.' :: digits.drop 1) ++
    'e' :: (if exponent < 0 then '-' else '+') :: Nat.toDigits 10 exponent.natAbs

end Decimal

namespace Binary

variable {f : Format}

/-- A float as plain text: the shortest decimal in positional notation, or `NaN`, `inf`,
`-inf`. A tie between two shortest decimals goes up. -/
def display : Binary f → String
  | .nan => "NaN"
  | .signed s m =>
    if m.val = f.infinity then (if s then "-inf" else "inf")
    else
      let (c, e) := f.shortest .up m.val
      String.ofList (Decimal.plain ⟨s, c, e⟩)

end Binary

end VectorTable
