/-!
# VectorTable — binary floating-point formats

A format is given by its number of fraction bits and exponent bits. The magnitudes of a
format are numbered in increasing order from zero, subnormal values first, up to infinity:
this number is the **ordinal** of the magnitude, and it is also the bit pattern of the value
without its sign. Every finite magnitude is a whole number of **units**, the least positive
value of the format, so all rounding here is exact arithmetic on natural numbers.

* `Format.units` — what an ordinal stands for;
* `Format.round` — the ordinal nearest to a quotient, a tie going to the even ordinal.
-/

namespace VectorTable

/-- A binary interchange format. -/
structure Format where
  fractionBits : Nat
  exponentBits : Nat
deriving DecidableEq

namespace Format

/-- The 32-bit format. -/
def single : Format := ⟨23, 8⟩

/-- The 64-bit format. -/
def double : Format := ⟨52, 11⟩

/-- The unit of the format is `2 ^ -places`. -/
def places (f : Format) : Nat :=
  Nat.pow 2 (f.exponentBits - 1) - 2 + f.fractionBits

/-- The ordinal of infinity, the largest one. -/
def infinity (f : Format) : Nat :=
  (Nat.pow 2 f.exponentBits - 1) * Nat.pow 2 f.fractionBits

/-- The magnitude with a given ordinal, counted in units. Ordinals below `2 ^ fractionBits` are
subnormal and count the units directly; above them each further block of `2 ^ fractionBits`
ordinals has twice the spacing of the one before. -/
def units (f : Format) (ordinal : Nat) : Nat :=
  let block := ordinal / Nat.pow 2 f.fractionBits
  let offset := ordinal % Nat.pow 2 f.fractionBits
  -- Subnormal ordinals have no leading bit, and block 1 has the same spacing as block 0.
  if block = 0 then offset else (Nat.pow 2 f.fractionBits + offset) * Nat.pow 2 (block - 1)

/-- The whole number nearest to a quotient, a half going to the even neighbour. -/
def nearest (numerator denominator : Nat) : Nat :=
  let quotient := numerator / denominator
  let rest := numerator % denominator
  if 2 * rest < denominator then quotient
  else if denominator < 2 * rest then quotient + 1
  else quotient + quotient % 2

/-- The ordinal of the magnitude nearest to a quotient of units. The spacing of the magnitudes
around the quotient is `2 ^ shift` units; rounding up into the next block needs no special
case, since the ordinals run on. Past the largest finite magnitude the answer is infinity. -/
def round (f : Format) (numerator denominator : Nat) : Nat :=
  -- The quotient has `log2 + 1` bits, of which the format keeps `fractionBits + 1`; the leading
  -- one among them carries into the block number.
  let shift := (numerator / denominator).log2 - f.fractionBits
  min (shift * Nat.pow 2 f.fractionBits + nearest numerator (denominator * Nat.pow 2 shift))
    f.infinity

theorem round_le_infinity (f : Format) (numerator denominator : Nat) :
    f.round numerator denominator ≤ f.infinity :=
  Nat.min_le_right _ _

/-- The ordinal nearest to `coefficient * 10 ^ exponent`. Exponents that lie outside the range
of the format by far are settled without computing the power of ten. -/
def roundDecimal (f : Format) (coefficient : Nat) (exponent : Int) : Nat :=
  if coefficient = 0 then 0
  else match exponent with
  | .ofNat k =>
    -- Infinity is `2 ^ 2 ^ (exponentBits - 1)`, and ten to such a power lies above it.
    if Nat.pow 2 f.exponentBits < k then f.infinity
    else f.round (coefficient * Nat.pow 10 k * Nat.pow 2 f.places) 1
  | .negSucc k =>
    -- Ten is more than eight, so the number is less than half a unit.
    if coefficient.log2 + f.places + 2 ≤ 3 * (k + 1) then 0
    else f.round (coefficient * Nat.pow 2 f.places) (Nat.pow 10 (k + 1))

theorem roundDecimal_le_infinity (f : Format) (coefficient : Nat) (exponent : Int) :
    f.roundDecimal coefficient exponent ≤ f.infinity := by
  unfold roundDecimal
  split
  · exact Nat.zero_le _
  · split
    · split
      · exact Nat.le_refl _
      · exact f.round_le_infinity _ _
    · split
      · exact Nat.zero_le _
      · exact f.round_le_infinity _ _

end Format

end VectorTable
