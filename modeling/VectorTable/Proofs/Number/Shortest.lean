import Mathlib.Tactic.Ring
import VectorTable.Number.Shortest
import VectorTable.Proofs.Number.Rounding

/-!
# VectorTable — the shortest decimal rounds back

Rounding a decimal is rounding its exact value, whatever the power of ten, and so it does not
depend on how the value is written. The search for the shortest decimal only ever returns one
that rounds back.

* `Format.roundDecimal_eq` — rounding of the exact value;
* `Format.roundDecimal_shift` — zeros at the end change nothing;
* `Format.roundDecimal_shortest` — the shortest decimal rounds back.
-/

namespace VectorTable.Format

variable (f : Format)

theorem round_zero (m : Nat) : f.round 0 m = 0 := by
  simp [round, nearest]

/-- A quotient that is longer than infinity rounds to infinity. -/
theorem round_eq_infinity {n : Nat} (h : 2 ^ (f.fractionBits + 2 ^ f.exponentBits) ≤ n) :
    f.round n 1 = f.infinity := by
  have hpos : n ≠ 0 := (Nat.lt_of_lt_of_le (Nat.two_pow_pos _) h).ne'
  have hlog := (Nat.le_log2 hpos).mpr h
  have hshift : 2 ^ f.exponentBits - 1 ≤ n.log2 - f.fractionBits := by omega
  have hbig : f.infinity ≤ (n.log2 - f.fractionBits) * 2 ^ f.fractionBits :=
    Nat.mul_le_mul_right _ hshift
  rw [round, Nat.div_one]
  exact Nat.min_eq_right (hbig.trans (Nat.le_add_right _ _))

/-- A quotient below one half rounds to zero. -/
theorem round_eq_zero {n m : Nat} (h : 2 * n < m) : f.round n m = 0 := by
  have hdiv : n / m = 0 := Nat.div_eq_of_lt (by omega)
  have hmod : n % m = n := Nat.mod_eq_of_lt (by omega)
  simp [round, nearest, hdiv, hmod, h]

/-- Zero is zero on every grid. -/
theorem roundDecimal_zero (e : Int) : f.roundDecimal 0 e = 0 := by
  unfold roundDecimal
  exact if_pos rfl

theorem fractionBits_le_places : f.fractionBits ≤ f.places := Nat.le_add_left _ _

/-- The numbers whose power of ten is not computed round as all others do. -/
theorem roundDecimal_eq (c : Nat) (e : Int) :
    f.roundDecimal c e = f.round (c * 10 ^ e.toNat * 2 ^ f.places) (10 ^ (-e).toNat) := by
  unfold roundDecimal
  split
  · rename_i hc
    rw [hc, Nat.zero_mul, Nat.zero_mul, round_zero]
  rename_i hc
  -- On each side of zero the cut lies where rounding has come to its end anyway.
  cases e with
  | ofNat k =>
    dsimp only
    have hneg : (-(Int.ofNat k)).toNat = 0 := by simp
    have hk : (Int.ofNat k).toNat = k := rfl
    rw [hneg, hk, Nat.pow_zero]
    split
    · rename_i hk
      -- The number is so long that it lies past infinity.
      refine (f.round_eq_infinity ?_).symm
      calc 2 ^ (f.fractionBits + 2 ^ f.exponentBits)
          = 2 ^ (2 ^ f.exponentBits) * 2 ^ f.fractionBits := by rw [Nat.add_comm, Nat.pow_add]
        _ ≤ 10 ^ k * 2 ^ f.places :=
          Nat.mul_le_mul
            ((Nat.pow_le_pow_right (by decide) hk.le).trans (Nat.pow_le_pow_left (by decide) k))
            (Nat.pow_le_pow_right (by decide) f.fractionBits_le_places)
        _ ≤ c * 10 ^ k * 2 ^ f.places := by
          rw [Nat.mul_assoc]
          exact Nat.le_mul_of_pos_left _ (Nat.pos_of_ne_zero hc)
    · rfl
  | negSucc k =>
    dsimp only
    rw [Int.toNat_negSucc, Int.neg_negSucc, Nat.pow_zero, Nat.mul_one, Int.toNat_natCast]
    split
    · rename_i hk
      -- The number is less than half a unit.
      refine (f.round_eq_zero ?_).symm
      have hlt : c * 2 ^ f.places < 2 ^ (c.log2 + 1 + f.places) := by
        rw [Nat.pow_add]
        exact Nat.mul_lt_mul_of_pos_right Nat.lt_log2_self (Nat.two_pow_pos _)
      calc 2 * (c * 2 ^ f.places)
          < 2 * 2 ^ (c.log2 + 1 + f.places) := by omega
        _ = 2 ^ (c.log2 + f.places + 2) := by ring
        _ ≤ 2 ^ (3 * (k + 1)) := Nat.pow_le_pow_right (by decide) hk
        _ = 8 ^ (k + 1) := by rw [Nat.pow_mul]
        _ ≤ 10 ^ (k + 1) := Nat.pow_le_pow_left (by decide) _
    · rfl

/-- Zeros at the end of the coefficient can be made up for by the exponent. -/
theorem roundDecimal_shift (c : Nat) (e : Int) (k : Nat) :
    f.roundDecimal (c * 10 ^ k) (e - k) = f.roundDecimal c e := by
  rw [roundDecimal_eq, roundDecimal_eq]
  refine f.round_congr (Nat.pow_pos (by decide)) (Nat.pow_pos (by decide)) ?_
  have hpowers : 10 ^ k * 10 ^ (e - k).toNat * 10 ^ (-e).toNat
      = 10 ^ e.toNat * 10 ^ (-(e - k)).toNat := by
    rw [← Nat.pow_add, ← Nat.pow_add, ← Nat.pow_add]
    congr 1
    omega
  calc c * 10 ^ k * 10 ^ (e - k).toNat * 2 ^ f.places * 10 ^ (-e).toNat
      = c * (10 ^ k * 10 ^ (e - k).toNat * 10 ^ (-e).toNat) * 2 ^ f.places := by ring
    _ = c * 10 ^ e.toNat * 2 ^ f.places * 10 ^ (-(e - k)).toNat := by rw [hpowers]; ring

/-! ## The shortest decimal -/

/-- A point of the grid is only taken if it rounds back. -/
theorem roundDecimal_of_onGrid {tie : Tie} {ordinal c : Nat} {e : Int}
    (h : f.onGrid tie ordinal e = some c) : f.roundDecimal c e = ordinal := by
  unfold onGrid at h
  dsimp only at h
  split at h
  · -- Both neighbours round back, and either may be the nearer one.
    rename_i hbelow habove
    split at h <;> cases h
    · exact of_decide_eq_true habove
    · exact of_decide_eq_true hbelow
  · rename_i hbelow _
    cases h
    exact of_decide_eq_true hbelow
  · rename_i _ habove
    cases h
    exact of_decide_eq_true habove
  · cases h

/-- On the finest grid the value itself is a point. -/
theorem roundDecimal_finest {ordinal : Nat} (h : ordinal ≤ f.infinity) :
    f.roundDecimal (f.units ordinal * 5 ^ f.places) (-f.places) = ordinal := by
  rw [roundDecimal_eq]
  have hzero : (-(f.places : Int)).toNat = 0 := by omega
  have hplaces : (- -(f.places : Int)).toNat = f.places := by omega
  rw [hzero, hplaces, Nat.pow_zero, Nat.mul_one, Nat.mul_assoc, ← Nat.mul_pow]
  exact f.round_units h (Nat.pow_pos (by decide))

/-- The search ends with a decimal that rounds back, on the finest grid at the latest. -/
theorem roundDecimal_searchGrids {tie : Tie} {ordinal : Nat} (h : ordinal ≤ f.infinity)
    (steps : Nat) (e : Int) :
    f.roundDecimal (f.searchGrids tie ordinal steps e).1 (f.searchGrids tie ordinal steps e).2
      = ordinal := by
  induction steps generalizing e with
  | zero => exact f.roundDecimal_finest h
  | succ steps ih =>
    rw [searchGrids]
    cases hgrid : f.onGrid tie ordinal e with
    | some c => exact f.roundDecimal_of_onGrid hgrid
    | none => exact ih (e - 1)

/-- **The shortest decimal rounds back** to the magnitude it was made from. -/
theorem roundDecimal_shortest (tie : Tie) {ordinal : Nat} (h : ordinal ≤ f.infinity) :
    f.roundDecimal (f.shortest tie ordinal).1 (f.shortest tie ordinal).2 = ordinal := by
  unfold shortest
  split
  · rename_i hzero
    rw [hzero, roundDecimal_zero]
  · exact f.roundDecimal_searchGrids h _ _

/-- Only the shortest decimal of zero has no digits but zeros, and that is a single zero. -/
theorem shortest_eq_zero {tie : Tie} {ordinal : Nat} (h : ordinal ≤ f.infinity)
    (hzero : (f.shortest tie ordinal).1 = 0) : f.shortest tie ordinal = (0, 0) := by
  have hback := f.roundDecimal_shortest tie h
  rw [hzero, roundDecimal_zero] at hback
  rw [shortest, if_pos hback.symm]

/-- The shortest decimal of zero has no exponent. -/
theorem shortest_exponent {tie : Tie} {ordinal : Nat} (h : ordinal ≤ f.infinity)
    (hzero : (f.shortest tie ordinal).1 = 0) : (f.shortest tie ordinal).2 = 0 := by
  rw [f.shortest_eq_zero h hzero]

end VectorTable.Format
