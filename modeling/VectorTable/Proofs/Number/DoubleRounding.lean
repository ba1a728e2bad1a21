import VectorTable.Proofs.Number.Midpoint

/-!
# VectorTable — rounding twice

A decimal that is rounded to 64 bits and then to 32 bits should come out as if it had been rounded
to 32 bits at once. It does unless the first rounding moves it onto a midpoint between two 32-bit
magnitudes, from where the second one goes to the even of the two. So it must lie next to a
midpoint, half a 64-bit spacing away at most.

* `Near` — a number lies that near to a midpoint, but not at it;
* `near_of_round_ne` — where rounding twice is not rounding once.
-/

namespace VectorTable

open Format

/-- The number lies so near to the midpoint behind a significand that it may be rounded onto it. -/
structure Near (shift q : Nat) (x : ℚ) : Prop where
  ne : x ≠ (2 * q + 1) * single.spacing shift / 2
  close : |x - (2 * q + 1) * single.spacing shift / 2| ≤ single.spacing shift / 2 ^ 30

/-- At this shift, 64 bits are spaced `2 ^ 29` times as densely. -/
theorem spacing_double (shift : Nat) :
    double.spacing (shift + 896) = single.spacing shift / 2 ^ 29 := by
  have hsingle : single.places = 149 := rfl
  have hdouble : double.places = 178 + 896 := rfl
  unfold spacing
  rw [hsingle, hdouble, pow_add, pow_add, mul_div_mul_right _ _ (by positivity), div_div, ← pow_add]

/-- The midpoint behind a significand is a 64-bit magnitude, and so are the numbers at the distance
of one spacing from it. -/
theorem exists_value_around {shift q : Nat} (h : single.Significand shift q) :
    ∃ i j k, double.value j = (2 * q + 1) * single.spacing shift / 2 ∧
      double.value i = double.value j - single.spacing shift / 2 ^ 29 ∧
      double.value k = double.value j + single.spacing shift / 2 ^ 29 := by
  have hq : q < 2 ^ 24 := h.lt
  have hbits : double.fractionBits = 52 := rfl
  -- On the finer grid the midpoint is a magnitude, and so are its two neighbours.
  obtain ⟨i, hi⟩ := double.exists_value (q := (2 * q + 1) * 2 ^ 28 - 1) (shift + 896)
    (by rw [hbits]; omega)
  obtain ⟨j, hj⟩ := double.exists_value (q := (2 * q + 1) * 2 ^ 28) (shift + 896)
    (by rw [hbits]; omega)
  obtain ⟨k, hk⟩ := double.exists_value (q := (2 * q + 1) * 2 ^ 28 + 1) (shift + 896)
    (by rw [hbits]; omega)
  rw [spacing_double] at hi hj hk
  refine ⟨i, j, k, ?_, ?_, ?_⟩
  · rw [hj]
    push_cast
    ring
  · rw [hi, hj, Nat.cast_sub (by omega)]
    push_cast
    ring
  · rw [hk, hj]
    push_cast
    ring

/-- A 64-bit magnitude below a 32-bit one is finite. -/
theorem lt_infinity_of_value_lt {j o : Nat} (ho : o ≤ single.infinity)
    (h : double.value j < single.value o) : j < double.infinity := by
  rw [← double.value_lt_iff, double.value_infinity (by decide)]
  calc double.value j < single.value o := h
    _ ≤ single.value single.infinity := single.value_le_iff.mpr ho
    _ = 2 ^ 2 ^ 7 := single.value_infinity (by decide)
    _ ≤ 2 ^ 2 ^ 10 := pow_le_pow_right₀ (by norm_num) (by norm_num)

/-- The midpoint behind a finite 32-bit magnitude is a finite 64-bit one. -/
theorem exists_value_eq_middle {o : Nat} (ho : o < single.infinity) :
    ∃ j < double.infinity, double.value j = single.middle o := by
  obtain ⟨shift, q, hq, hordinal⟩ := single.exists_significand o
  obtain ⟨-, j, -, hj, -, -⟩ := exists_value_around hq
  have hmiddle : double.value j = single.middle o := by rw [hj, hordinal, hq.middle]
  refine ⟨j, lt_infinity_of_value_lt (o := o + 1) ho ?_, hmiddle⟩
  rw [hmiddle]
  exact single.middle_lt_value o

section

variable {c : Nat} {e : Int} {shift q : Nat}

/-- A decimal that is rounded onto a midpoint lies close to it. -/
theorem close_of_roundDecimal (hq : single.Significand shift q) {j : Nat}
    (hj : double.value j = (2 * q + 1) * single.spacing shift / 2) (hfinite : j < double.infinity)
    (h : double.roundDecimal c e = j) :
    |c * 10 ^ e - (2 * q + 1) * single.spacing shift / 2| ≤ single.spacing shift / 2 ^ 30 := by
  obtain ⟨i, j', k, hj', hi, hk⟩ := exists_value_around hq
  have hsame : double.value j' = double.value j := hj'.trans hj.symm
  have hpos := single.spacing_pos shift
  rw [hsame] at hi hk
  have hij : i < j := by
    rw [← double.value_lt_iff, hi]
    linarith [div_pos hpos (by norm_num : (0 : ℚ) < 2 ^ 29)]
  have hjk : j < k := by
    rw [← double.value_lt_iff, hk]
    linarith [div_pos hpos (by norm_num : (0 : ℚ) < 2 ^ 29)]
  obtain ⟨p, rfl⟩ : ∃ p, j = p + 1 := ⟨j - 1, by omega⟩
  -- The 64-bit neighbours of the midpoint are at least as near as these two.
  have hbelow : double.value i ≤ double.value p := double.value_le_iff.mpr (by omega)
  have habove : double.value (p + 1 + 1) ≤ double.value k := double.value_le_iff.mpr hjk
  have hlower := double.middle_le_of_roundDecimal (by decide) (by omega) h
  have hupper := double.le_middle_of_roundDecimal (by decide) hfinite h
  unfold middle at hlower hupper
  rw [abs_le, ← hj]
  constructor <;> linarith

/-- A decimal that is rounded to a finite 32-bit magnitude is finite in 64 bits. -/
theorem roundDecimal_double_lt_infinity {o : Nat} (ho : o < single.infinity)
    (h : single.roundDecimal c e = o) : double.roundDecimal c e < double.infinity := by
  obtain ⟨j, hfinite, hmiddle⟩ := exists_value_eq_middle ho
  have hle := single.le_middle_of_roundDecimal (by decide) ho h
  rw [← hmiddle] at hle
  exact (double.roundDecimal_le_of_le_value (by decide) hfinite hle).trans_lt hfinite

/-- If the second rounding goes down, it starts at the midpoint before the magnitude. -/
theorem near_of_round_le {o : Nat} (ho : o + 1 < single.infinity)
    (hone : single.roundDecimal c e = o + 1)
    (htwo : single.round (double.units (double.roundDecimal c e) * 2 ^ single.places)
      (2 ^ double.places) ≤ o) :
    Even o ∧ ∃ shift q, single.Significand shift q ∧
      o = shift * 2 ^ single.fractionBits + q ∧ Near shift q (c * 10 ^ e) := by
  have hbits : 0 < single.fractionBits := by decide
  have hlast : o < single.infinity := by omega
  obtain ⟨shift, q, hq, hordinal⟩ := single.exists_significand o
  obtain ⟨j, hfinite, hmiddle⟩ := exists_value_eq_middle hlast
  have hj := hmiddle.trans (hordinal ▸ hq.middle)
  have hreaches := (single.round_units_le_iff double hbits hlast _).mp htwo
  have hnot : ¬ single.Reaches o (c * 10 ^ e) := by
    rw [← single.roundDecimal_le_iff hbits hlast]
    omega
  -- The decimal is not below the midpoint, so its double is not either.
  have hle : double.value j ≤ c * 10 ^ e := by
    by_contra hlt
    rw [not_le, hmiddle] at hlt
    exact hnot (.inl hlt)
  have hjle := double.le_roundDecimal_of_value_le (by decide) hfinite.le hle
  have hvalue : double.value j ≤ double.value (double.roundDecimal c e) :=
    double.value_le_iff.mpr hjle
  rw [Reaches, ← hmiddle] at hreaches
  obtain ⟨heq, heven⟩ := hreaches.resolve_left (not_lt.mpr hvalue)
  have hround : double.roundDecimal c e = j :=
    Nat.le_antisymm (double.value_le_iff.mp heq.le) hjle
  refine ⟨heven, shift, q, hq, hordinal, ?_, close_of_roundDecimal hq hj hfinite hround⟩
  intro hx
  refine hnot (.inr ⟨?_, heven⟩)
  rw [hx, hordinal, hq.middle]

/-- If the second rounding goes up, it starts at the midpoint behind the magnitude. -/
theorem near_of_lt_round {o : Nat} (ho : o < single.infinity)
    (hone : single.roundDecimal c e = o)
    (htwo : o < single.round (double.units (double.roundDecimal c e) * 2 ^ single.places)
      (2 ^ double.places)) :
    ¬ Even o ∧ ∃ shift q, single.Significand shift q ∧
      o = shift * 2 ^ single.fractionBits + q ∧ Near shift q (c * 10 ^ e) := by
  have hbits : 0 < single.fractionBits := by decide
  obtain ⟨shift, q, hq, hordinal⟩ := single.exists_significand o
  obtain ⟨j, hfinite, hmiddle⟩ := exists_value_eq_middle ho
  have hj := hmiddle.trans (hordinal ▸ hq.middle)
  have hnot := mt (single.round_units_le_iff double hbits ho _).mpr (Nat.not_le.mpr htwo)
  have hreaches := (single.roundDecimal_le_iff hbits ho c e).mp hone.le
  -- The decimal is not above the midpoint, so its double is not either.
  have hle : c * 10 ^ e ≤ double.value j := by
    rw [hmiddle]
    exact single.le_middle_of_roundDecimal hbits ho hone
  have hlej := double.roundDecimal_le_of_le_value (by decide) hfinite hle
  have hvalue : double.value (double.roundDecimal c e) ≤ double.value j :=
    double.value_le_iff.mpr hlej
  rw [Reaches, ← hmiddle, not_or] at hnot
  have heq := le_antisymm hvalue (not_lt.mp hnot.1)
  have hround : double.roundDecimal c e = j :=
    Nat.le_antisymm hlej (double.value_le_iff.mp heq.ge)
  have hodd : ¬ Even o := fun heven => hnot.2 ⟨heq, heven⟩
  refine ⟨hodd, shift, q, hq, hordinal, ?_, close_of_roundDecimal hq hj hfinite hround⟩
  intro hx
  rcases hreaches with hlt | ⟨-, heven⟩
  · rw [← hmiddle, hj, hx] at hlt
    exact lt_irrefl _ hlt
  · exact hodd heven

/-- **Rounding twice.** If a decimal is not rounded to the same 32-bit magnitude by way of 64 bits,
then the magnitude is odd, and the decimal lies next to the midpoint before or behind it. -/
theorem near_of_round_ne {o : Nat} (ho : o < single.infinity)
    (hone : single.roundDecimal c e = o)
    (htwo : single.round (double.units (double.roundDecimal c e) * 2 ^ single.places)
      (2 ^ double.places) ≠ o) :
    ¬ Even o ∧ ∃ shift q, single.Significand shift q ∧
      (o = shift * 2 ^ single.fractionBits + q ∨ o = shift * 2 ^ single.fractionBits + q + 1) ∧
      Near shift q (c * 10 ^ e) := by
  -- The second rounding may miss to either side.
  rcases Nat.lt_or_gt_of_ne htwo with hdown | hup
  · obtain ⟨p, rfl⟩ : ∃ p, o = p + 1 := ⟨o - 1, by omega⟩
    obtain ⟨heven, shift, q, hq, rfl, hnear⟩ := near_of_round_le ho hone (Nat.le_of_lt_succ hdown)
    refine ⟨?_, shift, q, hq, .inr rfl, hnear⟩
    rwa [Nat.even_add_one, not_not]
  · obtain ⟨hodd, shift, q, hq, hordinal, hnear⟩ := near_of_lt_round ho hone hup
    exact ⟨hodd, shift, q, hq, .inl hordinal, hnear⟩

end

end VectorTable
