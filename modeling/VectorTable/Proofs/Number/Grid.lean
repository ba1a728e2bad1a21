import VectorTable.Proofs.Number.DoubleRounding

/-!
# VectorTable — how far the shortest decimal lies from its float

The shortest decimal is a point on a grid, one of the two neighbours of the float there. If both
round back, it is the nearer one. If only one does, then the other one lies at a midpoint or beyond,
so that the grid is coarse, and the decimal is not farther from the float than that leaves room for.
Either way a decimal next to a midpoint comes from a coarse grid.

* `Format.distance_of_onGrid` — the distance on a single grid;
* `spacing_lt_of_near` — the grid of a shortest decimal next to a midpoint.
-/

namespace VectorTable

namespace Format

variable (f : Format)

theorem scaled_pos (o : Nat) (e : Int) : 0 < (f.scaled o e).2 := by
  unfold scaled
  cases e with
  | ofNat k => exact Nat.mul_pos (Nat.two_pow_pos _) (Nat.pow_pos (by decide))
  | negSucc k => exact Nat.two_pow_pos _

/-- A magnitude, from its place on a grid. -/
theorem value_eq_scaled (o : Nat) (e : Int) :
    f.value o = (f.scaled o e).1 / (f.scaled o e).2 * 10 ^ e := by
  unfold scaled value
  cases e with
  | ofNat k =>
    rw [Int.ofNat_eq_natCast, zpow_natCast]
    simp only [Nat.pow_eq]
    push_cast
    field_simp
  | negSucc k =>
    rw [zpow_negSucc]
    simp only [Nat.pow_eq]
    push_cast
    field_simp

/-- A magnitude between its neighbours on a grid. -/
theorem exists_value_eq (o : Nat) (e : Int) :
    ∃ ρ : ℚ, f.value o = ((f.scaled o e).1 / (f.scaled o e).2 : ℕ) * 10 ^ e + ρ * 10 ^ e ∧
      0 ≤ ρ ∧ ρ < 1 ∧
      (2 * ((f.scaled o e).1 % (f.scaled o e).2) ≤ (f.scaled o e).2 → 2 * ρ ≤ 1) ∧
      ((f.scaled o e).2 ≤ 2 * ((f.scaled o e).1 % (f.scaled o e).2) → 1 ≤ 2 * ρ) := by
  have hpos := f.scaled_pos o e
  have hvalue := f.value_eq_scaled o e
  generalize (f.scaled o e).1 = n at hvalue ⊢
  generalize (f.scaled o e).2 = d at hpos hvalue ⊢
  have hd : (0 : ℚ) < d := Nat.cast_pos.mpr hpos
  have hsplit : (n : ℚ) = d * (n / d : ℕ) + (n % d : ℕ) := by
    exact_mod_cast (Nat.div_add_mod n d).symm
  -- The remainder by the divisor is the part of the grid that is left over.
  refine ⟨(n % d : ℕ) / d, ?_, by positivity, ?_, ?_, ?_⟩
  · rw [hvalue, ← add_mul]
    congr 1
    rw [div_eq_iff hd.ne', add_mul, div_mul_cancel₀ _ hd.ne', mul_comm _ (d : ℚ)]
    exact hsplit
  · rw [div_lt_one hd]
    exact_mod_cast Nat.mod_lt n hpos
  · intro h
    rw [← mul_div_assoc, div_le_one hd]
    exact_mod_cast h
  · intro h
    rw [← mul_div_assoc, one_le_div hd]
    exact_mod_cast h

/-- **The distance on a grid.** The point that is taken is no farther than half the grid, or its
neighbour beyond the magnitude does not round back. -/
theorem distance_of_onGrid (hbits : 0 < f.fractionBits) {tie : Tie} {o c : Nat} {e : Int}
    (ho : o < f.infinity) (h : f.onGrid tie o e = some c) :
    |c * 10 ^ e - f.value o| ≤ 10 ^ e / 2 ∨
      c * 10 ^ e ≤ f.value o ∧ f.middle o ≤ c * 10 ^ e + 10 ^ e ∨
      f.value o ≤ c * 10 ^ e ∧ ∃ p, o = p + 1 ∧ c * 10 ^ e - 10 ^ e ≤ f.middle p := by
  have hgrid : (0 : ℚ) < 10 ^ e := zpow_pos (by norm_num) e
  obtain ⟨ρ, hvalue, hρ, hρlt, hlow, hhigh⟩ := f.exists_value_eq o e
  unfold onGrid at h
  dsimp only at h
  generalize hb : (f.scaled o e).1 / (f.scaled o e).2 = b at h hvalue
  have hnonneg : 0 ≤ ρ * 10 ^ e := mul_nonneg hρ hgrid.le
  have hshort : ρ * 10 ^ e ≤ 10 ^ e := by
    rw [mul_comm]
    exact mul_le_of_le_one_right hgrid.le hρlt.le
  split at h
  · -- Both neighbours round back.
    left
    split at h
    · rename_i hup
      obtain rfl := Option.some.inj h
      have hhalf : 1 ≤ 2 * ρ := hhigh (by
        simp only [Bool.or_eq_true, decide_eq_true_eq, Bool.and_eq_true] at hup
        omega)
      have hmul := mul_le_mul_of_nonneg_right hhalf hgrid.le
      rw [hvalue, abs_le]
      push_cast
      constructor <;> linarith
    · rename_i hdown
      obtain rfl := Option.some.inj h
      have hhalf : 2 * ρ ≤ 1 := hlow (by
        simp only [Bool.or_eq_true, decide_eq_true_eq, Bool.and_eq_true, not_or] at hdown
        omega)
      have hmul := mul_le_mul_of_nonneg_right hhalf hgrid.le
      rw [hvalue, abs_le]
      constructor <;> linarith
  · -- The neighbour above does not, so it lies beyond the midpoint.
    rename_i habove
    obtain rfl := Option.some.inj h
    refine .inr (.inl ⟨by linarith, ?_⟩)
    have hle : f.value o ≤ (b + 1 : ℕ) * 10 ^ e := by
      push_cast
      linarith
    -- It is rounded to no less than the magnitude, and not to it, hence to more.
    have hround := f.le_roundDecimal_of_value_le hbits ho.le hle
    have hne : f.roundDecimal (b + 1) e ≠ o := of_decide_eq_false habove
    have hnot := mt (f.roundDecimal_le_iff hbits ho (b + 1) e).mpr (by omega)
    rw [Reaches, not_or, not_lt] at hnot
    have hmiddle := hnot.1
    push_cast at hmiddle
    linarith
  · -- The neighbour below does not.
    rename_i hbelow _
    obtain rfl := Option.some.inj h
    refine .inr (.inr ⟨by push_cast; linarith, ?_⟩)
    have hle : b * 10 ^ e ≤ f.value o := by linarith
    -- It is rounded to less than the magnitude.
    have hround := f.roundDecimal_le_of_le_value hbits ho hle
    have hne : f.roundDecimal b e ≠ o := of_decide_eq_false hbelow
    obtain ⟨p, rfl⟩ : ∃ p, o = p + 1 := ⟨o - 1, by omega⟩
    refine ⟨p, rfl, ?_⟩
    rcases (f.roundDecimal_le_iff hbits (by omega) b e).mp (by omega : _ ≤ p) with hlt | ⟨heq, -⟩
    · push_cast
      linarith
    · push_cast
      linarith
  · cases h

/-- The search ends on a grid, or with the value itself. -/
theorem onGrid_or_finest (tie : Tie) (o steps : Nat) (e : Int) :
    (∃ e', f.onGrid tie o e' = some (f.searchGrids tie o steps e).1 ∧
      (f.searchGrids tie o steps e).2 = e') ∨
      ((f.searchGrids tie o steps e).1 : ℚ) * 10 ^ (f.searchGrids tie o steps e).2 =
        f.value o := by
  induction steps generalizing e with
  | zero =>
    right
    unfold searchGrids value
    rw [zpow_neg, zpow_natCast, Nat.pow_eq]
    push_cast
    -- On the finest grid every magnitude is a decimal, as two divides ten.
    have hten : (10 : ℚ) ^ f.places = 2 ^ f.places * 5 ^ f.places := by
      rw [← mul_pow]
      norm_num
    rw [hten]
    field_simp
  | succ steps ih =>
    rw [searchGrids]
    cases hgrid : f.onGrid tie o e with
    | some c => exact .inl ⟨e, hgrid, rfl⟩
    | none => exact ih (e - 1)

/-- The neighbours of an odd magnitude are equally far from it. -/
theorem value_sub_of_odd (hbits : 0 < f.fractionBits) {p : Nat} (hp : Even p) :
    f.value (p + 1 + 1) - f.value (p + 1) = f.value (p + 1) - f.value p := by
  obtain ⟨shift, q, hq, rfl⟩ := f.exists_significand p
  have heven : Even q := by
    rwa [Nat.even_add, iff_true_left ((Nat.even_pow.mpr ⟨even_two, hbits.ne'⟩).mul_left shift)]
      at hp
  -- An even significand is not the last one at its spacing.
  have hnext : f.Significand shift (q + 1) := by
    refine ⟨?_, hq.full.imp_right (by omega)⟩
    obtain ⟨r, rfl⟩ := heven
    have hlt := hq.lt
    rw [Nat.pow_succ] at hlt ⊢
    omega
  rw [hq.value_succ, hq.value, Nat.add_assoc (shift * _) q 1, hnext.value_succ]
  push_cast
  ring

/-- The midpoints around an odd magnitude lie half a spacing from it. If the magnitude is that of
the significand or the next one, then the midpoint behind the significand is one of them. -/
theorem middles_of_odd (hbits : 0 < f.fractionBits) {p shift q : Nat} (hp : Even p)
    (hq : f.Significand shift q) (hplace : p + 1 = shift * 2 ^ f.fractionBits + q ∨
      p + 1 = shift * 2 ^ f.fractionBits + q + 1) :
    f.middle p = f.value (p + 1) - f.spacing shift / 2 ∧
      f.middle (p + 1) = f.value (p + 1) + f.spacing shift / 2 ∧
      ((2 * q + 1) * f.spacing shift / 2 = f.middle (p + 1) ∨
        (2 * q + 1) * f.spacing shift / 2 = f.middle p) := by
  have hequal := f.value_sub_of_odd hbits hp
  have hvalue := hq.value
  have hnext := hq.value_succ
  have hmiddle := hq.middle
  -- hplace | The odd magnitude is that of the significand, or the next one.
  rcases hplace with hplace | hplace
  · rw [← hplace] at hvalue hnext hmiddle
    refine ⟨?_, ?_, .inl hmiddle.symm⟩
    · unfold middle
      linarith
    · unfold middle
      linarith
  · obtain rfl : p = shift * 2 ^ f.fractionBits + q := by omega
    refine ⟨?_, ?_, .inr hmiddle.symm⟩
    · unfold middle
      linarith
    · unfold middle
      linarith

end Format

open Format

/-- **The grid next to a midpoint.** If the shortest decimal of an odd magnitude lies next to a
midpoint, then its grid is almost as wide as the spacing of the magnitudes. -/
theorem spacing_lt_of_near {tie : Tie} {o shift q : Nat} (ho : o < single.infinity)
    (hodd : ¬ Even o) (hq : single.Significand shift q)
    (hplace : o = shift * 2 ^ single.fractionBits + q ∨ o = shift * 2 ^ single.fractionBits + q + 1)
    (hnear : Near shift q ((single.shortest tie o).1 * 10 ^ (single.shortest tie o).2)) :
    15 / 16 * single.spacing shift < 10 ^ (single.shortest tie o).2 := by
  have hbits : 0 < single.fractionBits := by decide
  obtain ⟨p, rfl⟩ : ∃ p, o = p + 1 := Nat.exists_eq_succ_of_ne_zero (by rintro rfl; simp at hodd)
  have hp : Even p := by
    rw [Nat.even_add_one, not_not] at hodd
    exact hodd
  obtain ⟨hbelow, habove, hmiddle⟩ := single.middles_of_odd hbits hp hq hplace
  rw [hbelow, habove] at hmiddle
  have hpos := single.spacing_pos shift
  have hclose := abs_le.mp hnear.close
  rw [Format.shortest, if_neg (Nat.succ_ne_zero p)] at hclose ⊢
  dsimp only at hclose ⊢
  generalize single.topExponent (p + 1) = top at hclose ⊢
  generalize (top + single.places).toNat = steps at hclose ⊢
  rcases single.onGrid_or_finest tie (p + 1) steps top with ⟨e, hgrid, he⟩ | hfinest
  · rw [he] at hclose ⊢
    -- The decimal lies almost half a spacing from the magnitude, so the grid must be this wide.
    rcases single.distance_of_onGrid hbits ho hgrid with hhalf | ⟨hle, hfar⟩ | ⟨hle, r, hr, hfar⟩
    · have hhalf := abs_le.mp hhalf
      rcases hmiddle with hmiddle | hmiddle <;> rw [hmiddle] at hclose <;> linarith
    · rcases hmiddle with hmiddle | hmiddle <;> rw [hmiddle] at hclose <;> linarith
    · obtain rfl : p = r := by omega
      rcases hmiddle with hmiddle | hmiddle <;> rw [hmiddle] at hclose <;> linarith
  · -- The magnitude itself is not next to a midpoint.
    rw [hfinest] at hclose
    rcases hmiddle with hmiddle | hmiddle <;> rw [hmiddle] at hclose <;> linarith

end VectorTable
