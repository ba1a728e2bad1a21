import Mathlib.Data.Nat.Cast.Field
import VectorTable.Proofs.Number.Grid
import VectorTable.Proofs.Number.Residue

/-!
# VectorTable — decimals next to midpoints

On a grid that is almost as wide as the spacing of the 32-bit magnitudes there are few points, and
the question whether one of them lies next to a midpoint is one about multiples: the grid and the
midpoints are multiples of a common unit. For each spacing the search for such multiples answers it,
and only once does it find a decimal, 7.038531e-26.

* `gridRatio` — the grid in terms of the spacing, as a fraction in lowest terms;
* `Window` — a multiple next to an odd multiple;
* `eq_stray_of_near` — the one decimal on a wide grid that lies next to a midpoint;
* `round_shortest_iff` — shortest decimals that can be rounded twice.
-/

namespace VectorTable

open Format

/-! ## The grid in terms of the spacing -/

/-- The least exponent of a grid that is almost as wide as the spacing. -/
def leastExponent (shift : Nat) : Int :=
  -- The logarithms of 2 and of 16/15 to the base ten.
  (((shift : Int) - 149) * 30103 - 2803) / 100000 + 1

/-- The width of this grid divided by half of the spacing, in lowest terms. -/
def gridRatio (shift : Nat) : Nat × Nat :=
  let e := leastExponent shift
  let n := 10 ^ e.toNat * 2 ^ 150
  let d := 10 ^ (-e).toNat * 2 ^ shift
  (n / n.gcd d, d / n.gcd d)

theorem gridRatio_pos (shift : Nat) : 0 < (gridRatio shift).1 ∧ 0 < (gridRatio shift).2 := by
  unfold gridRatio
  dsimp only
  generalize hn : 10 ^ (leastExponent shift).toNat * 2 ^ 150 = n
  generalize hd : 10 ^ (-leastExponent shift).toNat * 2 ^ shift = d
  have hnpos : 0 < n := hn ▸ Nat.mul_pos (Nat.pow_pos (by decide)) (Nat.two_pow_pos _)
  have hdpos : 0 < d := hd ▸ Nat.mul_pos (Nat.pow_pos (by decide)) (Nat.two_pow_pos _)
  exact ⟨Nat.div_gcd_pos_of_pos_left d hnpos, Nat.div_gcd_pos_of_pos_right n hdpos⟩

/-- The ratio of a grid relates its power of ten to the spacing of the magnitudes. -/
theorem gridRatio_mul_spacing (shift : Nat) :
    (gridRatio shift).1 * single.spacing shift =
      2 * 10 ^ leastExponent shift * (gridRatio shift).2 := by
  unfold gridRatio
  dsimp only
  generalize leastExponent shift = e
  generalize hn : 10 ^ e.toNat * 2 ^ 150 = n
  generalize hd : 10 ^ (-e).toNat * 2 ^ shift = d
  have hdpos : 0 < d := hd ▸ Nat.mul_pos (Nat.pow_pos (by decide)) (Nat.two_pow_pos _)
  have hgcd : (0 : ℚ) < n.gcd d := Nat.cast_pos.mpr (Nat.gcd_pos_of_pos_right n hdpos)
  -- The ratio holds before it is put in lowest terms.
  have hratio : (n : ℚ) * single.spacing shift = 2 * 10 ^ e * d := by
    have hplaces : single.places = 149 := rfl
    have hpower : (10 : ℚ) ^ e.toNat = 10 ^ e * 10 ^ (-e).toNat := by
      rw [← zpow_natCast, ← zpow_natCast, ← zpow_add₀ (by norm_num)]
      congr 1
      omega
    unfold spacing
    rw [← hn, ← hd, hplaces]
    push_cast
    rw [hpower]
    ring
  rw [Nat.cast_div (Nat.gcd_dvd_left n d) hgcd.ne', Nat.cast_div (Nat.gcd_dvd_right n d) hgcd.ne',
    div_mul_eq_mul_div, hratio, mul_div_assoc]

/-! ## Windows -/

/-- The multiple of `a` by `c` is no farther than `w` from the odd multiple of `b` by `2 * q + 1`.
-/
structure Window (a b w c q : Nat) : Prop where
  lower : (2 * q + 1) * b ≤ a * c + w
  upper : a * c ≤ (2 * q + 1) * b + w

/-- A point of the grid next to a midpoint, in terms of multiples. -/
theorem window_of_near {shift q c : Nat} (hq : single.Significand shift q)
    (h : Near shift q (c * 10 ^ leastExponent shift)) :
    (gridRatio shift).1 * c ≠ (2 * q + 1) * (gridRatio shift).2 ∧
      Window (gridRatio shift).1 (gridRatio shift).2 ((gridRatio shift).2 / 2 ^ 29) c q ∧
      c ≤ 2 ^ 25 * (gridRatio shift).2 / (gridRatio shift).1 := by
  obtain ⟨ha, hb⟩ := gridRatio_pos shift
  have hratio := gridRatio_mul_spacing shift
  have hu := single.spacing_pos shift
  have hclose := abs_le.mp h.close
  have hne := h.ne
  generalize (gridRatio shift).1 = a at ha hratio ⊢
  generalize (gridRatio shift).2 = b at hb hratio ⊢
  generalize single.spacing shift = u at hratio hu hclose hne
  generalize (10 : ℚ) ^ leastExponent shift = g at hratio hclose hne
  have hbpos : (0 : ℚ) < b := Nat.cast_pos.mpr hb
  -- The point of the grid, multiplied by the denominator.
  have hpoint : 2 * b * (c * g) = (a * c : ℚ) * u := by
    calc 2 * b * (c * g) = c * (2 * g * b) := by ring
      _ = c * (a * u) := by rw [hratio]
      _ = a * c * u := by ring
  have hlower : (2 ^ 29 * ((2 * q + 1) * b) : ℚ) ≤ 2 ^ 29 * (a * c) + b := by
    refine le_of_mul_le_mul_right ?_ hu
    have hmul := mul_le_mul_of_nonneg_left hclose.1 (by linarith : (0 : ℚ) ≤ 2 ^ 30 * b)
    linarith
  have hupper : (2 ^ 29 * (a * c) : ℚ) ≤ 2 ^ 29 * ((2 * q + 1) * b) + b := by
    refine le_of_mul_le_mul_right ?_ hu
    have hmul := mul_le_mul_of_nonneg_left hclose.2 (by linarith : (0 : ℚ) ≤ 2 ^ 30 * b)
    linarith
  -- From here on all numbers are whole, and the distance is rounded down.
  have hlower : 2 ^ 29 * ((2 * q + 1) * b) ≤ 2 ^ 29 * (a * c) + b := by exact_mod_cast hlower
  have hupper : 2 ^ 29 * (a * c) ≤ 2 ^ 29 * ((2 * q + 1) * b) + b := by exact_mod_cast hupper
  refine ⟨?_, ⟨by omega, by omega⟩, ?_⟩
  · intro heq
    apply hne
    have heq : (a * c : ℚ) = (2 * q + 1) * b := by exact_mod_cast heq
    have hmul : 2 * b * (c * g) = 2 * b * ((2 * q + 1) * u / 2) := by
      rw [hpoint, heq]
      ring
    exact mul_left_cancel₀ (by positivity) hmul
  · -- The midpoints of this spacing end before `2 ^ 25` halves of it.
    have hlast : 2 * q + 1 ≤ 2 ^ 25 - 1 := by
      have hlt : q < 2 ^ 24 := hq.lt
      omega
    have hmul := Nat.mul_le_mul_right b hlast
    rw [Nat.le_div_iff_mul_le ha, Nat.mul_comm c a]
    omega

/-- Two multiples in windows differ by a multiple that is next to an even multiple of `b`. -/
theorem Window.not_lt {a b w c c' q q' fuel bound : Nat} (h : Window a b w c q)
    (h' : Window a b w c' q') (hw : 2 * w < a) (hb : 2 * w < 2 * b) (hc : c' ≤ bound)
    (havoids : avoids fuel a (2 * b) (2 * b - 2 * w) (2 * b + 2 * w) bound = true) : ¬ c < c' := by
  intro hlt
  obtain ⟨hlower, hupper⟩ := h
  obtain ⟨hlower', hupper'⟩ := h'
  obtain ⟨j, rfl⟩ := Nat.exists_eq_add_of_lt hlt
  have hstep : a * (c + j + 1) = a * c + a * (j + 1) := by ring
  have hj : a ≤ a * (j + 1) := Nat.le_mul_of_pos_right a (Nat.succ_pos j)
  rw [hstep] at hlower' hupper'
  -- The multiples differ by more than the windows are wide, so the windows are different.
  have hq : q < q' := by
    by_contra hle
    have hmul := Nat.mul_le_mul_right b (show 2 * q' + 1 ≤ 2 * q + 1 by omega)
    omega
  obtain ⟨y, rfl⟩ := Nat.exists_eq_add_of_lt hq
  have hwindows : (2 * (q + y + 1) + 1) * b = (2 * q + 1) * b + 2 * b * y + 2 * b := by ring
  rw [hwindows] at hlower' hupper'
  have hnone : ¬ (2 * b * y + (2 * b - 2 * w) ≤ a * (j + 1) ∧
      a * (j + 1) ≤ 2 * b * y + (2 * b + 2 * w)) :=
    not_mem_window_of_avoids havoids (by omega) (by omega) (by omega)
  exact hnone ⟨by omega, by omega⟩

/-! ## The search -/

/-- No point of the grid lies next to a midpoint. -/
def farFromMidpoints (shift : Nat) : Bool :=
  let (a, b) := gridRatio shift
  -- With a small denominator only the midpoints themselves are near enough.
  b < 2 ^ 29 || avoids 100 a (2 * b) (b - b / 2 ^ 29) (b + b / 2 ^ 29) (2 ^ 25 * b / a)

/-- The grid is the coarsest one that counts. -/
def leastGrid (shift : Nat) : Bool :=
  let (a, b) := gridRatio shift
  4 * a ≤ 75 * b

/-- **The search.** On each grid there is either no decimal near a midpoint, or it is the one with
the known exception. -/
theorem search_grids :
    ∀ shift < 254, leastGrid shift ∧ (shift = 42 ∨ farFromMidpoints shift) := by
  decide +kernel

/-- Where the search finds nothing, no decimal of the grid is near a midpoint. -/
theorem far_of_farFromMidpoints {shift q c : Nat} (hq : single.Significand shift q)
    (h : farFromMidpoints shift = true) : ¬ Near shift q (c * 10 ^ leastExponent shift) := by
  intro hnear
  obtain ⟨hne, ⟨hlower, hupper⟩, hc⟩ := window_of_near hq hnear
  obtain ⟨ha, hb⟩ := gridRatio_pos shift
  unfold farFromMidpoints at h
  generalize gridRatio shift = ratio at *
  obtain ⟨a, b⟩ := ratio
  simp only [Bool.or_eq_true, decide_eq_true_eq] at h
  dsimp only at hne hlower hupper hc hb
  rcases h with hsmall | havoids
  · -- The window has no room for anything but the midpoint itself.
    have hzero : b / 2 ^ 29 = 0 := Nat.div_eq_of_lt hsmall
    exact hne (Nat.le_antisymm (by omega) (by omega))
  · -- No multiple comes into the window, which starts at an odd multiple.
    have hodd : (2 * q + 1) * b = 2 * b * q + b := by ring
    have hnone := not_mem_window_of_avoids (y := q) havoids (by omega) (by omega) hc
    exact hnone ⟨by omega, by omega⟩

/-- At one spacing there is a point next to a midpoint. -/
theorem stray_window : Window (gridRatio 42).1 (gridRatio 42).2 ((gridRatio 42).2 / 2 ^ 29)
    7038531 11420669 := by
  constructor <;> decide +kernel

/-- There is no other one at this spacing. -/
theorem eq_of_near {q c : Nat} (hq : single.Significand 42 q)
    (hnear : Near 42 q (c * 10 ^ leastExponent 42)) : c = 7038531 := by
  obtain ⟨-, hwindow, hc⟩ := window_of_near hq hnear
  have havoids : avoids 100 (gridRatio 42).1 (2 * (gridRatio 42).2)
      (2 * (gridRatio 42).2 - 2 * ((gridRatio 42).2 / 2 ^ 29))
      (2 * (gridRatio 42).2 + 2 * ((gridRatio 42).2 / 2 ^ 29))
      (2 ^ 25 * (gridRatio 42).2 / (gridRatio 42).1) = true := by
    decide +kernel
  have hw : 2 * ((gridRatio 42).2 / 2 ^ 29) < (gridRatio 42).1 := by decide +kernel
  have hb : 2 * ((gridRatio 42).2 / 2 ^ 29) < 2 * (gridRatio 42).2 := by decide +kernel
  have hstray : 7038531 ≤ 2 ^ 25 * (gridRatio 42).2 / (gridRatio 42).1 := by decide +kernel
  exact Nat.le_antisymm (Nat.not_lt.mp (stray_window.not_lt hwindow hw hb hc havoids))
    (Nat.not_lt.mp (hwindow.not_lt stray_window hw hb hstray havoids))

/-- **Decimals next to midpoints.** On a grid that is almost as wide as the spacing, only
7.038531e-26 lies next to a midpoint without being one, however many zeros its coefficient has. -/
theorem eq_stray_of_near {shift q c : Nat} {e : Int} (hshift : shift < 254)
    (hq : single.Significand shift q) (hwide : 15 / 16 * single.spacing shift < 10 ^ e)
    (hnear : Near shift q (c * 10 ^ e)) : ∃ k : Nat, c * 10 ^ k = 7038531 ∧ e - k = -32 := by
  obtain ⟨hgrid, hsearch⟩ := search_grids shift hshift
  -- The grid is not finer than the one that has been searched.
  have hle : leastExponent shift ≤ e := by
    have hratio := gridRatio_mul_spacing shift
    obtain ⟨-, hb⟩ := gridRatio_pos shift
    have hcoarse : (4 * (gridRatio shift).1 : ℚ) ≤ 75 * (gridRatio shift).2 := by
      unfold leastGrid at hgrid
      exact_mod_cast of_decide_eq_true hgrid
    have hbpos : (0 : ℚ) < (gridRatio shift).2 := Nat.cast_pos.mpr hb
    have hfiner : (10 : ℚ) ^ (leastExponent shift - 1) < 10 ^ e := by
      refine lt_of_le_of_lt ?_ hwide
      rw [zpow_sub_one₀ (by norm_num)]
      refine le_of_mul_le_mul_right ?_ hbpos
      have hmul := mul_le_mul_of_nonneg_right hcoarse (single.spacing_pos shift).le
      linarith
    have hlt := (zpow_lt_zpow_iff_right₀ (by norm_num : (1 : ℚ) < 10)).mp hfiner
    omega
  obtain ⟨k, hk⟩ := Int.eq_ofNat_of_zero_le (show 0 ≤ e - leastExponent shift by omega)
  have hpoint : (c * 10 ^ e : ℚ) = (c * 10 ^ k : ℕ) * 10 ^ leastExponent shift := by
    push_cast
    rw [mul_assoc, ← zpow_natCast, ← zpow_add₀ (by norm_num)]
    congr 2
    omega
  rw [hpoint] at hnear
  rcases hsearch with rfl | hfar
  · have hleast : leastExponent 42 = -32 := by decide
    exact ⟨k, eq_of_near hq hnear, by omega⟩
  · exact absurd hnear (far_of_farFromMidpoints hq hfar)

/-! ## Rounding twice -/

/-- **Shortest decimals rounded twice.** The shortest decimal of a 32-bit magnitude gives this
magnitude back by way of 64 bits, except for a single one. -/
theorem round_shortest_iff {o : Nat} (ho : o < single.infinity) :
    single.round (double.units (double.roundDecimal (single.shortest .up o).1
      (single.shortest .up o).2) * 2 ^ single.places) (2 ^ double.places) = o ↔
      o ≠ 0x15ae43fd := by
  constructor
  · rintro hround rfl
    revert hround
    decide +kernel
  · intro hne
    by_contra htwo
    have hone := single.roundDecimal_shortest .up ho.le
    obtain ⟨hodd, shift, q, hq, hplace, hnear⟩ := near_of_round_ne ho hone htwo
    have hwide := spacing_lt_of_near ho hodd hq hplace hnear
    -- The search has covered the shifts of all finite magnitudes.
    have hshift : shift < 254 := by
      have hinfinity : single.infinity = 255 * 2 ^ 23 := by decide
      have hbits : single.fractionBits = 23 := rfl
      have hfull := hq.full
      rw [hbits] at hplace hfull
      omega
    obtain ⟨k, hcoefficient, hexponent⟩ := eq_stray_of_near hshift hq hwide hnear
    -- The one decimal that was found belongs to the one magnitude that is excepted.
    rw [← single.roundDecimal_shift _ _ k, hcoefficient, hexponent] at hone
    exact hne (hone.symm.trans (by decide +kernel))

end VectorTable
