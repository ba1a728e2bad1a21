import Mathlib.Algebra.Order.Field.Basic
import Mathlib.Data.Rat.Cast.Order
import Mathlib.Tactic.FieldSimp
import Mathlib.Tactic.Linarith
import Mathlib.Tactic.NormNum
import Mathlib.Tactic.Positivity
import VectorTable.Proofs.Number.Shortest

/-!
# VectorTable — rounding and midpoints

Rounding is decided by the midpoints between magnitudes: a number rounds to a magnitude or below it
if it lies below the midpoint to the next one, or at this midpoint if the magnitude is even. Said
like this, rounding can be reasoned about in rational numbers, without bits and quotients.

* `Format.value`, `Format.middle` — a magnitude, and the midpoint between it and the next;
* `Format.round_le_iff`, `Format.roundDecimal_le_iff` — rounding of quotients and of decimals.
-/

namespace VectorTable.Format

/-! ## Nearest whole numbers -/

/-- A quotient is rounded to at most `q` if it lies below the middle behind `q`, or on it where `q`
is even. -/
theorem nearest_le_iff {n d q : Nat} (hd : 0 < d) :
    nearest n d ≤ q ↔ 2 * n < (2 * q + 1) * d ∨ 2 * n = (2 * q + 1) * d ∧ Even q := by
  have hsplit := Nat.div_add_mod n d
  have hrest := Nat.mod_lt n hd
  have hmiddle : (2 * q + 1) * d = 2 * (d * q) + d := by ring
  rw [hmiddle]
  unfold nearest
  dsimp only
  generalize n / d = b at hsplit ⊢
  generalize n % d = r at hsplit hrest ⊢
  rcases Nat.lt_trichotomy b q with hlt | rfl | hgt
  · -- The number lies below `q` anyway.
    have hmul := Nat.mul_le_mul_left d (Nat.succ_le_of_lt hlt)
    rw [Nat.mul_succ] at hmul
    refine iff_of_true ?_ (.inl (by omega))
    split
    · omega
    · split <;> omega
  · -- At `q` itself the remainder decides, and a half by the parity of `q`.
    rw [Nat.even_iff]
    split
    · omega
    · split <;> omega
  · -- The number lies above `q` anyway.
    have hmul := Nat.mul_le_mul_left d (Nat.succ_le_of_lt hgt)
    rw [Nat.mul_succ] at hmul
    refine iff_of_false ?_ ?_
    · split
      · omega
      · split <;> omega
    · rintro (h | ⟨h, -⟩) <;> omega

variable (f : Format)

/-- The size of a quotient of units and the spacing that it is rounded at. -/
theorem round_shift {n d : Nat} (hd : 0 < d) :
    ∃ s, f.round n d = min (s * 2 ^ f.fractionBits + nearest n (d * 2 ^ s)) f.infinity ∧
      n < 2 ^ (f.fractionBits + 1) * 2 ^ s * d ∧
      (s = 0 ∨ 2 ^ f.fractionBits * 2 ^ s * d ≤ n) := by
  refine ⟨(n / d).log2 - f.fractionBits, rfl, ?_, ?_⟩
  · -- The shift is large enough that `fractionBits + 1` bits remain.
    have hlog : n / d < 2 ^ ((n / d).log2 + 1) := Nat.lt_log2_self
    have hpow : 2 ^ ((n / d).log2 + 1) ≤
        2 ^ (f.fractionBits + 1) * 2 ^ ((n / d).log2 - f.fractionBits) := by
      rw [← Nat.pow_add]
      exact Nat.pow_le_pow_right (by decide) (by omega)
    exact (Nat.div_lt_iff_lt_mul hd).mp (hlog.trans_le hpow)
  · -- And not larger than it must be, unless nothing is shifted at all.
    by_cases hlong : f.fractionBits < (n / d).log2
    · right
      have hne : n / d ≠ 0 := by
        intro hzero
        rw [hzero, Nat.log2_zero] at hlong
        omega
      have hlog : 2 ^ (n / d).log2 ≤ n / d := Nat.log2_self_le hne
      have hpow : f.fractionBits + ((n / d).log2 - f.fractionBits) = (n / d).log2 := by omega
      rw [← Nat.pow_add, hpow]
      exact (Nat.mul_le_mul_right d hlog).trans (Nat.div_mul_le_self n d)
    · left
      omega

section

-- A quotient that is rounded at the shift `s`, and a significand `q` at the shift `t`; a full
-- significand is at least `w`.
variable {w s t n d q : Nat}

/-- A quotient with a smaller shift lies below the midpoint and is not rounded beyond. -/
theorem below_middle_of_shift_lt (hd : 0 < d) (hshift : s < t) (hbelow : n < w * 2 * 2 ^ s * d)
    (hfull : w ≤ q) :
    s * w + nearest n (d * 2 ^ s) ≤ t * w + q ∧ 2 * n < (q * 2 ^ t + (q + 1) * 2 ^ t) * d := by
  have hscale : 2 * 2 ^ s ≤ 2 ^ t := by
    rw [← Nat.pow_succ']
    exact Nat.pow_le_pow_right (by decide) hshift
  constructor
  · -- Even where it is rounded up to the next shift, it is not more than the least significand.
    have hnearest : nearest n (d * 2 ^ s) ≤ w * 2 := by
      refine (nearest_le_iff (Nat.mul_pos hd (Nat.two_pow_pos s))).mpr (.inl ?_)
      calc 2 * n < 2 * (w * 2 * 2 ^ s * d) := by omega
        _ = 2 * (w * 2) * (d * 2 ^ s) := by ring
        _ ≤ (2 * (w * 2) + 1) * (d * 2 ^ s) := Nat.mul_le_mul_right _ (Nat.le_succ _)
    have hblock := Nat.mul_le_mul_right w (Nat.succ_le_of_lt hshift)
    rw [Nat.succ_mul] at hblock
    omega
  · calc 2 * n < 2 * (w * 2 * 2 ^ s * d) := by omega
      _ = 2 * (w * (2 * 2 ^ s) * d) := by ring
      _ ≤ 2 * (q * 2 ^ t * d) :=
        Nat.mul_le_mul_left 2 (Nat.mul_le_mul_right d (Nat.mul_le_mul hfull hscale))
      _ = (q * 2 ^ t + q * 2 ^ t) * d := by ring
      _ ≤ (q * 2 ^ t + (q + 1) * 2 ^ t) * d :=
        Nat.mul_le_mul_right d (Nat.add_le_add_left (Nat.mul_le_mul_right _ (Nat.le_succ q)) _)

/-- A quotient with a larger shift lies above the midpoint and is rounded beyond. -/
theorem middle_below_of_shift_lt (hd : 0 < d) (hshift : t < s) (hw : 0 < w)
    (habove : w * 2 ^ s * d ≤ n) (hq : q < w * 2) :
    t * w + q < s * w + nearest n (d * 2 ^ s) ∧ (q * 2 ^ t + (q + 1) * 2 ^ t) * d < 2 * n := by
  have hscale : 2 * 2 ^ t ≤ 2 ^ s := by
    rw [← Nat.pow_succ']
    exact Nat.pow_le_pow_right (by decide) hshift
  constructor
  · -- At the greater shift no significand is less than `w`.
    have hnearest : w ≤ nearest n (d * 2 ^ s) := by
      obtain ⟨a, rfl⟩ : ∃ a, w = a + 1 := Nat.exists_eq_succ_of_ne_zero hw.ne'
      have hpos : 0 < d * 2 ^ s := Nat.mul_pos hd (Nat.two_pow_pos s)
      have hbound : (2 * a + 1) * (d * 2 ^ s) < 2 * n := by
        calc (2 * a + 1) * (d * 2 ^ s) < (2 * a + 2) * (d * 2 ^ s) :=
              Nat.mul_lt_mul_of_pos_right (Nat.lt_succ_self _) hpos
          _ = 2 * ((a + 1) * 2 ^ s * d) := by ring
          _ ≤ 2 * n := Nat.mul_le_mul_left 2 habove
      rw [Nat.succ_le_iff, ← Nat.not_le, nearest_le_iff hpos]
      omega
    have hblock := Nat.mul_le_mul_right w (Nat.succ_le_of_lt hshift)
    rw [Nat.succ_mul] at hblock
    omega
  · calc (q * 2 ^ t + (q + 1) * 2 ^ t) * d = (2 * q + 1) * (2 ^ t * d) := by ring
      _ < 4 * w * (2 ^ t * d) :=
        Nat.mul_lt_mul_of_pos_right (by omega) (Nat.mul_pos (Nat.two_pow_pos t) hd)
      _ = 2 * (w * (2 * 2 ^ t) * d) := by ring
      _ ≤ 2 * (w * 2 ^ s * d) :=
        Nat.mul_le_mul_left 2 (Nat.mul_le_mul_right d (Nat.mul_le_mul_left w hscale))
      _ ≤ 2 * n := Nat.mul_le_mul_left 2 habove

end

/-- Where a quotient of units is rounded to, by its place among the midpoints. -/
theorem round_le_iff_units (hbits : 0 < f.fractionBits) {o n d : Nat} (ho : o < f.infinity)
    (hd : 0 < d) :
    f.round n d ≤ o ↔ 2 * n < (f.units o + f.units (o + 1)) * d ∨
      2 * n = (f.units o + f.units (o + 1)) * d ∧ Even o := by
  obtain ⟨t, q, hq, rfl⟩ := f.exists_significand o
  obtain ⟨s, hround, hbelow, habove⟩ := f.round_shift (n := n) hd
  have hmin : f.round n d ≤ t * 2 ^ f.fractionBits + q ↔
      s * 2 ^ f.fractionBits + nearest n (d * 2 ^ s) ≤ t * 2 ^ f.fractionBits + q := by
    rw [hround, min_le_iff, or_iff_left (by omega)]
  have heven : Even (t * 2 ^ f.fractionBits + q) ↔ Even q := by
    rw [Nat.even_add, iff_true_left ((Nat.even_pow.mpr ⟨even_two, hbits.ne'⟩).mul_left t)]
  have hlt := hq.lt
  rw [Nat.pow_succ] at hlt hbelow
  rw [hmin, heven, hq.units, hq.units_succ]
  rcases Nat.lt_trichotomy s t with hshift | rfl | hshift
  · -- A quotient of a smaller shift is far below, so that both sides hold.
    have hfull : 2 ^ f.fractionBits ≤ q := hq.full.resolve_left (by omega)
    obtain ⟨hrounded, hmiddle⟩ := below_middle_of_shift_lt hd hshift hbelow hfull
    exact iff_of_true hrounded (.inl hmiddle)
  · -- At the same shift, the midpoint behind `q` is where `nearest` turns to the next number.
    have hmiddle : (q * 2 ^ s + (q + 1) * 2 ^ s) * d = (2 * q + 1) * (d * 2 ^ s) := by ring
    rw [hmiddle, Nat.add_le_add_iff_left, nearest_le_iff (Nat.mul_pos hd (Nat.two_pow_pos s))]
  · -- A quotient of a greater shift is far above, so that neither holds.
    obtain ⟨hrounded, hmiddle⟩ := middle_below_of_shift_lt hd hshift
      (Nat.two_pow_pos f.fractionBits) (habove.resolve_left (by omega)) hlt
    exact iff_of_false (Nat.not_le.mpr hrounded) (by omega)

/-! ## Magnitudes as rational numbers -/

/-- A magnitude. -/
def value (o : Nat) : ℚ := f.units o / 2 ^ f.places

/-- The number in the middle between a magnitude and the next one. -/
def middle (o : Nat) : ℚ := (f.value o + f.value (o + 1)) / 2

/-- How far apart two neighbours of a magnitude are if they lie `2 ^ shift` units apart. -/
def spacing (shift : Nat) : ℚ := 2 ^ shift / 2 ^ f.places

theorem spacing_pos (shift : Nat) : 0 < f.spacing shift := by
  unfold spacing
  positivity

variable {f}

/-- A magnitude is its significand in units of its spacing. -/
theorem Significand.value {shift q : Nat} (h : f.Significand shift q) :
    f.value (shift * 2 ^ f.fractionBits + q) = q * f.spacing shift := by
  unfold Format.value spacing
  rw [h.units]
  push_cast
  ring

/-- The next magnitude lies one spacing above. -/
theorem Significand.value_succ {shift q : Nat} (h : f.Significand shift q) :
    f.value (shift * 2 ^ f.fractionBits + q + 1) = (q + 1) * f.spacing shift := by
  unfold Format.value spacing
  rw [h.units_succ]
  push_cast
  ring

/-- Half a spacing above a magnitude lies the middle to the next. -/
theorem Significand.middle {shift q : Nat} (h : f.Significand shift q) :
    f.middle (shift * 2 ^ f.fractionBits + q) = (2 * q + 1) * f.spacing shift / 2 := by
  unfold Format.middle
  rw [h.value, h.value_succ]
  ring

variable (f)

/-- Every significand that the format has room for is that of some magnitude. -/
theorem exists_value {q : Nat} (shift : Nat) (h : q < 2 ^ (f.fractionBits + 1)) :
    ∃ o, f.value o = q * f.spacing shift := by
  obtain ⟨o, ho⟩ := f.exists_units q shift h
  refine ⟨o, ?_⟩
  unfold value spacing
  rw [ho]
  push_cast
  ring

/-- Magnitudes are ordered as their ordinals are. -/
theorem value_lt_iff {a b : Nat} : f.value a < f.value b ↔ a < b := by
  unfold value
  rw [div_lt_div_iff_of_pos_right (by positivity), Nat.cast_lt, units_lt_iff]

/-- The same for the order that admits equality. -/
theorem value_le_iff {a b : Nat} : f.value a ≤ f.value b ↔ a ≤ b := by
  rw [← not_lt, value_lt_iff, Nat.not_lt]

/-- Infinity stands where the next power of two would. -/
theorem value_infinity (h : 1 < f.exponentBits) :
    f.value f.infinity = 2 ^ 2 ^ (f.exponentBits - 1) := by
  obtain ⟨e, he⟩ : ∃ e, f.exponentBits = e + 1 := ⟨f.exponentBits - 1, by omega⟩
  have htwo : 2 ≤ 2 ^ e := Nat.le_self_pow (by omega) 2
  have hplaces : f.fractionBits + (2 ^ (e + 1) - 2) = 2 ^ e + f.places := by
    unfold places
    rw [he, Nat.add_sub_cancel, Nat.pow_succ, Nat.pow_eq]
    omega
  unfold value
  rw [f.units_infinity (by omega), he, hplaces, Nat.add_sub_cancel]
  push_cast
  rw [pow_add, mul_div_cancel_right₀ _ (by positivity)]

/-- The middle to the next magnitude lies above a magnitude. -/
theorem value_lt_middle (o : Nat) : f.value o < f.middle o := by
  have := f.value_lt_iff.mpr (Nat.lt_succ_self o)
  unfold middle
  linarith

/-- The middle behind a magnitude lies below the next one. -/
theorem middle_lt_value (o : Nat) : f.middle o < f.value (o + 1) := by
  have := f.value_lt_iff.mpr (Nat.lt_succ_self o)
  unfold middle
  linarith

/-! ## Rounding -/

/-- A number below the midpoint behind a magnitude, or at it if the magnitude is even. -/
def Reaches (o : Nat) (x : ℚ) : Prop := x < f.middle o ∨ x = f.middle o ∧ Even o

/-- **Rounding by midpoints.** -/
theorem round_le_iff (hbits : 0 < f.fractionBits) {o n d : Nat} (ho : o < f.infinity)
    (hd : 0 < d) : f.round n d ≤ o ↔ f.Reaches o (n / d / 2 ^ f.places) := by
  have hdpos : (0 : ℚ) < d := Nat.cast_pos.mpr hd
  have hpow : (0 : ℚ) < 2 ^ f.places := by positivity
  have hmiddle : f.middle o = (f.units o + f.units (o + 1) : ℕ) / 2 / 2 ^ f.places := by
    unfold middle value
    push_cast
    ring
  have hlt : (n / d / 2 ^ f.places : ℚ) < f.middle o ↔
      2 * n < (f.units o + f.units (o + 1)) * d := by
    rw [hmiddle, div_lt_div_iff_of_pos_right hpow, div_lt_div_iff₀ hdpos two_pos, Nat.mul_comm 2]
    norm_cast
  have heq : (n / d / 2 ^ f.places : ℚ) = f.middle o ↔
      2 * n = (f.units o + f.units (o + 1)) * d := by
    rw [hmiddle, div_left_inj' hpow.ne', div_eq_div_iff hdpos.ne' two_ne_zero, Nat.mul_comm 2]
    norm_cast
  -- What was shown of units is scaled to the value of the magnitude.
  rw [f.round_le_iff_units hbits ho hd, Reaches, hlt, heq]

/-- A decimal is rounded by its value. -/
theorem roundDecimal_le_iff (hbits : 0 < f.fractionBits) {o : Nat} (ho : o < f.infinity) (c : Nat)
    (e : Int) : f.roundDecimal c e ≤ o ↔ f.Reaches o (c * 10 ^ e) := by
  have hpow : (2 : ℚ) ^ f.places ≠ 0 := by positivity
  have hpower : (10 : ℚ) ^ e = 10 ^ e.toNat / 10 ^ (-e).toNat := by
    rw [← zpow_natCast, ← zpow_natCast, ← zpow_sub₀ (by norm_num)]
    congr 1
    omega
  have hvalue : ((c * 10 ^ e.toNat * 2 ^ f.places : ℕ) : ℚ) / (10 ^ (-e).toNat : ℕ) /
      2 ^ f.places = c * 10 ^ e := by
    rw [hpower]
    push_cast
    field_simp
  rw [roundDecimal_eq, f.round_le_iff hbits ho (Nat.pow_pos (by decide)), hvalue]

/-- A decimal at or below a magnitude is rounded to no more than it. -/
theorem roundDecimal_le_of_le_value (hbits : 0 < f.fractionBits) {o c : Nat} {e : Int}
    (ho : o < f.infinity) (h : c * 10 ^ e ≤ f.value o) : f.roundDecimal c e ≤ o :=
  (f.roundDecimal_le_iff hbits ho c e).mpr (.inl (h.trans_lt (f.value_lt_middle o)))

/-- A decimal at or above a magnitude is rounded to no less than it. -/
theorem le_roundDecimal_of_value_le (hbits : 0 < f.fractionBits) {o c : Nat} {e : Int}
    (ho : o ≤ f.infinity) (h : f.value o ≤ c * 10 ^ e) : o ≤ f.roundDecimal c e := by
  cases o with
  | zero => exact Nat.zero_le _
  | succ o =>
    rw [Nat.succ_le_iff, ← Nat.not_le, f.roundDecimal_le_iff hbits ho]
    have hmiddle := (f.middle_lt_value o).trans_le h
    rintro (hlt | ⟨heq, -⟩)
    · exact absurd hlt hmiddle.not_gt
    · exact absurd heq hmiddle.ne'

/-- A number lies between the midpoints around the magnitude that it is rounded to. -/
theorem le_middle_of_roundDecimal (hbits : 0 < f.fractionBits) {o c : Nat} {e : Int}
    (ho : o < f.infinity) (h : f.roundDecimal c e = o) : (c * 10 ^ e : ℚ) ≤ f.middle o := by
  rcases (f.roundDecimal_le_iff hbits ho c e).mp h.le with hlt | ⟨heq, -⟩
  · exact hlt.le
  · exact heq.le

/-- A decimal that is rounded up lies at or above the middle. -/
theorem middle_le_of_roundDecimal (hbits : 0 < f.fractionBits) {o c : Nat} {e : Int}
    (ho : o < f.infinity) (h : f.roundDecimal c e = o + 1) : f.middle o ≤ c * 10 ^ e := by
  by_contra hlt
  have hle := (f.roundDecimal_le_iff hbits ho c e).mpr (.inl (not_le.mp hlt))
  omega

/-- A magnitude of one format is rounded to another one by its value. -/
theorem round_units_le_iff (g : Format) (hbits : 0 < f.fractionBits) {o : Nat}
    (ho : o < f.infinity) (k : Nat) :
    f.round (g.units k * 2 ^ f.places) (2 ^ g.places) ≤ o ↔ f.Reaches o (g.value k) := by
  have hpow : (2 : ℚ) ^ f.places ≠ 0 := by positivity
  have hvalue : ((g.units k * 2 ^ f.places : ℕ) : ℚ) / (2 ^ g.places : ℕ) / 2 ^ f.places =
      g.value k := by
    unfold value
    push_cast
    field_simp
  rw [f.round_le_iff hbits ho (Nat.two_pow_pos _), hvalue]

end VectorTable.Format
