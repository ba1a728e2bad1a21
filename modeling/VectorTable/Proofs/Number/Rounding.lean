import Mathlib.Tactic.Ring
import VectorTable.Number.Binary

/-!
# VectorTable — rounding is exact on what the format holds

A magnitude is a significand of limited length times a power of two, and rounding finds both
again, however the magnitude is written as a quotient. So a conversion to a format that holds
the value loses nothing.

* `Format.exists_significand` — the parts of a magnitude;
* `Format.round_units` — a magnitude rounds to its own ordinal;
* `Binary.narrow_widen` — a 32-bit float survives as a 64-bit one.
-/

namespace VectorTable

namespace Format

/-! ## Quotients -/

/-- A quotient may be scaled before it is rounded. -/
theorem nearest_mul (n m : Nat) {d : Nat} (hd : 0 < d) :
    nearest (n * d) (m * d) = nearest n m := by
  have hrest : n * d % (m * d) = n % m * d := Nat.mul_mod_mul_right d n m
  have hbelow : 2 * (n % m * d) < m * d ↔ 2 * (n % m) < m := by
    rw [← Nat.mul_assoc]
    exact Nat.mul_lt_mul_right hd
  have habove : m * d < 2 * (n % m * d) ↔ m < 2 * (n % m) := by
    rw [← Nat.mul_assoc]
    exact Nat.mul_lt_mul_right hd
  simp only [nearest, hrest, hbelow, habove, Nat.mul_div_mul_right n m hd]

/-- A whole quotient is not rounded at all. -/
theorem nearest_exact (q : Nat) {d : Nat} (hd : 0 < d) : nearest (q * d) d = q := by
  simp [nearest, Nat.mul_mod_left, Nat.mul_div_cancel q hd, hd]

variable (f : Format)

/-- A quotient of units may be scaled, too. -/
theorem round_mul (n m : Nat) {d : Nat} (hd : 0 < d) : f.round (n * d) (m * d) = f.round n m := by
  simp only [round, Nat.mul_div_mul_right n m hd]
  rw [Nat.mul_right_comm m d, nearest_mul _ _ hd]

/-- Rounding looks at the value of a quotient only. -/
theorem round_congr {n m n' m' : Nat} (hm : 0 < m) (hm' : 0 < m') (h : n * m' = n' * m) :
    f.round n m = f.round n' m' := by
  rw [← f.round_mul n m hm', ← f.round_mul n' m' hm, h, Nat.mul_comm m m']

/-! ## Significands -/

/-- The significand of a magnitude whose neighbours lie `2 ^ shift` units apart. Away from the
finest spacing it has its full length. -/
structure Significand (shift q : Nat) : Prop where
  lt : q < 2 ^ (f.fractionBits + 1)
  full : shift = 0 ∨ 2 ^ f.fractionBits ≤ q

variable {f}

/-- A magnitude is its significand, shifted to its place. -/
theorem Significand.units {shift q : Nat} (h : f.Significand shift q) :
    f.units (shift * 2 ^ f.fractionBits + q) = q * 2 ^ shift := by
  have hpos : 0 < 2 ^ f.fractionBits := Nat.two_pow_pos _
  have hlt : q < 2 * 2 ^ f.fractionBits := by
    have := h.lt
    rwa [Nat.pow_succ, Nat.mul_comm] at this
  by_cases hq : q < 2 ^ f.fractionBits
  · obtain rfl : shift = 0 := h.full.resolve_right (by omega)
    simp [Format.units, Nat.div_eq_of_lt hq, Nat.mod_eq_of_lt hq]
  · -- The leading bit of the significand carries into the block number.
    obtain ⟨r, rfl⟩ : ∃ r, q = 2 ^ f.fractionBits + r := ⟨q - 2 ^ f.fractionBits, by omega⟩
    have hr : r < 2 ^ f.fractionBits := by omega
    have hordinal : shift * 2 ^ f.fractionBits + (2 ^ f.fractionBits + r)
        = r + (shift + 1) * 2 ^ f.fractionBits := by ring
    have hblock : (r + (shift + 1) * 2 ^ f.fractionBits) / 2 ^ f.fractionBits = shift + 1 := by
      rw [Nat.add_mul_div_right _ _ hpos, Nat.div_eq_of_lt hr, Nat.zero_add]
    have hoffset : (r + (shift + 1) * 2 ^ f.fractionBits) % 2 ^ f.fractionBits = r := by
      rw [Nat.add_mul_mod_self_right, Nat.mod_eq_of_lt hr]
    simp [hordinal, Format.units, hblock, hoffset]

/-- The place of a magnitude can be read off its size. -/
theorem Significand.log2_sub {shift q : Nat} (h : f.Significand shift q) :
    (q * 2 ^ shift).log2 - f.fractionBits = shift := by
  rcases h.full with rfl | hfull
  · -- Without a leading bit nothing is shifted, and the difference is cut off at zero.
    rw [Nat.pow_zero, Nat.mul_one]
    by_cases hq : q = 0
    · simp [hq]
    · have := (Nat.log2_lt hq).mpr h.lt
      omega
  · have hpos : q ≠ 0 := by
      have := Nat.two_pow_pos f.fractionBits
      omega
    have hlog : (q * 2 ^ shift).log2 = f.fractionBits + shift := by
      rw [Nat.log2_eq_iff (Nat.mul_ne_zero hpos (Nat.two_pow_pos _).ne'), Nat.add_right_comm,
        Nat.pow_add, Nat.pow_add]
      exact ⟨Nat.mul_le_mul_right _ hfull, Nat.mul_lt_mul_of_pos_right h.lt (Nat.two_pow_pos _)⟩
    omega

variable (f)

/-- Every ordinal has a significand. -/
theorem exists_significand (ordinal : Nat) :
    ∃ shift q, f.Significand shift q ∧ ordinal = shift * 2 ^ f.fractionBits + q := by
  have hsplit := Nat.div_add_mod' ordinal (2 ^ f.fractionBits)
  have hoffset : ordinal % 2 ^ f.fractionBits < 2 ^ f.fractionBits :=
    Nat.mod_lt _ (Nat.two_pow_pos _)
  cases hblock : ordinal / 2 ^ f.fractionBits with
  | zero =>
    -- a subnormal magnitude
    refine ⟨0, ordinal % 2 ^ f.fractionBits, ⟨?_, .inl rfl⟩, ?_⟩
    · rw [Nat.pow_succ]
      omega
    · rw [hblock] at hsplit
      omega
  | succ shift =>
    -- a normal one, with its leading bit
    refine ⟨shift, 2 ^ f.fractionBits + ordinal % 2 ^ f.fractionBits, ⟨?_, .inr ?_⟩, ?_⟩
    · rw [Nat.pow_succ]
      omega
    · omega
    · rw [hblock, Nat.succ_mul] at hsplit
      omega

/-- The next magnitude has the next significand. After the longest one this is a power of two, which
is the first significand at twice the spacing. -/
theorem Significand.units_succ {f : Format} {shift q : Nat} (h : f.Significand shift q) :
    f.units (shift * 2 ^ f.fractionBits + q + 1) = (q + 1) * 2 ^ shift := by
  by_cases hnext : q + 1 < 2 ^ (f.fractionBits + 1)
  · have hs : f.Significand shift (q + 1) := ⟨hnext, h.full.imp_right (by omega)⟩
    rw [Nat.add_assoc, hs.units]
  · -- The significand is full, so the next one begins the next block.
    have hlt := h.lt
    have hs : f.Significand (shift + 1) (2 ^ f.fractionBits) := by
      refine ⟨?_, .inr (Nat.le_refl _)⟩
      rw [Nat.pow_succ]
      have := Nat.two_pow_pos f.fractionBits
      omega
    rw [Nat.pow_succ] at hlt hnext
    have hordinal : shift * 2 ^ f.fractionBits + q + 1
        = (shift + 1) * 2 ^ f.fractionBits + 2 ^ f.fractionBits := by
      rw [Nat.succ_mul]
      omega
    have hlength : q + 1 = 2 ^ f.fractionBits * 2 := by omega
    rw [hordinal, hs.units, hlength, Nat.pow_succ 2 shift]
    ring

/-- Each magnitude is greater than the one before it. -/
theorem units_lt_succ (ordinal : Nat) : f.units ordinal < f.units (ordinal + 1) := by
  obtain ⟨shift, q, hq, rfl⟩ := f.exists_significand ordinal
  rw [hq.units, hq.units_succ]
  exact Nat.mul_lt_mul_of_pos_right (Nat.lt_succ_self q) (Nat.two_pow_pos shift)

/-- Magnitudes are ordered as their ordinals are. -/
theorem units_lt_iff {a b : Nat} : f.units a < f.units b ↔ a < b :=
  (strictMono_nat_of_lt_succ f.units_lt_succ).lt_iff_lt

/-- **Exact rounding.** A magnitude rounds to its own ordinal. -/
theorem round_units {ordinal c : Nat} (h : ordinal ≤ f.infinity) (hc : 0 < c) :
    f.round (f.units ordinal * c) c = ordinal := by
  obtain ⟨shift, q, hq, rfl⟩ := f.exists_significand ordinal
  rw [hq.units, round, Nat.mul_div_cancel _ hc, hq.log2_sub]
  have hspread : q * 2 ^ shift * c = q * (c * 2 ^ shift) := by ring
  have hnearest := nearest_exact q (Nat.mul_pos hc (Nat.two_pow_pos shift))
  rw [Nat.pow_eq, Nat.pow_eq, hspread, hnearest, Nat.min_eq_left h]

/-- A significand of limited length is a magnitude at every power of two. -/
theorem exists_units (q shift : Nat) (h : q < 2 ^ (f.fractionBits + 1)) :
    ∃ ordinal, f.units ordinal = q * 2 ^ shift := by
  induction shift generalizing q with
  | zero => exact ⟨_, (Significand.mk h (.inl rfl)).units⟩
  | succ shift ih =>
    -- A short significand is doubled until it is full or the spacing is the finest.
    by_cases hfull : 2 ^ f.fractionBits ≤ q
    · exact ⟨_, (Significand.mk h (.inr hfull)).units⟩
    · obtain ⟨ordinal, hordinal⟩ := ih (2 * q) (by rw [Nat.pow_succ]; omega)
      exact ⟨ordinal, by rw [hordinal, Nat.pow_succ]; ring⟩

/-- Infinity stands at the magnitude that would follow the largest finite one. -/
theorem units_infinity (h : 0 < f.exponentBits) :
    f.units f.infinity = 2 ^ (f.fractionBits + (2 ^ f.exponentBits - 2)) := by
  have htwo : 2 ≤ 2 ^ f.exponentBits := Nat.le_self_pow h.ne' 2
  have hs : f.Significand (2 ^ f.exponentBits - 2) (2 ^ f.fractionBits) :=
    ⟨Nat.pow_lt_pow_right (by decide) (Nat.lt_succ_self _), .inr (Nat.le_refl _)⟩
  have hordinal : f.infinity
      = (2 ^ f.exponentBits - 2) * 2 ^ f.fractionBits + 2 ^ f.fractionBits := by
    rw [infinity, Nat.pow_eq, Nat.pow_eq, ← Nat.succ_mul]
    congr 1
    omega
  rw [hordinal, hs.units, ← Nat.pow_add]

end Format

/-! ## Conversions between the two formats -/

namespace Binary

/-- How many more places the 64-bit format has. -/
def extraPlaces : Nat := Format.double.places - Format.single.places

theorem extraPlaces_add : extraPlaces + Format.single.places = Format.double.places := rfl

/-- A finite 32-bit float keeps its sign and its value in 64 bits. -/
theorem widen_signed (negative : Bool) (m : Fin (Format.single.infinity + 1))
    (h : m.val ≠ Format.single.infinity) :
    ∃ n : Fin (Format.double.infinity + 1), widen (.signed negative m) = .signed negative n ∧
      n.val < Format.double.infinity ∧
      Format.double.units n.val = Format.single.units m.val * 2 ^ extraPlaces := by
  have hm : m.val < Format.single.infinity := by omega
  obtain ⟨shift, q, hq, hordinal⟩ := Format.single.exists_significand m.val
  have hunits : Format.single.units m.val = q * 2 ^ shift := by rw [hordinal, hq.units]
  obtain ⟨o, ho⟩ := Format.double.exists_units q (shift + extraPlaces)
    (hq.lt.trans (Nat.pow_lt_pow_right (by decide) (by decide)))
  rw [Nat.pow_add, ← Nat.mul_assoc, ← hunits] at ho
  -- The value is far below the infinity of 64 bits, since it is below that of 32 bits.
  have hinfinity : o < Format.double.infinity := by
    have hbound := (Format.single.units_lt_iff).mpr hm
    rw [Format.single.units_infinity (by decide)] at hbound
    rw [← Format.double.units_lt_iff, Format.double.units_infinity (by decide), ho]
    refine (Nat.mul_lt_mul_of_pos_right hbound (Nat.two_pow_pos _)).trans_le ?_
    rw [← Nat.pow_add]
    exact Nat.pow_le_pow_right (by decide) (by decide)
  have hquotient : Format.single.units m.val * 2 ^ Format.double.places
      = Format.double.units o * 2 ^ Format.single.places := by
    rw [ho, Nat.mul_assoc, ← Nat.pow_add, extraPlaces_add]
  refine ⟨⟨o, by omega⟩, ?_, hinfinity, ho⟩
  simp only [widen, convert, if_neg h, ofQuotient, ofOrdinal, Nat.pow_eq, hquotient,
    Format.double.round_units hinfinity.le (Nat.two_pow_pos _)]

/-- **Widening loses nothing.** A 32-bit float made a 64-bit one and rounded again is what it
was. -/
theorem narrow_widen (x : Single) : x.widen.narrow = x := by
  cases x with
  | nan => rfl
  | signed negative m =>
    by_cases h : m.val = Format.single.infinity
    · -- The infinities are kept as they are.
      have hm : m = ⟨Format.single.infinity, Nat.lt_succ_self _⟩ := Fin.ext h
      subst hm
      simp [widen, narrow, convert, infinite, ofOrdinal]
    · have hm : m.val < Format.single.infinity := by omega
      obtain ⟨n, hwiden, hn, hunits⟩ := widen_signed negative m h
      have hquotient : Format.double.units n.val * 2 ^ Format.single.places
          = Format.single.units m.val * 2 ^ Format.double.places := by
        rw [hunits, Nat.mul_assoc, ← Nat.pow_add, extraPlaces_add]
      simp only [hwiden, narrow, convert, if_neg hn.ne, ofQuotient, ofOrdinal, Nat.pow_eq,
        hquotient, Format.single.round_units hm.le (Nat.two_pow_pos _)]

/-- A wider format makes nothing finite or infinite. -/
theorem isFinite_widen (x : Single) : x.widen.isFinite = x.isFinite := by
  cases x with
  | nan => rfl
  | signed negative m =>
    by_cases h : m.val = Format.single.infinity
    · simp [widen, convert, h, infinite, ofOrdinal, isFinite]
    · obtain ⟨n, hwiden, hn, -⟩ := widen_signed negative m h
      have hm : m.val < Format.single.infinity := by omega
      simp [hwiden, isFinite, hn, hm]

end Binary

end VectorTable
