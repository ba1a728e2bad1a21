import VectorTable.Number.Binary
import VectorTable.Proofs.Number.Midpoint

/-!
# VectorTable — floats as numbers

A finite float stands for a rational number, and floats are ordered like these numbers.

* `Binary.number?` — the number of a finite float;
* `Binary.le_iff_number_le` — the order of floats;
* `Binary.between_iff` — what lies between two finite floats is a number between theirs.
-/

namespace VectorTable

theorem Format.value_zero (f : Format) : f.value 0 = 0 := by
  simp [Format.value, Format.units]

namespace Binary

variable {f : Format}

/-- The number that a float stands for, if it is finite. Both zeros stand for 0. -/
def number? : Binary f → Option ℚ
  | .nan => none
  | .signed negative m =>
    if m.val < f.infinity then some (if negative then -f.value m.val else f.value m.val) else none

/-- Floats that are finite are those that stand for a number. -/
theorem number?_isSome_iff {x : Binary f} : (∃ a, x.number? = some a) ↔ x.isFinite = true := by
  cases x with
  | nan => simp [number?, isFinite]
  | signed s m =>
    simp only [number?, isFinite, decide_eq_true_eq]
    split
    · rename_i h
      exact iff_of_true ⟨_, rfl⟩ h
    · rename_i h
      exact iff_of_false (by simp) h

/-- The magnitudes on both sides of zero lie in the order of their keys. -/
theorem key_le_key_iff {s t : Bool} {m n : Fin (f.infinity + 1)} :
    key s m ≤ key t n ↔
      (if s then -f.value m.val else f.value m.val) ≤
        if t then -f.value n.val else f.value n.val := by
  have hnonneg (o : Nat) : 0 ≤ f.value o := f.value_zero ▸ f.value_le_iff.mpr (Nat.zero_le o)
  have hpos {o : Nat} (ho : 0 < o) : 0 < f.value o := f.value_zero ▸ f.value_lt_iff.mpr ho
  unfold key
  cases s <;> cases t
  · simp [f.value_le_iff]
  · -- A number is at most a negative one only if both are zero.
    simp only [Bool.false_eq_true, if_false, if_true]
    constructor
    · intro h
      rw [show m.val = 0 by omega, show n.val = 0 by omega, f.value_zero, neg_zero]
    · intro h
      have hm : ¬ 0 < m.val := fun hm => by linarith [hpos hm, hnonneg n.val]
      have hn : ¬ 0 < n.val := fun hn => by linarith [hpos hn, hnonneg m.val]
      omega
  · -- A negative number is below every other.
    refine iff_of_true ?_ ?_
    · simp only [Bool.false_eq_true, if_false, if_true]
      omega
    · simp only [Bool.false_eq_true, if_false, if_true]
      linarith [hnonneg m.val, hnonneg n.val]
  · simp [f.value_le_iff]

/-- Finite floats are ordered as their numbers are. -/
theorem le_iff_number_le {x y : Binary f} {a b : ℚ} (hx : x.number? = some a)
    (hy : y.number? = some b) : x.le y = true ↔ a ≤ b := by
  cases x with
  | nan => cases hx
  | signed s m =>
    cases y with
    | nan => cases hy
    | signed t n =>
      simp only [number?, Option.ite_none_right_eq_some, Option.some.injEq] at hx hy
      obtain ⟨-, rfl⟩ := hx
      obtain ⟨-, rfl⟩ := hy
      rw [le, decide_eq_true_eq, key_le_key_iff]

/-- Infinities lie outside of all that is finite. -/
theorem isFinite_of_between {x y z : Binary f} (hx : x.isFinite = true) (hz : z.isFinite = true)
    (hxy : x.le y = true) (hyz : y.le z = true) : y.isFinite = true := by
  cases x with
  | nan => cases hx
  | signed s m =>
    cases y with
    | nan => cases hxy
    | signed t n =>
      cases z with
      | nan => cases hz
      | signed u k =>
        rw [le, decide_eq_true_eq] at hxy hyz
        simp only [isFinite, decide_eq_true_eq] at hx hz ⊢
        unfold key at hxy hyz
        -- One bound suffices, which one depends on the sign.
        cases t
        · simp only [Bool.false_eq_true, if_false] at hyz
          split at hyz <;> omega
        · simp only [if_true] at hxy
          split at hxy <;> omega

/-- What lies between two finite floats is finite, and its number lies between theirs. -/
theorem between_iff {x y z : Binary f} {a b : ℚ} (hx : x.number? = some a)
    (hz : z.number? = some b) :
    (x.le y && y.le z) = true ↔ ∃ w, y.number? = some w ∧ a ≤ w ∧ w ≤ b := by
  rw [Bool.and_eq_true]
  constructor
  · rintro ⟨hxy, hyz⟩
    obtain ⟨w, hw⟩ := number?_isSome_iff.mpr
      (isFinite_of_between (number?_isSome_iff.mp ⟨a, hx⟩) (number?_isSome_iff.mp ⟨b, hz⟩) hxy hyz)
    exact ⟨w, hw, (le_iff_number_le hx hw).mp hxy, (le_iff_number_le hw hz).mp hyz⟩
  · rintro ⟨w, hw, hlow, hhigh⟩
    exact ⟨(le_iff_number_le hx hw).mpr hlow, (le_iff_number_le hw hz).mpr hhigh⟩

/-! ## Zero and one -/

theorem number?_zero : (zero false : Double).number? = some 0 := by
  rw [← Format.double.value_zero]
  rfl

theorem number?_one : (ofInt 1 : Double).number? = some 1 := by
  have hone : (ofInt 1 : Double) = .signed false ⟨0x3ff0000000000000, by decide⟩ := by
    decide +kernel
  have hunits : Format.double.units 0x3ff0000000000000 = 2 ^ Format.double.places := by
    decide +kernel
  have hvalue : Format.double.value 0x3ff0000000000000 = 1 := by
    rw [Format.value, hunits, Nat.cast_pow, Nat.cast_ofNat]
    exact div_self (pow_ne_zero _ two_ne_zero)
  rw [hone, ← hvalue]
  rfl

end Binary

end VectorTable
