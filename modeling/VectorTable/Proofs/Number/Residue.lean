import Mathlib.Tactic.Ring

/-!
# VectorTable — multiples of a number near those of another

Whether some multiple of `a` lies in a window above a multiple of `m` is decided without trying the
multiples one by one. If the window itself has no multiple of `a`, then both are divided by `a` with
a rest, and the question becomes one about multiples of the rest of `m` near those of `a`, as in the
algorithm of Euclid.

* `avoids` — the search;
* `not_mem_window_of_avoids` — if it says that there is no such multiple, there is none.
-/

namespace VectorTable

/-- No multiple of `a` up to the one by `bound` lies between `l` and `r` above a multiple of `m`. -/
def avoids : Nat → Nat → Nat → Nat → Nat → Nat → Bool
  | 0, _, _, _, _, _ => false
  | fuel + 1, a, m, l, r, bound =>
    if a * bound < l then true
    else if l / a < r / a ∨ l % a = 0 then false
    else avoids fuel (m % a) a (a - r % a) (a - l % a) ((a * bound - l) / m)

/-- The step of the search: a multiple in the window is a multiple in the next one. -/
theorem exists_next_multiple {a m l r x y : Nat} (ha : 0 < a) (hsame : ¬ l / a < r / a)
    (hrest : l % a ≠ 0) (hl : m * y + l ≤ a * x) (hr : a * x ≤ m * y + r) :
    ∃ z, a * z + (a - r % a) ≤ m % a * y ∧ m % a * y ≤ a * z + (a - l % a) := by
  have hm : m * y = a * (m / a * y) + m % a * y := by
    rw [← Nat.mul_assoc, ← Nat.add_mul, Nat.div_add_mod]
  have hlsplit := Nat.div_add_mod l a
  have hrsplit := Nat.div_add_mod r a
  have hrlt := Nat.mod_lt r ha
  -- Both ends of the window have the same quotient.
  have hle : l / a ≤ r / a := Nat.div_le_div_right (by omega)
  have hquotient : r / a = l / a := by omega
  rw [hquotient] at hrsplit
  have hlt : m / a * y + l / a < x := by
    refine Nat.lt_of_mul_lt_mul_left (a := a) ?_
    rw [Nat.mul_add]
    omega
  obtain ⟨z, rfl⟩ := Nat.exists_eq_add_of_lt hlt
  have hx : a * (m / a * y + l / a + z + 1) = a * (m / a * y) + a * (l / a) + a * z + a := by ring
  rw [hm, hx] at hl hr
  exact ⟨z, by omega, by omega⟩

/-- **Soundness of the search.** -/
theorem not_mem_window_of_avoids {fuel a m l r bound : Nat}
    (h : avoids fuel a m l r bound = true) (hm : 0 < m) (hl : 0 < l) {x y : Nat}
    (hx : x ≤ bound) : ¬ (m * y + l ≤ a * x ∧ a * x ≤ m * y + r) := by
  induction fuel generalizing a m l r bound x y with
  | zero => cases h
  | succ fuel ih =>
    rintro ⟨hlower, hupper⟩
    have hmul : a * x ≤ a * bound := Nat.mul_le_mul_left a hx
    rw [avoids] at h
    split at h
    · -- The last multiple lies below the window.
      omega
    · rename_i hbound
      split at h
      · cases h
      · rename_i hnot
        -- A hit in this window gives one for the remainder, with the roles of the factors
        -- exchanged.
        rw [not_or] at hnot
        have ha : 0 < a := by
          rcases Nat.eq_zero_or_pos a with rfl | ha
          · omega
          · exact ha
        obtain ⟨z, hz⟩ := exists_next_multiple ha hnot.1 hnot.2 hlower hupper
        have hy : y ≤ (a * bound - l) / m := by
          rw [Nat.le_div_iff_mul_le hm, Nat.mul_comm y m]
          omega
        have hr : 0 < a - r % a := Nat.sub_pos_of_lt (Nat.mod_lt r ha)
        exact ih h ha hr hy hz

end VectorTable
