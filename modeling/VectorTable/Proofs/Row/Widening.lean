import VectorTable.Proofs.Number.NearMidpoint
import VectorTable.Proofs.Number.Parse
import VectorTable.Proofs.Row.RoundTrip

/-!
# VectorTable — floats in double columns

A float goes into a double column as the double with its shortest decimal, so that 0.1 is stored as
0.1. When the double is read back as a float, it is rounded a second time. This gives back every
float but one: the shortest decimal of 7.038531e-26 is rounded to the midpoint between this float
and the next, and from there to the next one, which is even.

* `Binary.narrow_widenDecimal_iff` — the floats that are given back;
* `Column.float_reads_back_iff` — the same by way of a column.
-/

namespace VectorTable

open Format

namespace Binary

/-- The 32-bit float 7.038531e-26, or its negation. -/
def stray (negative : Bool) : Single := ofOrdinal negative 0x15ae43fd (by decide)

/-- The double of a finite float is the nearest one to its shortest decimal. -/
theorem widenDecimal_signed (negative : Bool) (m : Fin (single.infinity + 1))
    (h : m.val ≠ single.infinity) :
    widenDecimal (.signed negative m) =
      ofDecimal ⟨negative, (single.shortest .up m.val).1, (single.shortest .up m.val).2⟩ := by
  unfold widenDecimal
  rw [toList_display negative m h,
    parse?_plain (single.shortest_exponent (Nat.le_of_lt_succ m.isLt))]
  rfl

/-- The float that is lost is known by its sign and its ordinal. -/
theorem signed_eq_stray_iff {s negative : Bool} {m : Fin (single.infinity + 1)} :
    (.signed s m : Single) = stray negative ↔ s = negative ∧ m.val = 0x15ae43fd := by
  unfold stray ofOrdinal
  rw [signed.injEq, Fin.ext_iff]

/-- **Floats that are given back.** The double with the shortest decimal of a float is rounded back
to the float, unless the float is 7.038531e-26 or its negation. -/
theorem narrow_widenDecimal_iff (x : Single) :
    x.widenDecimal.narrow = x ↔ x ≠ stray false ∧ x ≠ stray true := by
  cases x with
  | nan => decide +kernel
  | signed negative m =>
    by_cases h : m.val = single.infinity
    · -- Like `nan`, the infinities are written and read as words.
      obtain rfl : m = ⟨single.infinity, Nat.lt_succ_self _⟩ := Fin.ext h
      cases negative <;> decide +kernel
    · have hm : m.val < single.infinity := by omega
      have hfinite := roundDecimal_double_lt_infinity hm (single.roundDecimal_shortest .up hm.le)
      -- The sign is kept, so the question is the one about magnitudes.
      have hnarrow : (widenDecimal (.signed negative m)).narrow = .signed negative m ↔
          m.val ≠ 0x15ae43fd := by
        rw [← round_shortest_iff hm, widenDecimal_signed negative m h]
        simp only [narrow, convert, ofDecimal, ofOrdinal, ofQuotient, if_neg hfinite.ne, Nat.pow_eq,
          signed.injEq, true_and, Fin.ext_iff]
      simp only [hnarrow, ne_eq, signed_eq_stray_iff]
      cases negative <;> simp

end Binary

/-- **Floats in double columns.** A float is bound for a double column as a double, without a cast.
If the column gives this double back, then it is read as the float, unless the float is 7.038531e-26
or its negation. -/
theorem Column.float_reads_back_iff (c : Column) (hkind : c.kind = .double) (x : Single) :
    ∃ d : Double, c.param (some (.float x)) = .plain (.double (some d)) ∧
      (c.readCell (c.param (some (.float x)))).ReadsAs c.kind.readCell (some (.double d)) ∧
      ∀ (m : Metadata) (key : String), m.get? key = some (.double d) →
        (m.getFloat? key = some x ↔ x ≠ .stray false ∧ x ≠ .stray true) := by
  have hparam : c.param (some (.float x)) = .plain (.double (some x.widenDecimal)) := by
    unfold Column.param
    rw [hkind]
    rfl
  have htext : c.readsAsText = false := by
    unfold readsAsText
    rw [hkind]
  refine ⟨x.widenDecimal, hparam, ?_, ?_⟩
  · rw [hparam, readCell, htext, hkind]
    exact .value nofun rfl
  · intro m key hm
    -- The getter narrows the double that the column returned.
    unfold Metadata.getFloat?
    rw [hm]
    exact Option.some_inj.trans x.narrow_widenDecimal_iff

/-- The float 0.1 is given back. -/
theorem Column.float_reads_back_iff_tenth :
    let c : Column := ⟨"score", "double precision", "float8", -1⟩
    let x : Single := .ofBits 0x3dcccccd
    c.kind = .double ∧ x ≠ .stray false ∧ x ≠ .stray true ∧
      ∃ d : Double, c.param (some (.float x)) = .plain (.double (some d)) ∧
        (c.readCell (c.param (some (.float x)))).ReadsAs c.kind.readCell (some (.double d)) ∧
        ∀ (m : Metadata) (key : String), m.get? key = some (.double d) →
          m.getFloat? key = some x := by
  intro c x
  have hkind : c.kind = .double := rfl
  have hpositive : x ≠ .stray false := by decide +kernel
  have hnegative : x ≠ .stray true := by decide +kernel
  obtain ⟨d, hparam, hreads, hback⟩ := c.float_reads_back_iff hkind x
  refine ⟨hkind, hpositive, hnegative, d, hparam, hreads, ?_⟩
  intro m key hm
  exact (hback m key hm).mpr ⟨hpositive, hnegative⟩

/-- The float 7.038531e-26 is bound as the midpoint between it and the next float, and read as the
next one. -/
theorem Column.stray_float_lost :
    let c : Column := ⟨"score", "double precision", "float8", -1⟩
    let d : Double := .ofBits 0x3ab5c87fb0000000
    let m : Metadata := .ofList [("score", .double d)]
    (Binary.stray false).isFinite = true ∧
      c.param (some (.float (.stray false))) = .plain (.double (some d)) ∧
      m.getFloat? "score" = some (.ofBits 0x15ae43fe : Single) ∧
      (.ofBits 0x15ae43fe : Single) ≠ .stray false := by
  decide +kernel

end VectorTable
