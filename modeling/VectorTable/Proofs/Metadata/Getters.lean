import VectorTable.Metadata.Basic
import VectorTable.Proofs.Number.Rounding
import VectorTable.Proofs.Uuid

/-!
# VectorTable — what typed getters see after storage

A stored value may come back as another kind. No getter that had an answer before notices.

* `MetadataValue.normal` — the kind in which a value comes back from JSON;
* `MetadataValue.StoredAs` — all the kinds in which a value may come back;
* `Metadata.getters_kept` — the getters after storage.
-/

namespace VectorTable

namespace MetadataValue

/-- A value after it has gone through JSON. -/
def normal : MetadataValue → MetadataValue
  | .string s => .string s
  | .integer i => .integer i
  | .long i =>
    if -0x80000000 ≤ i.toInt ∧ i.toInt < 0x80000000 then .integer (Int32.ofInt i.toInt) else .long i
  | .float x => .double x.widen
  | .double x => .double x
  | .uuid u => .string (toString u)

/-- The kinds in which a stored value comes back: its own, that of JSON, or, for an integer in a
wider column, the wider kind. -/
inductive StoredAs : MetadataValue → MetadataValue → Prop where
  | same (value : MetadataValue) : StoredAs value value
  | normal (value : MetadataValue) : StoredAs value value.normal
  | widened (i : Int32) : StoredAs (.integer i) (.long i.toInt64)

end MetadataValue

namespace Metadata

/-- No getter that has an answer in `m` under a key has another one in `m'`. -/
structure GettersKept (m m' : Metadata) (key : String) : Prop where
  string (s : String) : m.getString? key = some s → m'.getString? key = some s
  uuid (u : Uuid) : m.getUuid? key = some u → m'.getUuid? key = some u
  integer (i : Int32) : m.getInteger? key = some i → m'.getInteger? key = some i
  long (i : Int64) : m.getLong? key = some i → m'.getLong? key = some i
  float (x : Single) : m.getFloat? key = some x → m'.getFloat? key = some x
  double (x : Double) : m.getDouble? key = some x → m'.getDouble? key = some x

variable {m m' : Metadata} {key : String}

/-- The getters of a key only look at its value. -/
theorem gettersKept_of_eq (h : m'.get? key = m.get? key) : m.GettersKept m' key := by
  constructor <;> intro _ hget <;> simpa only [getString?, getUuid?, getInteger?, getLong?,
    getFloat?, getDouble?, h] using hget

/-- A long that is short enough is the integer with its value. -/
theorem toInt64_ofInt {i : Int64} (h : -0x80000000 ≤ i.toInt ∧ i.toInt < 0x80000000) :
    (Int32.ofInt i.toInt).toInt64 = i := by
  rw [← Int64.toInt_inj, Int32.toInt_toInt64, Int32.toInt_ofInt_of_le h.1 h.2]

/-- **Getters survive storage.** -/
theorem getters_kept {value stored : MetadataValue} (hvalue : m.get? key = some value)
    (hstored : m'.get? key = some stored) (h : value.StoredAs stored) : m.GettersKept m' key := by
  cases h with
  | same => exact gettersKept_of_eq (hstored.trans hvalue.symm)
  | normal =>
    cases value with
    | string s => exact gettersKept_of_eq (hstored.trans hvalue.symm)
    | integer i => exact gettersKept_of_eq (hstored.trans hvalue.symm)
    | double x => exact gettersKept_of_eq (hstored.trans hvalue.symm)
    | long i =>
      -- Integers and longs answer the same getters, as long as the number fits 32 bits.
      by_cases hshort : -0x80000000 ≤ i.toInt ∧ i.toInt < 0x80000000
      · rw [MetadataValue.normal, if_pos hshort] at hstored
        constructor <;> intro _ hget <;> simp only [getString?, getUuid?, getInteger?, getLong?,
          getFloat?, getDouble?, hvalue, hstored, if_pos hshort, toInt64_ofInt hshort,
          reduceCtorEq] at hget ⊢
        all_goals exact hget
      · rw [MetadataValue.normal, if_neg hshort] at hstored
        exact gettersKept_of_eq (hstored.trans hvalue.symm)
    | float x =>
      -- A double answers both getters for floats; rounding undoes the widening.
      rw [MetadataValue.normal] at hstored
      constructor <;> intro _ hget <;> simp only [getString?, getUuid?, getInteger?, getLong?,
        getFloat?, getDouble?, hvalue, hstored, Binary.narrow_widen, reduceCtorEq] at hget ⊢
      all_goals exact hget
    | uuid u =>
      -- No getter but the one for UUIDs had an answer, and it reads texts too.
      rw [MetadataValue.normal] at hstored
      constructor <;> intro _ hget <;> simp only [getString?, getUuid?, getInteger?, getLong?,
        getFloat?, getDouble?, hvalue, hstored, Uuid.parse?_toString, reduceCtorEq] at hget ⊢
      all_goals exact hget
  | widened i =>
    have hshort : -0x80000000 ≤ i.toInt64.toInt ∧ i.toInt64.toInt < 0x80000000 := by
      rw [Int32.toInt_toInt64]
      exact ⟨i.le_toInt, i.toInt_lt⟩
    have hback : Int32.ofInt i.toInt64.toInt = i := by
      rw [Int32.toInt_toInt64, Int32.ofInt_toInt]
    constructor <;> intro _ hget <;> simp only [getString?, getUuid?, getInteger?, getLong?,
      getFloat?, getDouble?, hvalue, hstored, if_pos hshort, hback, reduceCtorEq] at hget ⊢
    all_goals exact hget

end Metadata

end VectorTable
