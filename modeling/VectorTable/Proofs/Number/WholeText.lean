import Mathlib.Data.List.TakeWhile
import VectorTable.Proofs.Number.Parse

/-!
# VectorTable — whole numbers as written and parsed

An integer is written by its digits, and so is a float that is a whole number, with zeros behind its
shortest digits. Either text is parsed as an integer if the number fits 64 bits.

* `Decimal.WritesInt` — the texts of whole numbers;
* `Decimal.plain_cases` — positional notation is such a text or has a point;
* `Int64.parse?_eq` — the numbers that are parsed;
* `Binary.ofInt_eq_ofDecimal` — the float that is nearest to a whole number.
-/

namespace VectorTable

/-! ## Texts of whole numbers -/

/-- A text is that of a whole number: its digits, perhaps after a minus. Zero may have a minus, too,
as floats have a negative zero. -/
inductive Decimal.WritesInt : List Char → Int → Prop where
  | digits (n : Nat) : WritesInt (Nat.toDigits 10 n) n
  | minus (n : Nat) : WritesInt ('-' :: Nat.toDigits 10 n) (-n)

/-- A whole number that fits 64 bits with its sign. -/
def InLongRange (i : Int) : Prop := -0x8000000000000000 ≤ i ∧ i < 0x8000000000000000

instance (i : Int) : Decidable (InLongRange i) := inferInstanceAs (Decidable (_ ∧ _))

/-- A whole number of 32 bits fits 64 bits. -/
theorem inLongRange_toInt (i : Int32) : InLongRange i.toInt := by
  have hlow := i.le_toInt
  have hhigh := i.toInt_lt
  unfold InLongRange
  omega

namespace Decimal

/-- A minus and the digits of a number write its negation. -/
theorem writesInt_signed (negative : Bool) (n : Nat) :
    WritesInt ((if negative then ['-'] else []) ++ Nat.toDigits 10 n)
      (if negative then -n else n) := by
  cases negative with
  | true => exact .minus n
  | false => exact .digits n

/-- A whole number is written by its text. -/
theorem writesInt_toString (i : Int) : WritesInt (toString i).toList i := by
  cases i with
  | ofNat n =>
    have htext : (toString (Int.ofNat n)).toList = Nat.toDigits 10 n := Nat.toList_repr
    exact htext ▸ .digits n
  | negSucc n =>
    have htext : (toString (Int.negSucc n)).toList = '-' :: Nat.toDigits 10 (n + 1) := by
      show ("-" ++ Nat.repr (n + 1)).toList = _
      rw [String.toList_append, Nat.toList_repr]
      rfl
    exact htext ▸ .minus (n + 1)

/-- The digits of a number are read up to the last. -/
theorem readDigits_toDigits (n : Nat) :
    readDigits (Nat.toDigits 10 n) = (Nat.toDigits 10 n, []) := by
  have hread : readDigits (Nat.toDigits 10 n ++ []) = (Nat.toDigits 10 n, []) :=
    readDigits_append (wholeDigits_toDigits n).digits nofun
  rwa [List.append_nil] at hread

/-- The text of a whole number is parsed as the number. -/
theorem WritesInt.parseInt? {text : List Char} {i : Int} (h : WritesInt text i) :
    Decimal.parseInt? text = some i := by
  have hdigits (n : Nat) : ∃ first rest, Nat.toDigits 10 n = first :: rest ∧
      first.isDigit = true ∧ Nat.ofDigitChars 10 (first :: rest) 0 = n := by
    obtain ⟨first, rest, htext, hfirst⟩ := (wholeDigits_toDigits n).exists_cons
    exact ⟨first, rest, htext, hfirst, htext ▸ Nat.ofDigitChars_ten_toDigits⟩
  unfold Decimal.parseInt?
  cases h with
  | digits n =>
    obtain ⟨first, rest, htext, hfirst, hvalue⟩ := hdigits n
    have hread := readDigits_toDigits n
    rw [htext] at hread ⊢
    simp only [readSign_digit hfirst, hread]
    simp [hvalue]
  | minus n =>
    obtain ⟨first, rest, htext, -, hvalue⟩ := hdigits n
    have hread := readDigits_toDigits n
    rw [htext] at hread ⊢
    simp only [readSign, hread]
    simp [hvalue]

/-- What is parsed as a whole number has no point. -/
theorem no_point_of_parseInt? {text : List Char} {i : Int} (h : Decimal.parseInt? text = some i) :
    '.' ∉ text := by
  have hsign : '.' ∈ text → '.' ∈ (readSign text).2 := by
    unfold readSign
    split <;> simp
  intro hmem
  unfold Decimal.parseInt? at h
  dsimp only at h
  split at h
  · cases h
  · -- The text behind the sign has been read to its end, so it consists of digits.
    rename_i digits _ hread
    have hall : ∀ c ∈ (readSign text).2, c.isDigit = true :=
      List.dropWhile_eq_nil_iff.mp (Prod.mk.inj hread).2
    cases hall '.' (hsign hmem)
  · cases h

/-- The text of a whole number has no point. -/
theorem WritesInt.no_point {text : List Char} {i : Int} (h : WritesInt text i) : '.' ∉ text :=
  no_point_of_parseInt? h.parseInt?

/-- A text writes at most one whole number. -/
theorem WritesInt.unique {text : List Char} {i j : Int} (hi : WritesInt text i)
    (hj : WritesInt text j) : i = j :=
  Option.some.inj (hi.parseInt?.symm.trans hj.parseInt?)

end Decimal

/-- The text of a whole number is read as one of 64 bits, if it fits there. -/
theorem Int64.parse?_eq {text : List Char} {i : Int} (h : Decimal.parseInt? text = some i) :
    Int64.parse? text = if InLongRange i then some (Int64.ofInt i) else none := by
  have hmin : Int64.minValue.toInt = -0x8000000000000000 := rfl
  have hmax : Int64.maxValue.toInt = 0x7fffffffffffffff := rfl
  unfold Int64.parse?
  rw [h, Option.bind_some, hmin, hmax]
  refine if_congr ?_ rfl rfl
  rw [Bool.and_eq_true, decide_eq_true_eq, decide_eq_true_eq, InLongRange]
  omega

/-! ## Floats that are whole numbers -/

/-- Zeros at the end of the digits are factors of ten. -/
theorem toDigits_mul_pow {n : Nat} (hn : n ≠ 0) (k : Nat) :
    Nat.toDigits 10 (n * 10 ^ k) = Nat.toDigits 10 n ++ List.replicate k '0' := by
  induction k with
  | zero => simp
  | succ k ih =>
    have hten : n * 10 ^ (k + 1) = n * 10 ^ k * 10 := by rw [Nat.pow_succ, Nat.mul_assoc]
    have hpos : 0 < n * 10 ^ k := Nat.mul_pos (Nat.pos_of_ne_zero hn) (Nat.pow_pos (by decide))
    rw [hten, Nat.toDigits_of_base_le (by decide) (by omega), Nat.mul_div_cancel _ (by decide),
      Nat.mul_mod_left, ih, List.append_assoc, List.replicate_succ']
    rfl

namespace Decimal

/-- Positional notation is that of a whole number or has a point. -/
theorem plain_cases {d : Decimal} (hzero : d.coefficient = 0 → d.exponent = 0) :
    (∃ k : Nat, d.exponent = k ∧ d.plain = (if d.negative then ['-'] else []) ++
        Nat.toDigits 10 (d.coefficient * 10 ^ k)) ∨ '.' ∈ d.plain := by
  unfold plain signChars positional
  cases hexponent : d.exponent with
  | ofNat k =>
    left
    refine ⟨k, rfl, ?_⟩
    by_cases hc : d.coefficient = 0
    · obtain rfl : k = 0 := Int.ofNat.inj (hexponent.symm.trans (hzero hc))
      simp [digits]
    · -- The zeros behind the digits are those of the power of ten.
      rw [toDigits_mul_pow hc]
      rfl
  | negSucc k =>
    -- The point stands among the digits or before them.
    right
    refine List.mem_append_right _ ?_
    dsimp only
    split <;> simp

end Decimal

namespace Binary

variable {f : Format}

/-- A whole number written as a decimal is converted as the decimal is rounded. Only a minus before
zero gets lost, and zero is zero with either sign. -/
theorem ofInt_eq_ofDecimal (negative : Bool) (c k : Nat) :
    (ofInt (if negative then -(c * 10 ^ k : ℕ) else (c * 10 ^ k : ℕ)) : Binary f).eq
      (ofDecimal ⟨negative, c, k⟩) = true := by
  have hround : f.round (c * 10 ^ k * 2 ^ f.places) 1 = f.roundDecimal c k := by
    rw [f.roundDecimal_eq]
    simp
  have hzero : c * 10 ^ k = 0 → f.roundDecimal c k = 0 := by
    intro hn
    obtain rfl := (Nat.mul_eq_zero.mp hn).resolve_right (Nat.pow_pos (by decide)).ne'
    exact f.roundDecimal_zero k
  generalize c * 10 ^ k = n at hround hzero
  have habs : (if negative then -(n : Int) else n).natAbs = n := by
    cases negative <;> simp
  simp only [ofInt, ofQuotient, ofDecimal, ofOrdinal, eq, key, habs, Nat.pow_eq, hround]
  -- The signs of a zero may differ, which the comparison does not see.
  by_cases hn : n = 0
  · simp [hzero hn]
  · cases negative <;> simp [hn]

end Binary

end VectorTable
