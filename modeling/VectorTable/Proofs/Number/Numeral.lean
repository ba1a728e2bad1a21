import Mathlib.Data.List.Basic
import VectorTable.Json.Basic
import VectorTable.Proofs.Number.Shortest

/-!
# VectorTable — notations of a decimal

Every notation that decimals are written in consists of the same parts, some of them missing:
digits, a point with more digits, and an exponent. Whichever notation is chosen, the parts have
the value of the decimal.

* `Numeral` — the parts of a notation;
* `Numeral.exists_floatChars` — the parts of a float in JSON.
-/

namespace VectorTable

/-! ## Digits -/

/-- A text does not go on with a digit. -/
def NoDigit (rest : List Char) : Prop := ∀ c ∈ rest.head?, c.isDigit = false

theorem noDigit_cons {c : Char} {rest : List Char} (h : c.isDigit = false) :
    NoDigit (c :: rest) := by
  intro d hd
  obtain rfl := Option.some.inj hd
  exact h

/-- Digits are read up to the first other character. -/
theorem Decimal.readDigits_append {digits rest : List Char}
    (hdigits : ∀ c ∈ digits, c.isDigit = true)
    (hrest : NoDigit rest) : Decimal.readDigits (digits ++ rest) = (digits, rest) := by
  have hstop : rest.takeWhile Char.isDigit = [] ∧ rest.dropWhile Char.isDigit = rest := by
    cases rest with
    | nil => exact ⟨rfl, rfl⟩
    | cons c rest =>
      have hc := hrest c rfl
      exact ⟨List.takeWhile_cons_of_neg (by simp [hc]), List.dropWhile_cons_of_neg (by simp [hc])⟩
  rw [Decimal.readDigits, List.takeWhile_append_of_pos hdigits,
    List.dropWhile_append_of_pos hdigits, hstop.1, hstop.2, List.append_nil]

/-- A digit is not a sign. -/
theorem Decimal.readSign_digit {c : Char} (hc : c.isDigit = true) (rest : List Char) :
    Decimal.readSign (c :: rest) = (false, c :: rest) := by
  unfold Decimal.readSign
  split
  · rename_i heq
    cases heq
    cases hc
  · rename_i heq
    cases heq
    cases hc
  · rfl

/-- The digits of a decimal are digits. -/
theorem Decimal.isDigit_digits (d : Decimal) : ∀ c ∈ d.digits, c.isDigit = true :=
  fun _ hc => Nat.isDigit_of_mem_toDigits (by decide) (by decide) hc

theorem isDigit_replicate_zero (n : Nat) : ∀ c ∈ List.replicate n '0', c.isDigit = true := by
  intro c hc
  rw [List.eq_of_mem_replicate hc]
  rfl

/-- The digits of a number that is not zero do not start with zero. -/
theorem exists_toDigits {n : Nat} (h : n ≠ 0) :
    ∃ first rest, Nat.toDigits 10 n = first :: rest ∧ first ≠ '0' := by
  induction n using Nat.strong_induction_on with
  | _ n ih =>
    by_cases hsmall : n < 10
    · refine ⟨n.digitChar, [], Nat.toDigits_of_lt_base hsmall, fun hzero => h ?_⟩
      have hback := Nat.toNat_digitChar_sub_48_of_lt_ten hsmall
      rw [hzero] at hback
      exact hback.symm
    · obtain ⟨first, rest, hdigits, hfirst⟩ := ih (n / 10) (by omega) (by omega)
      exact ⟨first, rest ++ [(n % 10).digitChar],
        by rw [Nat.toDigits_of_base_le (by decide) (by omega), hdigits, List.cons_append], hfirst⟩

/-- The digits of a whole number: at least one, and no zero before other digits. -/
structure WholeDigits (whole : List Char) : Prop where
  digits : ∀ c ∈ whole, c.isDigit = true
  head : whole = ['0'] ∨ ∃ first rest, whole = first :: rest ∧ first ≠ '0'

/-- A whole part has at least one digit. -/
theorem WholeDigits.exists_cons {whole : List Char} (h : WholeDigits whole) :
    ∃ first rest, whole = first :: rest ∧ first.isDigit = true := by
  rcases h.head with rfl | ⟨first, rest, rfl, -⟩
  · exact ⟨'0', [], rfl, rfl⟩
  · exact ⟨first, rest, rfl, h.digits first List.mem_cons_self⟩

/-- A number starts with a minus or a digit. -/
theorem WholeDigits.exists_head {whole : List Char} (h : WholeDigits whole) (negative : Bool)
    (tail : List Char) :
    ∃ c rest, (if negative then ['-'] else []) ++ whole ++ tail = c :: rest ∧
      (c = '-' ∨ c.isDigit = true) := by
  cases negative with
  | true => exact ⟨'-', whole ++ tail, rfl, .inl rfl⟩
  | false =>
    obtain ⟨first, rest, rfl, hdigit⟩ := h.exists_cons
    exact ⟨first, rest ++ tail, rfl, .inr hdigit⟩

/-- A natural number is written without a needless zero. -/
theorem wholeDigits_toDigits (n : Nat) : WholeDigits (Nat.toDigits 10 n) where
  digits _ hc := Nat.isDigit_of_mem_toDigits (by decide) (by decide) hc
  head := by
    by_cases h : n = 0
    · exact .inl (by rw [h, Nat.toDigits_zero])
    · exact .inr (exists_toDigits h)

/-! ## Parts -/

/-- The parts of a numeral. An empty fraction has no point before it. -/
structure Numeral where
  negative : Bool
  whole : List Char
  fraction : List Char
  exponent : Option Int

namespace Numeral

/-- A sign, always written. -/
def signedDigits (e : Int) : List Char := (if e < 0 then '-' else '+') :: Nat.toDigits 10 e.natAbs

/-- The text of the parts. -/
def chars (n : Numeral) : List Char :=
  (if n.negative then ['-'] else []) ++ n.whole ++
    (if n.fraction = [] then [] else '.' :: n.fraction) ++
    n.exponent.elim [] fun e => 'e' :: signedDigits e

/-- The decimal with these parts. -/
def value (n : Numeral) : Decimal := .ofParts n.negative n.whole n.fraction (n.exponent.getD 0)

/-- The parts before and after the point are digits. -/
structure Proper (n : Numeral) : Prop where
  whole : WholeDigits n.whole
  fraction : ∀ c ∈ n.fraction, c.isDigit = true

/-- The numeral is written like a float, not like a whole number. -/
def IsFloat (n : Numeral) : Prop := n.fraction ≠ [] ∨ n.exponent.isSome

/-- The numeral has the value of a decimal, up to zeros at the end of its coefficient. -/
def Denotes (n : Numeral) (d : Decimal) : Prop :=
  ∃ k : Nat, n.value = ⟨d.negative, d.coefficient * 10 ^ k, d.exponent - k⟩

/-- The numeral writes a decimal as a text. -/
structure Writes (n : Numeral) (d : Decimal) (text : List Char) : Prop where
  proper : n.Proper
  isFloat : n.IsFloat
  denotes : n.Denotes d
  chars : text = n.chars

/-- A numeral is rounded like the decimal that it denotes. -/
theorem Denotes.ofDecimal {f : Format} {n : Numeral} {d : Decimal} (h : n.Denotes d) :
    (Binary.ofDecimal n.value : Binary f) = Binary.ofDecimal d := by
  obtain ⟨k, hvalue⟩ := h
  simp only [hvalue, Binary.ofDecimal, Binary.ofOrdinal, f.roundDecimal_shift]

/-! ## Notations -/

variable {d : Decimal}

/-- Digits, with zeros after them, before a single zero behind the point. -/
theorem exists_wholeChars {k : Nat} (hexponent : d.exponent = k)
    (hzero : d.coefficient = 0 → d.exponent = 0) :
    ∃ n : Numeral, n.Writes d (d.signChars ++ (d.positional ++ ['.', '0'])) := by
  have hpositional : d.positional = d.digits ++ List.replicate k '0' := by
    unfold Decimal.positional
    rw [hexponent]
  -- The zero behind the point makes one more zero at the end of the coefficient.
  refine ⟨⟨d.negative, d.digits ++ List.replicate k '0', ['0'], none⟩, ⟨⟨?_, ?_⟩, ?_⟩,
    .inl (List.cons_ne_nil _ _), ⟨k + 1, ?_⟩, ?_⟩
  · intro c hc
    exact (List.mem_append.mp hc).elim (d.isDigit_digits c) (isDigit_replicate_zero k c)
  · by_cases hc : d.coefficient = 0
    · have hk : k = 0 := by
        have := hzero hc
        omega
      exact .inl (by simp [Decimal.digits, hc, hk])
    · obtain ⟨first, rest, hdigits, hfirst⟩ := exists_toDigits hc
      exact .inr ⟨first, rest ++ List.replicate k '0', by rw [Decimal.digits, hdigits]; rfl, hfirst⟩
  · simp
  · have hcoefficient : Nat.ofDigitChars 10 (d.digits ++ List.replicate k '0' ++ ['0']) 0
        = d.coefficient * 10 ^ (k + 1) := by
      rw [Nat.ofDigitChars_append, Nat.ofDigitChars_append, Decimal.digits,
        Nat.ofDigitChars_ten_toDigits, Nat.ofDigitChars_replicate_zero, Nat.ofDigitChars_cons,
        Nat.ofDigitChars_nil, Nat.pow_succ]
      simp
      ring
    simp only [value, Decimal.ofParts, hcoefficient, hexponent, Option.getD_none]
    congr 1
    simp
  · simp [chars, hpositional, Decimal.signChars]

/-- A point among the digits. -/
theorem exists_pointChars_among {k : Nat} (hexponent : d.exponent = Int.negSucc k)
    (hzero : d.coefficient ≠ 0) (hlength : k + 1 < d.digits.length) :
    ∃ n : Numeral, n.Writes d (d.signChars ++ d.positional) := by
  obtain ⟨first, rest, hdigits, hfirst⟩ := exists_toDigits hzero
  have hvalue : Nat.ofDigitChars 10 d.digits 0 = d.coefficient := Nat.ofDigitChars_ten_toDigits
  have hpositional : d.positional = d.digits.take (d.digits.length - (k + 1)) ++
      '.' :: d.digits.drop (d.digits.length - (k + 1)) := by
    unfold Decimal.positional
    rw [hexponent]
    exact if_pos hlength
  have hfraction : (d.digits.drop (d.digits.length - (k + 1))).length = k + 1 := by
    rw [List.length_drop]
    omega
  have hne : d.digits.drop (d.digits.length - (k + 1)) ≠ [] := by
    intro hnil
    rw [hnil] at hfraction
    cases hfraction
  -- The point stands among the digits, so that some of them are in front.
  refine ⟨⟨d.negative, d.digits.take (d.digits.length - (k + 1)),
    d.digits.drop (d.digits.length - (k + 1)), none⟩, ⟨⟨?_, .inr ?_⟩, ?_⟩, .inl hne, ⟨0, ?_⟩, ?_⟩
  · exact fun c hc => d.isDigit_digits c (List.mem_of_mem_take hc)
  · obtain ⟨j, hj⟩ : ∃ j, d.digits.length - (k + 1) = j + 1 :=
      ⟨d.digits.length - (k + 1) - 1, by omega⟩
    exact ⟨first, rest.take j, by rw [hj, Decimal.digits, hdigits, List.take_succ_cons], hfirst⟩
  · exact fun c hc => d.isDigit_digits c (List.mem_of_mem_drop hc)
  · simp only [value, Decimal.ofParts, List.take_append_drop, hvalue, hfraction, hexponent]
    simp [Int.negSucc_eq]
  · simp [chars, hpositional, Decimal.signChars, hne]

/-- All digits behind the point, after as many zeros as are missing. -/
theorem exists_pointChars_before {k : Nat} (hexponent : d.exponent = Int.negSucc k)
    (hlength : ¬ k + 1 < d.digits.length) :
    ∃ n : Numeral, n.Writes d (d.signChars ++ d.positional) := by
  have hvalue : Nat.ofDigitChars 10 d.digits 0 = d.coefficient := Nat.ofDigitChars_ten_toDigits
  have hpositional : d.positional =
      '0' :: '.' :: (List.replicate (k + 1 - d.digits.length) '0' ++ d.digits) := by
    unfold Decimal.positional
    rw [hexponent]
    exact if_neg hlength
  have hne : List.replicate (k + 1 - d.digits.length) '0' ++ d.digits ≠ [] := by
    simp [Decimal.digits]
  have hfraction : (List.replicate (k + 1 - d.digits.length) '0' ++ d.digits).length = k + 1 := by
    rw [List.length_append, List.length_replicate]
    omega
  have hcoefficient : Nat.ofDigitChars 10
      (['0'] ++ (List.replicate (k + 1 - d.digits.length) '0' ++ d.digits)) 0
        = d.coefficient := by
    rw [List.singleton_append, Nat.ofDigitChars_cons, Nat.ofDigitChars_append]
    simpa using hvalue
  -- All digits stand behind the point, after as many zeros as are missing.
  refine ⟨⟨d.negative, ['0'], List.replicate (k + 1 - d.digits.length) '0' ++ d.digits, none⟩,
    ⟨⟨by simp, .inl rfl⟩, ?_⟩, .inl hne, ⟨0, ?_⟩, ?_⟩
  · intro c hc
    exact (List.mem_append.mp hc).elim (isDigit_replicate_zero _ c) (d.isDigit_digits c)
  · simp only [value, Decimal.ofParts, hcoefficient, hfraction, hexponent]
    simp [Int.negSucc_eq]
  · simp [chars, hpositional, Decimal.signChars, hne]

/-- One digit before the point and an exponent. -/
theorem exists_scientificChars (hzero : d.coefficient ≠ 0) :
    ∃ n : Numeral, n.Writes d (d.signChars ++ d.scientific) := by
  obtain ⟨first, rest, hdigits, hfirst⟩ := exists_toDigits hzero
  have hd : d.digits = first :: rest := hdigits
  have hvalue : Nat.ofDigitChars 10 (first :: rest) 0 = d.coefficient := by
    rw [← hd]
    exact Nat.ofDigitChars_ten_toDigits
  -- One digit stands in front of the point, and the exponent says where the point belongs.
  refine ⟨⟨d.negative, [first], rest, some (d.digits.length + d.exponent - 1)⟩,
    ⟨⟨?_, .inr ⟨first, [], rfl, hfirst⟩⟩, ?_⟩, .inr rfl, ⟨0, ?_⟩, ?_⟩
  · intro c hc
    obtain rfl := List.mem_singleton.mp hc
    exact d.isDigit_digits c (hd ▸ List.mem_cons_self)
  · exact fun c hc => d.isDigit_digits c (hd ▸ List.mem_cons_of_mem _ hc)
  · simp only [value, Decimal.ofParts, List.singleton_append, hvalue, Option.getD_some, hd,
      List.length_cons]
    congr 1
    · simp
    · push_cast
      omega
  · unfold Decimal.scientific
    cases rest with
    | nil => simp [chars, Decimal.signChars, hd, signedDigits]
    | cons second rest => simp [chars, Decimal.signChars, hd, signedDigits]

/-- **Every notation is made of parts** that are proper, written like a float, and denote the
decimal. -/
theorem exists_floatChars (hzero : d.coefficient = 0 → d.exponent = 0) :
    ∃ n : Numeral, n.Writes d (Json.floatChars d) := by
  unfold Json.floatChars
  dsimp only
  by_cases hc : d.coefficient = 0
  · -- The decimal is zero, which is written with a point.
    have hexponent := hzero hc
    rw [if_pos (by simp [Decimal.digits, hc, hexponent]), if_pos (by simp [hexponent])]
    exact exists_wholeChars (k := 0) (by simpa using hexponent) hzero
  · split
    · split
      · rename_i hexponent
        -- A whole number gets its zeros, and a point.
        exact exists_wholeChars (Int.toNat_of_nonneg hexponent).symm hzero
      · rename_i hexponent
        obtain ⟨k, hk⟩ := Int.eq_negSucc_of_lt_zero (Int.not_le.mp hexponent)
        by_cases hlength : k + 1 < d.digits.length
        · exact exists_pointChars_among hk hc hlength
        · exact exists_pointChars_before hk hlength
    · exact exists_scientificChars hc

end Numeral

end VectorTable
