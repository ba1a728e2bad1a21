import VectorTable.Proofs.Json.Number

/-!
# VectorTable — floats as written and parsed

A float is displayed in positional notation, and whoever parses the text gets the value of its
digits, rounded to their own format. So a display that is parsed in the same format gives the float
back, and in another format the rounded shortest decimal.

* `Numeral.parse?_chars` — the value of a numeral is parsed;
* `Binary.parse?_plain` — so is that of a decimal in positional notation.
-/

namespace VectorTable

/-- Digits have no upper case. -/
theorem toLower_of_isDigit {c : Char} (h : c.isDigit = true) : c.toLower = c := by
  unfold Char.isDigit at h
  rw [Bool.and_eq_true, decide_eq_true_eq, decide_eq_true_eq] at h
  have hnine : c.val.toNat ≤ 57 := UInt32.le_iff_toNat_le.mp h.2
  unfold Char.toLower
  rw [dif_neg]
  rintro ⟨hupper, -⟩
  have hletter : 65 ≤ c.val.toNat := UInt32.le_iff_toNat_le.mp hupper
  omega

namespace Numeral

/-- The text of a numeral without its sign. -/
def unsigned (n : Numeral) : List Char :=
  n.whole ++ ((if n.fraction = [] then [] else '.' :: n.fraction) ++
    n.exponent.elim [] fun e => 'e' :: signedDigits e)

/-- A numeral is its sign, if it has one, and what stands behind the sign. -/
theorem chars_eq (n : Numeral) : n.chars = (if n.negative then ['-'] else []) ++ n.unsigned := by
  simp only [chars, unsigned, List.append_assoc]

variable {n : Numeral}

/-- The parts are told from one another by the characters between them. -/
theorem parse?_unsigned (h : n.Proper) :
    Decimal.parse? n.negative n.unsigned = some n.value := by
  have hend : Json.EndsNumber [] := nofun
  have hexponent := Json.readExponent_numeral n hend
  rw [List.append_nil] at hexponent
  generalize htail : (n.exponent.elim [] fun e => 'e' :: signedDigits e) = tail at hexponent
  -- What stands behind the fraction is nothing, or an exponent.
  have hstop : NoDigit tail ∧ ∀ c ∈ tail.head?, c ≠ '.' := by
    rw [← htail]
    cases n.exponent with
    | none => exact ⟨nofun, nofun⟩
    | some e =>
      refine ⟨noDigit_cons rfl, ?_⟩
      intro c hc
      obtain rfl := Option.some.inj hc
      decide
  have hpoint : NoDigit ((if n.fraction = [] then [] else '.' :: n.fraction) ++ tail) := by
    split
    · exact hstop.1
    · exact noDigit_cons rfl
  have hfraction : Decimal.readFraction
      ((if n.fraction = [] then [] else '.' :: n.fraction) ++ tail) = (n.fraction, tail) := by
    split
    · rename_i hnil
      rw [hnil, List.nil_append]
      unfold Decimal.readFraction
      split
      · exact absurd rfl (hstop.2 '.' rfl)
      · rfl
    · exact Decimal.readDigits_append h.fraction hstop.1
  obtain ⟨first, rest, hwhole, -⟩ := h.whole.exists_cons
  unfold Decimal.parse? unsigned
  rw [htail, Decimal.readDigits_append h.whole.digits hpoint]
  simp only [hfraction, hexponent]
  rw [if_neg (by simp [hwhole])]
  rfl

/-- **The value of a numeral** is parsed from its text. -/
theorem parse?_chars {f : Format} (h : n.Proper) :
    (Binary.parse? n.chars : Option (Binary f)) = some (.ofDecimal n.value) := by
  obtain ⟨first, rest, hwhole, hdigit⟩ := h.whole.exists_cons
  obtain ⟨more, hmore⟩ : ∃ more, n.unsigned = first :: more := by
    unfold unsigned
    rw [hwhole]
    exact ⟨_, rfl⟩
  have hsign : Decimal.readSign n.chars = (n.negative, n.unsigned) := by
    rw [chars_eq, hmore]
    cases n.negative with
    | true => rfl
    | false => exact Decimal.readSign_digit hdigit more
  -- No word begins with a digit.
  have hword (word : String) (hletter : word.toList.head?.any Char.isDigit = false) :
      String.ofList (n.unsigned.map Char.toLower) ≠ word := by
    rintro rfl
    rw [hmore, List.map_cons, toLower_of_isDigit hdigit, String.toList_ofList, List.head?_cons,
      Option.any_some, hdigit] at hletter
    cases hletter
  unfold Binary.parse?
  rw [hsign]
  dsimp only
  rw [if_neg, if_neg (hword "nan" (by decide)), parse?_unsigned h, Option.map_some]
  simp [hword "inf" (by decide), hword "infinity" (by decide)]

/-- Positional notation is made of the parts of a numeral without an exponent. -/
theorem exists_plainChars {d : Decimal} (hzero : d.coefficient = 0 → d.exponent = 0) :
    ∃ n : Numeral, n.Proper ∧ n.Denotes d ∧ d.plain = n.chars := by
  cases hexponent : d.exponent with
  | ofNat k =>
    have hpositional : d.positional = d.digits ++ List.replicate k '0' := by
      unfold Decimal.positional
      rw [hexponent]
    refine ⟨⟨d.negative, d.digits ++ List.replicate k '0', [], none⟩, ⟨⟨?_, ?_⟩, nofun⟩, ⟨k, ?_⟩,
      ?_⟩
    · intro c hc
      exact (List.mem_append.mp hc).elim (d.isDigit_digits c) (isDigit_replicate_zero k c)
    · by_cases hc : d.coefficient = 0
      · obtain rfl : k = 0 := Int.ofNat.inj (hexponent.symm.trans (hzero hc))
        exact .inl (by simp [Decimal.digits, hc])
      · obtain ⟨first, rest, hdigits, hfirst⟩ := exists_toDigits hc
        exact .inr ⟨first, rest ++ List.replicate k '0',
          by rw [Decimal.digits, hdigits]; rfl, hfirst⟩
    · have hcoefficient : Nat.ofDigitChars 10 (d.digits ++ List.replicate k '0' ++ []) 0 =
          d.coefficient * 10 ^ k := by
        rw [List.append_nil, Nat.ofDigitChars_append, Decimal.digits,
          Nat.ofDigitChars_ten_toDigits, Nat.ofDigitChars_replicate_zero, Nat.mul_comm]
      simp only [value, Decimal.ofParts, hcoefficient, hexponent, Option.getD_none]
      congr 1
      simp
    · simp [chars, Decimal.plain, hpositional, Decimal.signChars]
  | negSucc k =>
    by_cases hlength : k + 1 < d.digits.length
    · have hc : d.coefficient ≠ 0 := by
        intro hc
        have := hzero hc
        rw [hexponent] at this
        cases this
      obtain ⟨n, hn⟩ := exists_pointChars_among hexponent hc hlength
      exact ⟨n, hn.proper, hn.denotes, hn.chars⟩
    · obtain ⟨n, hn⟩ := exists_pointChars_before hexponent hlength
      exact ⟨n, hn.proper, hn.denotes, hn.chars⟩

end Numeral

/-- The text of a finite float is its shortest decimal in positional notation. -/
theorem Binary.toList_display {f : Format} (negative : Bool) (m : Fin (f.infinity + 1))
    (h : m.val ≠ f.infinity) : (display (.signed negative m)).toList =
      Decimal.plain ⟨negative, (f.shortest .up m.val).1, (f.shortest .up m.val).2⟩ := by
  simp only [display, if_neg h, String.toList_ofList]

/-- **Positional notation is parsed** as the rounded decimal. -/
theorem Binary.parse?_plain {f : Format} {d : Decimal}
    (hzero : d.coefficient = 0 → d.exponent = 0) :
    (Binary.parse? d.plain : Option (Binary f)) = some (.ofDecimal d) := by
  obtain ⟨n, hproper, hdenotes, hplain⟩ := Numeral.exists_plainChars hzero
  rw [hplain, Numeral.parse?_chars hproper, hdenotes.ofDecimal]

end VectorTable
