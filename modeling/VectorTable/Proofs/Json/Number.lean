import VectorTable.Json.Reader
import VectorTable.Proofs.Number.Numeral

/-!
# VectorTable — JSON numbers as written and read

A number is read back as it was written, wherever its text does not run on into another number.

* `Json.readNumber_chars` — the number before any such text.
-/

namespace VectorTable.Json

/-- No number goes on with this text. -/
def EndsNumber (rest : List Char) : Prop :=
  ∀ c ∈ rest.head?, c.isDigit = false ∧ c ≠ '.' ∧ c ≠ 'e' ∧ c ≠ 'E'

theorem EndsNumber.noDigit {rest : List Char} (h : EndsNumber rest) : NoDigit rest :=
  fun c hc => (h c hc).1

/-- A literal of digits ends where its number does. -/
theorem EndsNumber.isWholeLiteral {rest : List Char} (h : EndsNumber rest) :
    isWholeLiteral rest = true := by
  cases rest with
  | nil => rfl
  | cons c rest =>
    obtain ⟨-, hpoint, hlower, hupper⟩ := h c rfl
    simp [Json.isWholeLiteral, hpoint, hlower, hupper]

/-! ## Parts -/

/-- Digits without a needless zero are read up to what is no digit. -/
theorem readWhole_append {whole rest : List Char} (hwhole : WholeDigits whole)
    (hrest : NoDigit rest) : readWhole (whole ++ rest) = some (whole, rest) := by
  rw [readWhole, Decimal.readDigits_append hwhole.digits hrest]
  rcases hwhole.head with rfl | ⟨first, tail, rfl, hfirst⟩
  · rfl
  · split
    · rename_i h
      cases h
    · rename_i h
      cases h
      exact absurd rfl hfirst
    · rfl

/-- The sign is told from the digits. -/
theorem read_sign {whole : List Char} (hwhole : WholeDigits whole) (negative : Bool)
    (rest : List Char) :
    let s := (if negative then ['-'] else []) ++ whole ++ rest
    decide (s.head? = some '-') = negative ∧
      (if negative then s.drop 1 else s) = whole ++ rest := by
  cases negative with
  | true => simp
  | false =>
    obtain ⟨first, tail, rfl, hdigit⟩ := hwhole.exists_cons
    have hfirst : first ≠ '-' := by
      rintro rfl
      cases hdigit
    simp [hfirst]

/-- A number without point and exponent. -/
theorem readNumber_whole (negative : Bool) {whole rest : List Char} (hwhole : WholeDigits whole)
    (hrest : EndsNumber rest) :
    readNumber ((if negative then ['-'] else []) ++ whole ++ rest)
      = some (Number.ofLiteral? negative whole, rest) := by
  obtain ⟨hsign, hdrop⟩ := read_sign hwhole negative rest
  unfold readNumber
  simp only [hsign]
  rw [hdrop, readWhole_append hwhole hrest.noDigit]
  simp [hrest.isWholeLiteral]

/-! ## Fractions and exponents -/

/-- A fraction is read back, where nothing but an exponent can follow an empty one. -/
theorem readFraction_append {fraction rest : List Char}
    (hdigits : ∀ c ∈ fraction, c.isDigit = true) (hrest : NoDigit rest)
    (hpoint : ∀ c ∈ rest.head?, c ≠ '.') :
    readFraction ((if fraction = [] then [] else '.' :: fraction) ++ rest)
      = some (fraction, rest) := by
  split
  · rename_i hnil
    subst hnil
    rw [List.nil_append]
    unfold readFraction
    split
    · -- A point behind the text would be taken for one of its own.
      exact absurd rfl (hpoint '.' rfl)
    · rfl
  · rename_i hne
    rw [List.cons_append, readFraction, Decimal.readDigits_append hdigits hrest]
    split
    · rename_i h
      cases h
      exact absurd rfl hne
    · rfl

/-- The sign of an exponent is always written, and tells it from the digits. -/
theorem readExponent_signedDigits (e : Int) {rest : List Char} (hrest : NoDigit rest) :
    Decimal.readExponent ('e' :: Numeral.signedDigits e ++ rest) = some (e, rest) := by
  have hread := Decimal.readDigits_append (wholeDigits_toDigits e.natAbs).digits hrest
  have hsize : Nat.ofDigitChars 10 (Nat.toDigits 10 e.natAbs) 0 = e.natAbs := by simp
  have hsome : (Nat.toDigits 10 e.natAbs).isEmpty = false := by simp
  unfold Numeral.signedDigits
  -- The sign is written for a negative exponent only.
  by_cases hneg : e < 0
  · have hback : -(e.natAbs : Int) = e := by omega
    simp only [if_pos hneg, List.cons_append, Decimal.readExponent, Decimal.readSign, hread, hsome,
      hsize, hback]
    rfl
  · have hback : (e.natAbs : Int) = e := by omega
    simp only [if_neg hneg, List.cons_append, Decimal.readExponent, Decimal.readSign, hread, hsome,
      hsize, hback]
    rfl

/-- A number with a point or an exponent, by its parts. -/
theorem readNumber_float (negative : Bool) {whole fraction point tail rest : List Char} {e : Int}
    (hwhole : WholeDigits whole) (hpoint : NoDigit point) (hkind : isWholeLiteral point = false)
    (hfraction : readFraction point = some (fraction, tail))
    (hexponent : Decimal.readExponent tail = some (e, rest)) :
    readNumber ((if negative then ['-'] else []) ++ whole ++ point) =
      some (Number.ofDouble? (Binary.ofDecimal (.ofParts negative whole fraction e)), rest) := by
  obtain ⟨hsign, hdrop⟩ := read_sign hwhole negative point
  unfold readNumber
  simp only [hsign]
  rw [hdrop, readWhole_append hwhole hpoint]
  simp only [Option.bind_eq_bind, Option.bind_some, hkind, Bool.false_eq_true, if_false, hfraction,
    hexponent]
  rfl

/-- Where a number ends there is no exponent. -/
theorem readExponent_of_endsNumber {rest : List Char} (hrest : EndsNumber rest) :
    Decimal.readExponent rest = some (0, rest) := by
  cases rest with
  | nil => rfl
  | cons c rest =>
    obtain ⟨-, -, hlower, hupper⟩ := hrest c rfl
    simp [Decimal.readExponent, hlower, hupper]

/-- The exponent of a numeral, if it has one, is read back. -/
theorem readExponent_numeral (n : Numeral) {rest : List Char} (hrest : EndsNumber rest) :
    Decimal.readExponent ((n.exponent.elim [] fun e => 'e' :: Numeral.signedDigits e) ++ rest)
      = some (n.exponent.getD 0, rest) := by
  cases n.exponent with
  | none => exact readExponent_of_endsNumber hrest
  | some e => exact readExponent_signedDigits e hrest.noDigit

/-- A number with a point or an exponent. -/
theorem readNumber_numeral {n : Numeral} (hproper : n.Proper) (hfloat : n.IsFloat)
    {rest : List Char} (hrest : EndsNumber rest) :
    readNumber (n.chars ++ rest)
      = some (Number.ofDouble? (Binary.ofDecimal n.value), rest) := by
  -- The text after the digits before the point, and the text after those behind it.
  let tail := (n.exponent.elim [] fun e => 'e' :: Numeral.signedDigits e) ++ rest
  let point := (if n.fraction = [] then [] else '.' :: n.fraction) ++ tail
  -- Neither of them can be read as more of the part before it.
  have htail : NoDigit tail ∧ ∀ c ∈ tail.head?, c ≠ '.' := by
    cases he : n.exponent with
    | none =>
      simp only [tail, he, Option.elim_none, List.nil_append]
      exact ⟨hrest.noDigit, fun c hc => (hrest c hc).2.1⟩
    | some e =>
      simp only [tail, he, Option.elim_some, List.cons_append]
      refine ⟨noDigit_cons rfl, fun c hc => ?_⟩
      obtain rfl := Option.some.inj hc
      decide
  have hpoint : NoDigit point ∧ isWholeLiteral point = false := by
    by_cases hfraction : n.fraction = []
    · obtain ⟨e, he⟩ := Option.isSome_iff_exists.mp (hfloat.resolve_left (· hfraction))
      simp only [point, tail, hfraction, he, if_true, Option.elim_some, List.nil_append,
        List.cons_append]
      exact ⟨noDigit_cons rfl, rfl⟩
    · simp only [point, hfraction, if_false, List.cons_append]
      exact ⟨noDigit_cons rfl, rfl⟩
  have hchars : n.chars ++ rest = (if n.negative then ['-'] else []) ++ n.whole ++ point := by
    simp only [Numeral.chars, point, tail, List.append_assoc]
  rw [hchars]
  exact readNumber_float n.negative hproper.whole hpoint.1 hpoint.2
    (readFraction_append hproper.fraction htail.1 htail.2) (readExponent_numeral n hrest)

/-! ## Numbers -/

/-- A whole number in the 64-bit range is kept as such. -/
theorem ofLiteral?_toDigits (i : Int) (h : -0x8000000000000000 ≤ i ∧ i < 0x10000000000000000) :
    Number.ofLiteral? (decide (i < 0)) (Nat.toDigits 10 i.natAbs) = some (.integer i h) := by
  unfold Number.ofLiteral?
  dsimp only
  rw [Nat.ofDigitChars_ten_toDigits]
  by_cases hneg : i < 0
  · have hsize : ¬ (i.natAbs = 0 ∨ 0x8000000000000000 < i.natAbs) := by omega
    have hvalue : -(i.natAbs : Int) = i := by omega
    rw [if_pos (decide_eq_true hneg), if_neg hsize, hvalue, Number.ofInt?, dif_pos h]
  · have hsize : i.natAbs < 0x10000000000000000 := by omega
    have hvalue : (i.natAbs : Int) = i := by omega
    rw [if_neg (by simpa using hneg), if_pos hsize, hvalue, Number.ofInt?, dif_pos h]

/-- A float is written by a numeral that rounds to it. -/
theorem exists_doubleChars (negative : Bool) (m : Fin (Format.double.infinity + 1)) :
    ∃ n : Numeral, n.Proper ∧ n.IsFloat ∧
      (Binary.ofDecimal n.value : Double) = .signed negative m ∧
      doubleChars (.signed negative m) = n.chars := by
  have hm : m.val ≤ Format.double.infinity := Nat.le_of_lt_succ m.isLt
  obtain ⟨n, hproper, hfloat, hdenotes, hchars⟩ := Numeral.exists_floatChars
    (d := ⟨negative, (Format.double.shortest .even m.val).1,
      (Format.double.shortest .even m.val).2⟩)
    fun hzero => by rw [Format.double.shortest_eq_zero hm hzero]
  refine ⟨n, hproper, hfloat, ?_, hchars⟩
  rw [hdenotes.ofDecimal]
  simp only [Binary.ofDecimal, Binary.ofOrdinal, Format.double.roundDecimal_shortest .even hm]

/-- A finite float is read back. -/
theorem readNumber_doubleChars (x : Double) (hx : x.isFinite = true) {rest : List Char}
    (hrest : EndsNumber rest) :
    readNumber (doubleChars x ++ rest) = some (some (.float x hx), rest) := by
  cases x with
  | nan => cases hx
  | signed negative m =>
    obtain ⟨n, hproper, hfloat, hvalue, hchars⟩ := exists_doubleChars negative m
    rw [hchars, readNumber_numeral hproper hfloat hrest, hvalue, Number.ofDouble?, dif_pos hx]

/-- A number starts with a minus or a digit. -/
theorem exists_chars_head (n : Number) :
    ∃ c rest, n.chars = c :: rest ∧ (c = '-' ∨ c.isDigit = true) := by
  cases n with
  | integer i h =>
    simpa [Number.chars] using (wholeDigits_toDigits i.natAbs).exists_head (decide (i < 0)) []
  | float x hx =>
    cases x with
    | nan => cases hx
    | signed negative m =>
      obtain ⟨n, hproper, -, -, hchars⟩ := exists_doubleChars negative m
      rw [Number.chars, hchars, Numeral.chars, List.append_assoc]
      exact hproper.whole.exists_head n.negative _

/-- **Numbers are read back** as they were written, before any text that does not go on with the
number. -/
theorem readNumber_chars (n : Number) {rest : List Char} (hrest : EndsNumber rest) :
    readNumber (n.chars ++ rest) = some (some n, rest) := by
  cases n with
  | float x hx => exact readNumber_doubleChars x hx hrest
  | integer i h =>
    have hread := readNumber_whole (decide (i < 0)) (wholeDigits_toDigits i.natAbs) hrest
    rw [ofLiteral?_toDigits i h] at hread
    simpa only [Number.chars, decide_eq_true_eq] using hread

end VectorTable.Json
