import VectorTable.Proofs.Number.WholeText
import VectorTable.Proofs.Row.RoundTrip

/-!
# VectorTable — numbers in numeric columns

A numeric column is written and read as text, and the text does not tell which kind of number it
was. Whatever looks like an integer of 64 bits is read as one, even if a double was written: 2 ^ 60
is displayed by its shortest digits, 1152921504606847000, and this is another integer. But the
nearest double to it is 2 ^ 60 again, so that the number is kept.

* `MetadataValue.IsWhole` — a whole number in the narrower of the two integer kinds;
* `MetadataValue.KeepsDouble` — what the text of a double may be read as;
* `Column.numeric_keeps_number` — numbers in numeric columns.
-/

namespace VectorTable

namespace MetadataValue

/-! ## Whole numbers -/

/-- The value is a whole number, an integer if the number fits 32 bits and a long otherwise. -/
inductive IsWhole (i : Int) : MetadataValue → Prop where
  | integer (n : Int32) (h : n.toInt = i) : IsWhole i (.integer n)
  | long (n : Int64) (h : n.toInt = i) (hlong : ¬ (-0x80000000 ≤ i ∧ i < 0x80000000)) :
    IsWhole i (.long n)

/-- A whole number that fits 64 bits is a value. -/
theorem isWhole_ofInt? {i : Int} (h : InLongRange i) :
    ∃ value, ofInt? i = some value ∧ value.IsWhole i := by
  unfold ofInt?
  split
  · rename_i hshort
    exact ⟨_, rfl, .integer _ (Int32.toInt_ofInt_of_le hshort.1 hshort.2)⟩
  · rename_i hlong
    exact ⟨_, if_pos h, .long _ (Int64.toInt_ofInt_of_le h.1 h.2) hlong⟩

/-- A whole number is a number. -/
theorem IsWhole.isNumeric {i : Int} {value : MetadataValue} (h : value.IsWhole i) :
    value.isNumeric = true := by
  cases h <;> rfl

/-- A whole number that fits 32 bits has one form only. -/
theorem IsWhole.eq_integer {i : Int32} {value : MetadataValue} (h : value.IsWhole i.toInt) :
    value = .integer i := by
  cases h with
  | integer n h => rw [Int32.toInt_inj.mp h]
  | long n _ hlong => exact absurd ⟨i.le_toInt, i.toInt_lt⟩ hlong

/-- A whole number that fits 64 bits is read as such. -/
theorem ofNumericText_isWhole {text : String} {i : Int} (h : Decimal.WritesInt text.toList i)
    (hi : InLongRange i) : (ofNumericText text).IsWhole i := by
  obtain ⟨value, hvalue, hwhole⟩ := isWhole_ofInt? hi
  have hback : (Int64.ofInt i).toInt = i := Int64.toInt_ofInt_of_le hi.1 hi.2
  unfold ofNumericText
  rw [Int64.parse?_eq h.parseInt?, if_pos hi]
  dsimp only
  rw [hback, hvalue]
  exact hwhole

/-- The text of a whole number is read as this number. -/
theorem ofNumericText_toString {i : Int} (h : InLongRange i) :
    (ofNumericText (toString i)).IsWhole i :=
  ofNumericText_isWhole (Decimal.writesInt_toString i) h

/-! ## Floats -/

/-- A decimal in positional notation is read as the whole number that it looks like, if this fits 64
bits, and rounded to a double otherwise. -/
theorem ofNumericText_plain {d : Decimal} (hzero : d.coefficient = 0 → d.exponent = 0)
    {text : String} (htext : text.toList = d.plain) :
    (∃ i, Decimal.WritesInt text.toList i ∧ InLongRange i ∧ (ofNumericText text).IsWhole i ∧
        (Binary.ofInt i : Double).eq (.ofDecimal d) = true) ∨
      (('.' ∈ text.toList ∨ ∃ i, Decimal.WritesInt text.toList i ∧ ¬ InLongRange i) ∧
        ofNumericText text = .double (.ofDecimal d)) := by
  have hfloat (hnone : Int64.parse? text.toList = none) :
      ofNumericText text = .double (.ofDecimal d) := by
    unfold ofNumericText
    rw [hnone, htext]
    dsimp only
    rw [Binary.parse?_plain hzero]
  rcases Decimal.plain_cases hzero with ⟨k, hk, hplain⟩ | hpoint
  · have hwrites := Decimal.writesInt_signed d.negative (d.coefficient * 10 ^ k)
    rw [← hplain, ← htext] at hwrites
    by_cases hrange : InLongRange (if d.negative then -(d.coefficient * 10 ^ k : ℕ) else
        (d.coefficient * 10 ^ k : ℕ))
    · -- The double nearest to the number is that of the decimal.
      have hvalue : (Binary.ofInt _ : Double).eq (.ofDecimal ⟨_, _, k⟩) = true :=
        Binary.ofInt_eq_ofDecimal d.negative d.coefficient k
      rw [← hk] at hvalue
      exact .inl ⟨_, hwrites, hrange, ofNumericText_isWhole hwrites hrange, hvalue⟩
    · refine .inr ⟨.inr ⟨_, hwrites, hrange⟩, hfloat ?_⟩
      rw [Int64.parse?_eq hwrites.parseInt?, if_neg hrange]
  · -- With a point the text is none of an integer.
    rw [← htext] at hpoint
    refine .inr ⟨.inl hpoint, hfloat ?_⟩
    unfold Int64.parse?
    rw [Option.bind_eq_none_iff]
    intro i hi
    exact absurd hpoint (Decimal.no_point_of_parseInt? hi)

/-- The text of a float is read as a number, be it finite or not. -/
theorem isNumeric_ofNumericText_display {f : Format} (x : Binary f) :
    (ofNumericText x.display).isNumeric = true := by
  cases x with
  | nan =>
    show (ofNumericText "NaN").isNumeric = true
    decide +kernel
  | signed negative m =>
    by_cases hm : m.val = f.infinity
    · have htext : (Binary.signed negative m).display = if negative then "-inf" else "inf" := by
        simp [Binary.display, hm]
      -- These two texts are no decimals and are read as doubles.
      rw [htext]
      cases negative <;> decide +kernel
    · rcases ofNumericText_plain (f.shortest_exponent (Nat.le_of_lt_succ m.isLt))
        (Binary.toList_display negative m hm) with ⟨i, -, -, hwhole, -⟩ | ⟨-, hdouble⟩
      · exact hwhole.isNumeric
      · rw [hdouble]
        rfl

/-- What a double comes back as: the same double, or the whole number that its text stands for,
which then has the same value. The latter happens exactly if the text has no fraction and its number
fits 64 bits. -/
structure KeepsDouble (x : Double) (stored : MetadataValue) : Prop where
  number : stored = .double x ∨ ∃ i, stored.IsWhole i ∧
    Decimal.WritesInt x.display.toList i ∧ (Binary.ofInt i : Double).eq x = true
  whole_iff : (∃ i, stored.IsWhole i) ↔
    '.' ∉ x.display.toList ∧ ∀ i, Decimal.WritesInt x.display.toList i → InLongRange i

/-- **A double is kept** when its text is read. -/
theorem ofNumericText_display {x : Double} (hx : x.isFinite = true) :
    KeepsDouble x (ofNumericText x.display) := by
  cases x with
  | nan => cases hx
  | signed negative m =>
    have hm : m.val < Format.double.infinity := of_decide_eq_true hx
    have hround : (.ofDecimal ⟨negative, (Format.double.shortest .up m.val).1,
        (Format.double.shortest .up m.val).2⟩ : Double) = .signed negative m := by
      simp only [Binary.ofDecimal, Binary.ofOrdinal, Format.double.roundDecimal_shortest .up hm.le]
    have htext := ofNumericText_plain (Format.double.shortest_exponent hm.le)
      (Binary.toList_display negative m hm.ne)
    -- The shortest digits are those that round back.
    rw [hround] at htext
    rcases htext with ⟨i, hwrites, hrange, hwhole, hvalue⟩ | ⟨htext, hdouble⟩
    · refine ⟨.inr ⟨i, hwhole, hwrites, hvalue⟩, iff_of_true ⟨i, hwhole⟩ ⟨hwrites.no_point, ?_⟩⟩
      intro j hj
      rwa [hj.unique hwrites]
    · refine ⟨.inl hdouble, iff_of_false ?_ ?_⟩
      · rintro ⟨i, hi⟩
        rw [hdouble] at hi
        cases hi
      · rintro ⟨hpoint, hall⟩
        rcases htext with hmem | ⟨i, hi, hout⟩
        · exact hpoint hmem
        · exact hout (hall i hi)

end MetadataValue

/-! ## Columns -/

namespace Column

/-- A value is bound as text with a cast to the column's type, and a column that gives this text
back is read as the stored value. -/
structure GivesBack (c : Column) (value stored : MetadataValue) : Prop where
  bound : c.param (some value) = .casted (.text (some value.toText)) c.typeName
  reads : (c.readCell (c.param (some value))).ReadsAs c.kind.readCell (some stored)

variable {c : Column}

/-- A numeric column gives back the text that it was given, as the value that this text is read as.
-/
theorem givesBack_ofNumericText (hkind : c.kind = .numeric) (value : MetadataValue) :
    c.GivesBack value (.ofNumericText value.toText) := by
  have hbound : c.param (some value) = .casted (.text (some value.toText)) c.typeName := by
    unfold param
    rw [hkind]
    rfl
  have htext : c.readsAsText = true := by
    unfold readsAsText
    rw [hkind]
  refine ⟨hbound, ?_⟩
  rw [hbound, readCell, htext, hkind]
  exact .value nofun rfl

/-- **Numeric columns keep the number.** A number never comes back as a text. An integer or a long
comes back as an integer if it fits 32 bits and as a long otherwise. A finite double comes back as
it was, or as a whole number with its value if its text looks like one. -/
theorem numeric_keeps_number (hkind : c.kind = .numeric) :
    (∀ value, value.isNumeric = true → ∃ stored, c.GivesBack value stored ∧
      stored.isNumeric = true) ∧
    (∀ i : Int32, c.GivesBack (.integer i) (.integer i)) ∧
    (∀ i : Int64, ∃ stored, c.GivesBack (.long i) stored ∧ stored.IsWhole i.toInt) ∧
    ∀ x : Double, x.isFinite = true → ∃ stored, c.GivesBack (.double x) stored ∧
      MetadataValue.KeepsDouble x stored := by
  have hback := givesBack_ofNumericText hkind
  have hinteger (i : Int32) : (MetadataValue.ofNumericText (toString i)).IsWhole i.toInt :=
    MetadataValue.ofNumericText_toString (inLongRange_toInt i)
  have hlong (i : Int64) : (MetadataValue.ofNumericText (toString i)).IsWhole i.toInt :=
    MetadataValue.ofNumericText_toString ⟨i.le_toInt, i.toInt_lt⟩
  -- Only an integer is known to come back in its own kind, as it always fits it.
  refine ⟨fun value hvalue => ⟨_, hback value, ?_⟩, fun i => ?_, fun i => ⟨_, hback _, hlong i⟩,
    fun x hx => ⟨_, hback _, MetadataValue.ofNumericText_display hx⟩⟩
  · cases value with
    | integer i => exact (hinteger i).isNumeric
    | long i => exact (hlong i).isNumeric
    | float x => exact MetadataValue.isNumeric_ofNumericText_display x
    | double x => exact MetadataValue.isNumeric_ofNumericText_display x
    | string s => cases hvalue
    | uuid u => cases hvalue
  · have hi := hback (.integer i)
    rwa [MetadataValue.toText, (hinteger i).eq_integer] at hi

/-- The double 2 ^ 60 is written by its shortest digits and comes back as the long with these
digits. -/
theorem numeric_keeps_number_power :
    let c : Column := ⟨"price", "numeric", "numeric", -1⟩
    let x : Double := .ofInt (2 ^ 60)
    c.kind = .numeric ∧ x.isFinite = true ∧
      ∃ stored, c.GivesBack (.double x) stored ∧ MetadataValue.KeepsDouble x stored ∧
        stored.IsWhole 1152921504606847000 := by
  intro c x
  have hkind : c.kind = .numeric := rfl
  have hfinite : x.isFinite = true := by decide +kernel
  obtain ⟨-, -, -, hdouble⟩ := numeric_keeps_number hkind
  obtain ⟨stored, hback, hkept⟩ := hdouble x hfinite
  refine ⟨hkind, hfinite, stored, hback, hkept, ?_⟩
  have htext : x.display.toList = Nat.toDigits 10 1152921504606847000 := by decide +kernel
  have hwrites : Decimal.WritesInt x.display.toList 1152921504606847000 := htext ▸ .digits _
  rcases hkept.number with hdouble | ⟨i, hi, hsame, -⟩
  · -- The text has no fraction and its number fits 64 bits, so it is not read as a double.
    have hwhole := hkept.whole_iff.mpr ⟨hwrites.no_point, fun j hj => by
      rw [hj.unique hwrites]
      decide⟩
    rw [hdouble] at hwhole
    obtain ⟨i, hi⟩ := hwhole
    cases hi
  · rwa [hsame.unique hwrites] at hi

/-- A negative zero comes back without its sign. -/
example : MetadataValue.ofNumericText (Binary.zero true : Double).display = .integer 0 := by
  decide +kernel

end Column

end VectorTable
