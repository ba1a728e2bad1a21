import VectorTable.Proofs.Json.Grammar
import VectorTable.Proofs.Json.Number
import VectorTable.Proofs.Json.Text

/-!
# VectorTable — numbers and texts are read by the grammar

The readers of numbers and of quoted texts accept what the grammar allows, with the value that it
gives, and nothing else.

* `Json.numberText_of_readNumber`, `Json.readNumber_of_numberText` — numbers;
* `Json.quotedText_of_readText`, `Json.readText_of_quotedText` — texts.
-/

namespace VectorTable.Json

/-! ## The parts of a number, read -/

/-- All digits at the start of a text are read. -/
theorem readDigits_eq {s digits rest : List Char} (h : Decimal.readDigits s = (digits, rest)) :
    s = digits ++ rest ∧ ∀ c ∈ digits, c.isDigit = true := by
  obtain ⟨rfl, rfl⟩ := Prod.mk.inj h
  exact ⟨List.takeWhile_append_dropWhile.symm, List.all_eq_true.mp List.all_takeWhile⟩

/-- The whole part that is read has no needless zero in front. -/
theorem readWhole_eq_some {s whole rest : List Char} (h : readWhole s = some (whole, rest)) :
    s = whole ++ rest ∧ WholeDigits whole := by
  unfold readWhole at h
  split at h
  · cases h
  · cases h
  · rename_i hempty hzero
    obtain ⟨hs, hdigits⟩ := readDigits_eq (Option.some.inj h)
    refine ⟨hs, hdigits, ?_⟩
    -- What is neither empty nor a zero before other digits is a zero alone or starts otherwise.
    match whole, h with
    | [], h => exact absurd (Option.some.inj h) (hempty rest)
    | first :: more, h =>
      by_cases hfirst : first = '0'
      · subst hfirst
        cases more with
        | nil => exact .inl rfl
        | cons next more => exact absurd (Option.some.inj h) (hzero next more rest)
      · exact .inr ⟨first, more, rfl, hfirst⟩

/-- A fraction is read behind a point; where none is read, no point stands there. -/
theorem readFraction_eq_some {s fraction rest : List Char}
    (h : readFraction s = some (fraction, rest)) :
    ∃ point, s = point ++ rest ∧ FractionText point fraction ∧
      (point = [] → ∀ c ∈ s.head?, c ≠ '.') := by
  unfold readFraction at h
  split at h
  · rename_i r
    split at h
    · cases h
    · rename_i hne
      obtain ⟨hs, hdigits⟩ := readDigits_eq (Option.some.inj h)
      refine ⟨'.' :: fraction, by rw [hs, List.cons_append], .some ⟨hdigits, ?_⟩, nofun⟩
      rintro rfl
      exact hne rest (Option.some.inj h)
  · -- Nothing is read, and what was looked at is no point.
    rename_i hpoint
    cases h
    refine ⟨[], rfl, .none, fun _ c hc => ?_⟩
    rintro rfl
    obtain ⟨r, rfl⟩ := List.head?_eq_some_iff.mp hc
    exact hpoint r rfl

/-- What is read of a sign is the text of it. -/
theorem readSign_eq {s rest : List Char} {negative : Bool}
    (h : Decimal.readSign s = (negative, rest)) :
    ∃ sign, s = sign ++ rest ∧ SignText sign negative := by
  unfold Decimal.readSign at h
  split at h <;> cases h
  · exact ⟨_, rfl, .minus⟩
  · exact ⟨_, rfl, .plus⟩
  · exact ⟨_, rfl, .none⟩

/-- An exponent is read behind its letter; where none is read, no such letter stands there. -/
theorem readExponent_eq_some {s rest : List Char} {e : Int}
    (h : Decimal.readExponent s = some (e, rest)) :
    ∃ letter, s = letter ++ rest ∧ ExponentText letter e ∧
      (letter = [] → ∀ c ∈ s.head?, c ≠ 'e' ∧ c ≠ 'E') := by
  unfold Decimal.readExponent at h
  split at h
  · rename_i c r
    split at h
    · rename_i hletter
      cases hsign : Decimal.readSign r with
      | mk negative r' =>
        cases hread : Decimal.readDigits r' with
        | mk digits rest' =>
          simp only [hsign, hread] at h
          split at h
          · cases h
          · rename_i hne
            cases h
            -- Behind the letter stand a sign, perhaps, and at least one digit.
            obtain ⟨sign, rfl, htext⟩ := readSign_eq hsign
            obtain ⟨rfl, hdigits⟩ := readDigits_eq hread
            refine ⟨c :: (sign ++ digits), by simp, .some ?_ htext ⟨hdigits, ?_⟩, nofun⟩
            · simpa using hletter
            · simpa using hne
    · -- Nothing is read, and what was looked at is no letter of an exponent.
      rename_i hletter
      cases h
      refine ⟨[], rfl, .none, fun _ c hc => ?_⟩
      cases hc
      simpa using hletter
  · cases h
    exact ⟨[], rfl, .none, nofun⟩

/-! ## The parts of a number, written -/

/-- A sign before digits is read as such. -/
theorem readSign_append {sign digits : List Char} {negative : Bool} (h : SignText sign negative)
    (hdigits : Digits digits) (rest : List Char) :
    Decimal.readSign (sign ++ (digits ++ rest)) = (negative, digits ++ rest) := by
  cases h with
  | plus => rfl
  | minus => rfl
  | none =>
    obtain ⟨first, more, rfl⟩ := List.exists_cons_of_ne_nil hdigits.ne_nil
    exact Decimal.readSign_digit (hdigits.digits first List.mem_cons_self) (more ++ rest)

/-- An exponent is read where nothing behind it could belong to a number. -/
theorem readExponent_append {letter rest : List Char} {e : Int} (h : ExponentText letter e)
    (hrest : EndsNumber rest) : Decimal.readExponent (letter ++ rest) = some (e, rest) := by
  cases h with
  | none => exact readExponent_of_endsNumber hrest
  | @some letter sign digits negative hletter hsign hdigits =>
    have hread := Decimal.readDigits_append hdigits.digits hrest.noDigit
    have hsome : digits.isEmpty = false := by simpa using hdigits.ne_nil
    rw [List.cons_append, List.append_assoc, Decimal.readExponent]
    simp only [readSign_append hsign hdigits rest, hread, hsome]
    simp [hletter, signedValue]

/-- A fraction is read where neither a digit nor another point stands behind it. -/
theorem readFraction_fractionText {point fraction rest : List Char}
    (h : FractionText point fraction) (hrest : NoDigit rest)
    (hpoint : ∀ c ∈ rest.head?, c ≠ '.') :
    readFraction (point ++ rest) = some (fraction, rest) := by
  cases h with
  | none =>
    have hread : readFraction ((if ([] : List Char) = [] then [] else ['.']) ++ rest) =
        some ([], rest) := readFraction_append nofun hrest hpoint
    rwa [if_pos rfl] at hread
  | some hdigits =>
    have hread := readFraction_append hdigits.digits hrest hpoint
    rwa [if_neg hdigits.ne_nil] at hread

/-! ## Numbers -/

/-- A minus in front and the text behind it are the text. -/
theorem minus_append_of_head? {s : List Char} :
    minus (decide (s.head? = some '-')) ++ (if s.head? = some '-' then s.drop 1 else s) = s := by
  cases s with
  | nil => rfl
  | cons c r =>
    by_cases hc : c = '-'
    · subst hc
      rfl
    · have hhead : ¬ (c :: r).head? = some '-' := fun h => hc (Option.some.inj h)
      rw [if_neg hhead, decide_eq_false hhead]
      rfl

/-- A literal that fits a word of 64 bits lies between the least signed and the greatest unsigned
one. -/
theorem FitsWord.range {negative : Bool} {digits : List Char} (h : FitsWord negative digits) :
    -0x8000000000000000 ≤ signedValue negative digits ∧
      signedValue negative digits < 0x10000000000000000 := by
  unfold FitsWord at h
  unfold signedValue
  cases negative with
  | true =>
    rw [if_pos rfl] at h ⊢
    omega
  | false =>
    rw [if_neg nofun] at h ⊢
    omega

/-- A literal that fits is read as a whole number. -/
theorem ofLiteral?_of_fitsWord {negative : Bool} {digits : List Char} {i : Int}
    (hfits : FitsWord negative digits) (hi : i = signedValue negative digits)
    (hrange : -0x8000000000000000 ≤ i ∧ i < 0x10000000000000000) :
    Number.ofLiteral? negative digits = some (.integer i hrange) := by
  have hinteger : Number.ofInt? i = some (.integer i hrange) := dif_pos hrange
  unfold Number.ofLiteral?
  cases negative with
  | true =>
    -- A negative literal fits a signed word, and is not a zero with a minus.
    have hsize : ¬ (Nat.ofDigitChars 10 digits 0 = 0 ∨
        0x8000000000000000 < Nat.ofDigitChars 10 digits 0) := by
      simp [FitsWord] at hfits
      omega
    rw [← hinteger, hi, signedValue]
    simp [hsize]
  | false =>
    have hsize : Nat.ofDigitChars 10 digits 0 < 0x10000000000000000 := hfits
    rw [← hinteger, hi, signedValue]
    simp [hsize]

/-- One that does not fit is read as a float. -/
theorem ofLiteral?_of_not_fitsWord {negative : Bool} {digits : List Char}
    (hfits : ¬ FitsWord negative digits) : Number.ofLiteral? negative digits =
      Number.ofDouble? (Binary.ofDecimal (Decimal.ofParts negative digits [] 0)) := by
  unfold Number.ofLiteral?
  cases negative with
  | true =>
    -- Minus zero is a float, as no whole number keeps its sign.
    have hsize : Nat.ofDigitChars 10 digits 0 = 0 ∨
        0x8000000000000000 < Nat.ofDigitChars 10 digits 0 := by
      simp [FitsWord] at hfits
      omega
    rw [if_pos rfl, if_pos hsize]
  | false =>
    have hsize : ¬ Nat.ofDigitChars 10 digits 0 < 0x10000000000000000 := hfits
    rw [if_neg nofun, if_neg hsize]

/-- A literal without point and exponent. -/
theorem numberText_of_ofLiteral? {negative : Bool} {digits : List Char} {n : Number}
    (hdigits : WholeDigits digits) (h : Number.ofLiteral? negative digits = some n) :
    NumberText (minus negative ++ digits) n := by
  by_cases hfits : FitsWord negative digits
  · have hrange := hfits.range
    rw [ofLiteral?_of_fitsWord hfits rfl hrange] at h
    cases h
    exact .whole hdigits hfits rfl hrange
  · -- The number is a float, with nothing behind its digits.
    rw [ofLiteral?_of_not_fitsWord hfits, Number.ofDouble?] at h
    split at h <;> cases h
    rename_i hx
    have := NumberText.float hdigits .none .none (.inr hfits) rfl hx
    rwa [List.append_nil, List.append_nil] at this

/-- What follows the digits of a number with a point or an exponent. -/
theorem exists_head_of_not_isWholeLiteral {rest : List Char} (h : ¬ isWholeLiteral rest = true) :
    ∃ c ∈ rest.head?, c = '.' ∨ c = 'e' ∨ c = 'E' := by
  cases rest with
  | nil => exact absurd rfl h
  | cons c rest =>
    refine ⟨c, rfl, ?_⟩
    by_contra hne
    push Not at hne
    exact h (by simp [isWholeLiteral, hne])

/-- **Numbers that are read** are written by the grammar. -/
theorem numberText_of_readNumber {s rest : List Char} {n : Number}
    (h : readNumber s = some (some n, rest)) : ∃ t, s = t ++ rest ∧ NumberText t n := by
  simp only [readNumber, Option.bind_eq_bind, Option.bind_eq_some_iff, Prod.exists] at h
  obtain ⟨whole, r, hwhole, h⟩ := h
  obtain ⟨hs, hdigits⟩ := readWhole_eq_some hwhole
  -- The minus, or nothing, stands before the rest of the text.
  have hsign := minus_append_of_head? (s := s)
  simp only [decide_eq_true_eq] at hs
  rw [hs] at hsign
  generalize decide (s.head? = some '-') = negative at h hsign
  split at h
  · -- Neither a point nor an exponent follows.
    simp only [Option.pure_def, Option.some.injEq, Prod.mk.injEq] at h
    obtain ⟨hliteral, rfl⟩ := h
    exact ⟨_, by rw [← hsign, List.append_assoc], numberText_of_ofLiteral? hdigits hliteral⟩
  · rename_i hkind
    simp only [Option.bind_eq_some_iff, Prod.exists, Option.pure_def, Option.some.injEq,
      Prod.mk.injEq] at h
    obtain ⟨fraction, r', hfraction, e, r'', hexponent, hvalue, rfl⟩ := h
    obtain ⟨point, rfl, hpoint, hnopoint⟩ := readFraction_eq_some hfraction
    obtain ⟨letter, rfl, hletter, hnoletter⟩ := readExponent_eq_some hexponent
    -- One of the two parts is there, as something of them follows the digits.
    have hsome : point ++ letter ≠ [] := by
      intro hnil
      obtain ⟨rfl, rfl⟩ := List.append_eq_nil_iff.mp hnil
      obtain ⟨c, hc, hcases⟩ := exists_head_of_not_isWholeLiteral hkind
      rcases hcases with hcase | hcase | hcase
      · exact hnopoint rfl c hc hcase
      · exact (hnoletter rfl c hc).1 hcase
      · exact (hnoletter rfl c hc).2 hcase
    unfold Number.ofDouble? at hvalue
    split at hvalue <;> cases hvalue
    rename_i hx
    exact ⟨_, by rw [← hsign]; simp, .float hdigits hpoint hletter (.inl hsome) rfl hx⟩

/-- An exponent does not begin like a fraction. -/
theorem ExponentText.noFraction {letter rest : List Char} {e : Int} (h : ExponentText letter e)
    (hrest : EndsNumber rest) :
    NoDigit (letter ++ rest) ∧ ∀ c ∈ (letter ++ rest).head?, c ≠ '.' := by
  cases h with
  | none => exact ⟨hrest.noDigit, fun c hc => (hrest c hc).2.1⟩
  | some hletter hsign hdigits =>
    rcases hletter with rfl | rfl
    · exact ⟨noDigit_cons rfl, fun c hc => by cases hc; decide⟩
    · exact ⟨noDigit_cons rfl, fun c hc => by cases hc; decide⟩

/-- A fraction or an exponent tells a number from a whole number literal. -/
theorem isWholeLiteral_eq_false {point fraction letter : List Char} {e : Int}
    (hpoint : FractionText point fraction) (hletter : ExponentText letter e)
    (hsome : point ++ letter ≠ []) (rest : List Char) :
    NoDigit (point ++ (letter ++ rest)) ∧ isWholeLiteral (point ++ (letter ++ rest)) = false := by
  cases hpoint with
  | some hdigits => exact ⟨noDigit_cons rfl, rfl⟩
  | none =>
    cases hletter with
    | none => exact absurd rfl hsome
    | some hcase hsign hdigits =>
      rcases hcase with rfl | rfl
      · exact ⟨noDigit_cons rfl, rfl⟩
      · exact ⟨noDigit_cons rfl, rfl⟩

/-- **Numbers of the grammar** are read, before any text that does not go on with the number. -/
theorem readNumber_of_numberText {t rest : List Char} {n : Number} (h : NumberText t n)
    (hrest : EndsNumber rest) : readNumber (t ++ rest) = some (some n, rest) := by
  cases h with
  | @whole negative digits i hdigits hfits hvalue hrange =>
    have hread := readNumber_whole negative hdigits hrest
    rwa [ofLiteral?_of_fitsWord hfits hvalue hrange] at hread
  | @float negative digits point fraction letter e x hdigits hpoint hletter hfloat hvalue hx =>
    have hdouble : Number.ofDouble? x = some (.float x hx) := dif_pos hx
    subst hvalue
    by_cases hnil : point ++ letter = []
    · -- A literal of this size is read as a float.
      obtain ⟨rfl, rfl⟩ := List.append_eq_nil_iff.mp hnil
      cases hpoint
      cases hletter
      have hread := readNumber_whole negative hdigits hrest
      rw [ofLiteral?_of_not_fitsWord (hfloat.resolve_left (· rfl)), hdouble] at hread
      simpa [minus] using hread
    · -- Neither of the parts can be read as more of the part before it.
      have hafter := hletter.noFraction hrest
      have hbehind := isWholeLiteral_eq_false hpoint hletter hnil rest
      have hread := readNumber_float negative hdigits hbehind.1 hbehind.2
        (readFraction_fractionText hpoint hafter.1 hafter.2) (readExponent_append hletter hrest)
      rw [hdouble] at hread
      simpa [minus] using hread

/-- A number starts with a minus or a digit. -/
theorem NumberText.exists_cons {t : List Char} {n : Number} (h : NumberText t n) :
    ∃ c r, t = c :: r ∧ (c = '-' ∨ c.isDigit = true) := by
  cases h with
  | @whole negative _ _ hdigits =>
    have hhead := hdigits.exists_head negative []
    rwa [List.append_nil] at hhead
  | @float negative _ point _ letter _ _ hdigits =>
    rw [List.append_assoc]
    exact hdigits.exists_head negative (point ++ letter)

/-! ## Texts -/

/-- What is read up to a quotation mark are pieces of a string, each written as one. -/
theorem pieceTexts_of_readPieces {s rest : List Char} {pieces : List Piece}
    (h : readPieces s = some (pieces, rest)) : ∃ texts : List (List Char),
      s = texts.flatten ++ '"' :: rest ∧ List.Forall₂ PieceText texts pieces := by
  fun_induction readPieces s generalizing pieces with
  | case1 => cases h
  | case2 r =>
    cases h
    exact ⟨[], rfl, .nil⟩
  | case3 a b c d r n pieces' rest' hread hunit ih =>
    cases h
    obtain ⟨texts, rfl, hpieces⟩ := ih hread
    exact ⟨_ :: texts, rfl, .cons (.unit hunit) hpieces⟩
  | case4 => cases h
  | case5 letter r _ c pieces' rest' hread hletter ih =>
    cases h
    obtain ⟨texts, rfl, hpieces⟩ := ih hread
    exact ⟨_ :: texts, rfl, .cons (.escape hletter) hpieces⟩
  | case6 => cases h
  | case7 => cases h
  | case8 c r hquote _ hescape hcontrol pieces' rest' hread ih =>
    cases h
    obtain ⟨texts, rfl, hpieces⟩ := ih hread
    refine ⟨[c] :: texts, rfl, .cons (.plain hquote ?_ hcontrol) hpieces⟩
    -- Something follows the character, and behind a backslash it would have been an escape.
    rintro rfl
    cases hmore : texts.flatten ++ '"' :: rest with
    | nil => simp at hmore
    | cons next more => exact hescape next more rfl hmore
  | case9 => cases h

/-- Pieces that are written one after the other are read up to the quotation mark behind them. -/
theorem readPieces_of_pieceTexts {texts : List (List Char)} {pieces : List Piece}
    (h : List.Forall₂ PieceText texts pieces) (rest : List Char) :
    readPieces (texts.flatten ++ '"' :: rest) = some (pieces, rest) := by
  induction h with
  | nil => simp [readPieces]
  | @cons text piece texts pieces hpiece _ ih =>
    rw [List.flatten_cons, List.append_assoc]
    cases hpiece with
    | plain hquote hescape hcontrol =>
      rw [List.singleton_append, readPieces_plain hquote hescape hcontrol, ih, Option.map_some]
    | @escape letter c hletter =>
      -- The letter of a unit is no escape of a character.
      have hne : letter ≠ 'u' := by
        rintro rfl
        cases hletter
      show readPieces ('\\' :: letter :: (texts.flatten ++ '"' :: rest)) = _
      rw [readPieces_escape hne hletter, ih, Option.map_some]
    | unit hunit =>
      show readPieces ('\\' :: 'u' :: _ :: _ :: _ :: _ :: (texts.flatten ++ '"' :: rest)) = _
      rw [readPieces_unit hunit, ih, Option.map_some]

/-- Pieces that are joined are characters and pairs of surrogates. -/
theorem joins_of_joinPieces? {pieces : List Piece} {t : List Char}
    (h : joinPieces? pieces = some t) : Joins pieces t := by
  -- A unit that is neither kind of surrogate is a character of its own.
  have hplain {n : Nat} (hhigh : ¬ isHighSurrogate n = true) (hlow : ¬ isLowSurrogate n = true) :
      ¬ (0xd800 ≤ n ∧ n < 0xe000) := by
    simp only [isHighSurrogate, isLowSurrogate, Bool.and_eq_true, decide_eq_true_eq] at hhigh hlow
    omega
  fun_induction joinPieces? pieces generalizing t with
  | case1 =>
    cases h
    exact .nil
  | case2 c r ih =>
    obtain ⟨s, hs, rfl⟩ := Option.map_eq_some_iff.mp h
    exact .char (ih hs)
  | case3 => cases h
  | case4 n hn =>
    cases h
    rw [Bool.or_eq_true, not_or] at hn
    exact .unit (hplain hn.1 hn.2) .nil
  | case5 => cases h
  | case6 n c r hn ih =>
    obtain ⟨s, hs, rfl⟩ := Option.map_eq_some_iff.mp h
    rw [Bool.or_eq_true, not_or] at hn
    exact .unit (hplain hn.1 hn.2) (.char (ih hs))
  | case7 n m r hhigh hlow ih =>
    obtain ⟨s, hs, rfl⟩ := Option.map_eq_some_iff.mp h
    exact .pair (by simpa [isHighSurrogate] using hhigh) (by simpa [isLowSurrogate] using hlow)
      (ih hs)
  | case8 => cases h
  | case9 => cases h
  | case10 n m r hhigh hlow ih =>
    obtain ⟨s, hs, rfl⟩ := Option.map_eq_some_iff.mp h
    exact .unit (hplain hhigh hlow) (ih hs)

/-- Conversely, characters and pairs of surrogates are joined. -/
theorem joinPieces?_of_joins {pieces : List Piece} {t : List Char} (h : Joins pieces t) :
    joinPieces? pieces = some t := by
  induction h with
  | nil => rfl
  | char _ ih => rw [joinPieces?, ih, Option.map_some]
  | unit hn _ ih => rw [joinPieces?_unit hn, ih, Option.map_some]
  | @pair n m _ _ hn hm _ ih =>
    have hhigh : isHighSurrogate n = true := by simpa [isHighSurrogate] using hn
    have hlow : isLowSurrogate m = true := by simpa [isLowSurrogate] using hm
    rw [joinPieces?, if_pos hhigh, if_pos hlow, ih, Option.map_some]

/-- **Texts that are read** are written by the grammar. -/
theorem quotedText_of_readText {s rest : List Char} {t : String}
    (h : readText s = some (some t, rest)) :
    ∃ q, '"' :: s = q ++ rest ∧ QuotedText q t := by
  obtain ⟨⟨pieces, r⟩, hread, htext⟩ := Option.map_eq_some_iff.mp h
  obtain ⟨hjoin, rfl⟩ := Prod.mk.inj htext
  obtain ⟨chars, hchars, rfl⟩ := Option.map_eq_some_iff.mp hjoin
  obtain ⟨texts, rfl, hpieces⟩ := pieceTexts_of_readPieces hread
  refine ⟨_, ?_, .mk hpieces (joins_of_joinPieces? ?_)⟩
  · simp
  · rw [hchars, String.toList_ofList]

/-- **Texts of the grammar** are read. -/
theorem readText_of_quotedText {q : List Char} {t : String} (h : QuotedText q t) :
    ∃ s, q = '"' :: s ∧ ∀ rest, readText (s ++ rest) = some (some t, rest) := by
  obtain ⟨hpieces, hjoins⟩ := h
  refine ⟨_, rfl, fun rest => ?_⟩
  rw [readText, List.append_assoc, List.singleton_append, readPieces_of_pieceTexts hpieces,
    Option.map_some]
  simp only [joinPieces?_of_joins hjoins, Option.map_some, String.ofList_toList]

end VectorTable.Json
