import Mathlib.Data.List.Basic
import VectorTable.Json.Reader

/-!
# VectorTable — JSON texts as written and read

* `Json.readText_quote` — a quoted text is read back, whatever characters it holds.
-/

namespace VectorTable.Json

/-- The pieces that a character can be read as: itself or, for a control, its number. -/
def Piece.Denotes (c : Char) (p : Piece) : Prop :=
  p = .char c ∨ p = .unit c.toNat ∧ c.toNat < 0x20

/-- The two digits that a control character is escaped with give it back. -/
theorem readUnit?_controlDigits : ∀ n < 0x20,
    readUnit? '0' '0' (n / 16).digitChar (n % 16).digitChar = some n := by
  decide

/-- A backslash with a letter is one piece; `u` starts a number instead. -/
theorem readPieces_escape {letter c : Char} (hletter : letter ≠ 'u') (h : unescape? letter = some c)
    (rest : List Char) :
    readPieces ('\\' :: letter :: rest)
      = (readPieces rest).map fun (pieces, r) => (.char c :: pieces, r) := by
  rw [readPieces.eq_def]
  split
  · rename_i heq; cases heq
  · rename_i heq; cases heq
  · rename_i heq; cases heq; exact absurd rfl hletter
  · rename_i heq
    cases heq
    rw [h]
    cases readPieces rest <;> rfl
  · rename_i hescape heq
    cases heq
    -- The last case is for characters that start no escape.
    exact (hescape letter rest rfl rfl).elim

/-- A backslash with `u` and four digits is one unit. -/
theorem readPieces_unit {a b c d : Char} {n : Nat} (h : readUnit? a b c d = some n)
    (rest : List Char) :
    readPieces ('\\' :: 'u' :: a :: b :: c :: d :: rest)
      = (readPieces rest).map fun (pieces, r) => (.unit n :: pieces, r) := by
  rw [readPieces, h]
  cases readPieces rest <;> rfl

/-- A character that has no need of an escape stands for itself. -/
theorem readPieces_plain {c : Char} (hquote : c ≠ '"') (hescape : c ≠ '\\')
    (hcontrol : ¬ c.toNat < 0x20) (rest : List Char) :
    readPieces (c :: rest)
      = (readPieces rest).map fun (pieces, r) => (.char c :: pieces, r) := by
  rw [readPieces.eq_def]
  split
  · rename_i heq; cases heq
  · rename_i heq; cases heq; exact absurd rfl hquote
  · rename_i heq; cases heq; exact absurd rfl hescape
  · rename_i heq; cases heq; exact absurd rfl hescape
  · rename_i heq
    cases heq
    rw [if_neg hcontrol]
    cases readPieces rest <;> rfl

/-- Each quoted character is read as one piece. -/
theorem exists_readPieces_quoteChar (c : Char) : ∃ p : Piece, p.Denotes c ∧ ∀ rest,
    readPieces (quoteChar c ++ rest)
      = (readPieces rest).map fun (pieces, r) => (p :: pieces, r) := by
  -- The characters that are written as a backslash and a letter.
  have hletter (letter : Char) (hne : letter ≠ 'u') (h : unescape? letter = some c) :
      ∃ p : Piece, p.Denotes c ∧ ∀ rest, readPieces ('\\' :: letter :: rest)
        = (readPieces rest).map fun (pieces, r) => (p :: pieces, r) :=
    ⟨.char c, .inl rfl, readPieces_escape hne h⟩
  unfold quoteChar
  split_ifs with hquote hescape hback htab hline hfeed hreturn hcontrol
  · exact hletter '"' (by decide) (by rw [hquote]; rfl)
  · exact hletter '\\' (by decide) (by rw [hescape]; rfl)
  · exact hletter 'b' (by decide) (by rw [hback]; rfl)
  · exact hletter 't' (by decide) (by rw [htab]; rfl)
  · exact hletter 'n' (by decide) (by rw [hline]; rfl)
  · exact hletter 'f' (by decide) (by rw [hfeed]; rfl)
  · exact hletter 'r' (by decide) (by rw [hreturn]; rfl)
  · -- Other controls are written by their number.
    refine ⟨.unit c.toNat, .inr ⟨rfl, hcontrol⟩, fun rest => ?_⟩
    have hunit := readUnit?_controlDigits c.toNat hcontrol
    exact readPieces_unit hunit rest
  · exact ⟨.char c, .inl rfl, readPieces_plain hquote hescape hcontrol⟩

/-- A unit that is no surrogate is not put together with the next one. -/
theorem joinPieces?_unit {n : Nat} (h : ¬ (0xd800 ≤ n ∧ n < 0xe000)) (pieces : List Piece) :
    joinPieces? (.unit n :: pieces) = (joinPieces? pieces).map (Char.ofNat n :: ·) := by
  have hhigh : isHighSurrogate n = false := by
    simp [isHighSurrogate]
    omega
  have hlow : isLowSurrogate n = false := by
    simp [isLowSurrogate]
    omega
  match pieces with
  | [] => simp [joinPieces?, hhigh, hlow]
  | .char d :: rest => simp [joinPieces?, hhigh, hlow, Function.comp_def]
  | .unit m :: rest => simp [joinPieces?, hhigh, hlow]

/-- A piece stands for its character, whatever follows. -/
theorem joinPieces?_cons {c : Char} {p : Piece} (h : p.Denotes c) (pieces : List Piece) :
    joinPieces? (p :: pieces) = (joinPieces? pieces).map (c :: ·) := by
  rcases h with rfl | ⟨rfl, hsmall⟩
  · rw [joinPieces?]
  · rw [joinPieces?_unit (by omega), Char.ofNat_toNat]

/-- The pieces of a quoted text are joined to the text. -/
theorem exists_readPieces (s rest : List Char) : ∃ pieces,
    readPieces (s.flatMap quoteChar ++ '"' :: rest) = some (pieces, rest) ∧
      joinPieces? pieces = some s := by
  induction s with
  | nil => exact ⟨[], by simp [readPieces], rfl⟩
  | cons c s ih =>
    obtain ⟨pieces, hread, hjoin⟩ := ih
    obtain ⟨p, hp, hpiece⟩ := exists_readPieces_quoteChar c
    refine ⟨p :: pieces, ?_, by rw [joinPieces?_cons hp, hjoin]; rfl⟩
    rw [List.flatMap_cons, List.append_assoc, hpiece, hread]
    rfl

/-- **Texts are read back** after their opening quote, up to the closing one. -/
theorem readText_quote (s : String) (rest : List Char) :
    readText (s.toList.flatMap quoteChar ++ '"' :: rest) = some (some s, rest) := by
  obtain ⟨pieces, hread, hjoin⟩ := exists_readPieces s.toList rest
  rw [readText, hread, Option.map_some]
  dsimp only
  rw [hjoin, Option.map_some, String.ofList_toList]

end VectorTable.Json
