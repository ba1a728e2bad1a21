import VectorTable.Json.Reader
import VectorTable.Proofs.Number.Numeral

/-!
# VectorTable — the grammar of JSON

Which texts are JSON, and what value they have, without a reader: a text is put together from the
texts of its parts. A whole number is kept as such if it fits 64 bits, and every other number is the
float nearest to it; of members with the same key the last one counts.

* `Json.NumberText`, `Json.QuotedText` — numbers and texts;
* `Json.ValueText` — values in which only so many arrays and objects are open at once;
* `Json.Denotes` — a text as a whole.
-/

namespace VectorTable.Json

/-- Spaces, tabs and ends of lines. -/
def Blanks (s : List Char) : Prop := ∀ c ∈ s, c = ' ' ∨ c = '\t' ∨ c = '\n' ∨ c = '\r'

/-! ## Numbers -/

/-- A minus, or nothing. -/
def minus (negative : Bool) : List Char := if negative then ['-'] else []

/-- One or more digits. -/
structure Digits (s : List Char) : Prop where
  digits : ∀ c ∈ s, c.isDigit = true
  ne_nil : s ≠ []

/-- The whole number that digits stand for, with a sign before them. -/
def signedValue (negative : Bool) (digits : List Char) : Int :=
  if negative then -(Nat.ofDigitChars 10 digits 0 : Int) else (Nat.ofDigitChars 10 digits 0 : Int)

/-- The digits behind the point, with the point before them, or nothing. -/
inductive FractionText : List Char → List Char → Prop
  | none : FractionText [] []
  | some {digits : List Char} (h : Digits digits) : FractionText ('.' :: digits) digits

/-- A sign of an exponent, which may be missing. -/
inductive SignText : List Char → Bool → Prop
  | none : SignText [] false
  | plus : SignText ['+'] false
  | minus : SignText ['-'] true

/-- An exponent with its letter, or nothing. -/
inductive ExponentText : List Char → Int → Prop
  | none : ExponentText [] 0
  | some {letter : Char} {sign digits : List Char} {negative : Bool}
      (hletter : letter = 'e' ∨ letter = 'E') (hsign : SignText sign negative)
      (h : Digits digits) : ExponentText (letter :: (sign ++ digits)) (signedValue negative digits)

/-- A whole number literal fits 64 bits: unsigned, or signed if it has a minus. No integer keeps the
minus of a zero. -/
def FitsWord (negative : Bool) (digits : List Char) : Prop :=
  if negative then
    0 < Nat.ofDigitChars 10 digits 0 ∧ Nat.ofDigitChars 10 digits 0 ≤ 0x8000000000000000
  else Nat.ofDigitChars 10 digits 0 < 0x10000000000000000

/-- A number and its text. It must lie within the floats if it is one. -/
inductive NumberText : List Char → Number → Prop
  | whole {negative : Bool} {digits : List Char} {i : Int} (h : WholeDigits digits)
      (hfits : FitsWord negative digits) (hvalue : i = signedValue negative digits)
      (hrange : -0x8000000000000000 ≤ i ∧ i < 0x10000000000000000) :
      NumberText (minus negative ++ digits) (.integer i hrange)
  | float {negative : Bool} {digits point fraction letter : List Char} {exponent : Int}
      {x : Double} (h : WholeDigits digits) (hfraction : FractionText point fraction)
      (hexponent : ExponentText letter exponent)
      (hfloat : point ++ letter ≠ [] ∨ ¬ FitsWord negative digits)
      (hvalue : x = Binary.ofDecimal (.ofParts negative digits fraction exponent))
      (hx : x.isFinite = true) :
      NumberText (minus negative ++ digits ++ point ++ letter) (.float x hx)

/-! ## Texts -/

/-- One character, or an escape of one character or of one 16-bit unit. -/
inductive PieceText : List Char → Piece → Prop
  | plain {c : Char} (hquote : c ≠ '"') (hescape : c ≠ '\\') (hcontrol : ¬ c.toNat < 0x20) :
      PieceText [c] (.char c)
  | escape {letter c : Char} (h : unescape? letter = some c) : PieceText ['\\', letter] (.char c)
  | unit {a b c d : Char} {n : Nat} (h : readUnit? a b c d = some n) :
      PieceText ['\\', 'u', a, b, c, d] (.unit n)

/-- The characters that pieces make up. Two units stand for one character together if the first of
them is a high surrogate and the second a low one; no surrogate stands alone. -/
inductive Joins : List Piece → List Char → Prop
  | nil : Joins [] []
  | char {c : Char} {pieces : List Piece} {t : List Char} (h : Joins pieces t) :
      Joins (.char c :: pieces) (c :: t)
  | unit {n : Nat} {pieces : List Piece} {t : List Char} (hn : ¬ (0xd800 ≤ n ∧ n < 0xe000))
      (h : Joins pieces t) : Joins (.unit n :: pieces) (Char.ofNat n :: t)
  | pair {n m : Nat} {pieces : List Piece} {t : List Char} (hn : 0xd800 ≤ n ∧ n < 0xdc00)
      (hm : 0xdc00 ≤ m ∧ m < 0xe000) (h : Joins pieces t) :
      Joins (.unit n :: .unit m :: pieces)
        (Char.ofNat (0x10000 + (n - 0xd800) * 0x400 + (m - 0xdc00)) :: t)

/-- A text in quotes. -/
inductive QuotedText : List Char → String → Prop
  | mk {texts : List (List Char)} {pieces : List Piece} {t : String}
      (hpieces : List.Forall₂ PieceText texts pieces) (h : Joins pieces t.toList) :
      QuotedText ('"' :: (texts.flatten ++ ['"'])) t

/-! ## Values -/

mutual

/-- A value, in which at most `room` arrays and objects are open at once. -/
inductive ValueText : Nat → List Char → Json → Prop
  | null {room : Nat} : ValueText room "null".toList .null
  | true {room : Nat} : ValueText room "true".toList (.bool true)
  | false {room : Nat} : ValueText room "false".toList (.bool false)
  | number {room : Nat} {s : List Char} {n : Number} (h : NumberText s n) :
      ValueText room s (.number n)
  | string {room : Nat} {s : List Char} {t : String} (h : QuotedText s t) :
      ValueText room s (.string t)
  | array {room : Nat} {s : List Char} {items : List Json} (h : ItemsText room s items) :
      ValueText (room + 1) ('[' :: (s ++ [']'])) (.array items)
  | object {room : Nat} {s : List Char} {members : List (String × Json)}
      (h : MembersText room s members) :
      ValueText (room + 1) ('\x7b' :: (s ++ ['\x7d'])) (.object (Entries.sort members))

/-- A value with blanks around it. -/
inductive ElementText : Nat → List Char → Json → Prop
  | mk {room : Nat} {before s after : List Char} {v : Json} (hbefore : Blanks before)
      (h : ValueText room s v) (hafter : Blanks after) :
      ElementText room (before ++ (s ++ after)) v

/-- The items between brackets. -/
inductive ItemsText : Nat → List Char → List Json → Prop
  | none {room : Nat} {s : List Char} (h : Blanks s) : ItemsText room s []
  | one {room : Nat} {s : List Char} {v : Json} (h : ElementText room s v) :
      ItemsText room s [v]
  | more {room : Nat} {s r : List Char} {v : Json} {items : List Json}
      (h : ElementText room s v) (hitems : ItemsText room r items) (hne : items ≠ []) :
      ItemsText room (s ++ ',' :: r) (v :: items)

/-- A key with its value. -/
inductive MemberText : Nat → List Char → String × Json → Prop
  | mk {room : Nat} {before k after s : List Char} {key : String} {v : Json}
      (hbefore : Blanks before) (hkey : QuotedText k key) (hafter : Blanks after)
      (h : ElementText room s v) :
      MemberText room (before ++ (k ++ (after ++ ':' :: s))) (key, v)

/-- The members between braces, in the order of the text. -/
inductive MembersText : Nat → List Char → List (String × Json) → Prop
  | none {room : Nat} {s : List Char} (h : Blanks s) : MembersText room s []
  | one {room : Nat} {s : List Char} {m : String × Json} (h : MemberText room s m) :
      MembersText room s [m]
  | more {room : Nat} {s r : List Char} {m : String × Json} {members : List (String × Json)}
      (h : MemberText room s m) (hmembers : MembersText room r members) (hne : members ≠ []) :
      MembersText room (s ++ ',' :: r) (m :: members)

end

/-- A text has a value: it is one value with blanks around it, not nested too deep. -/
def Denotes (text : String) (v : Json) : Prop := ElementText maxDepth text.toList v

end VectorTable.Json
