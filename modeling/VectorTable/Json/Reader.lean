import VectorTable.Json.Tree
import VectorTable.Uuid

/-!
# VectorTable — reading JSON

The strict grammar: blanks are space, tab, line feed and carriage return, controls inside texts
must be escaped, numbers have no leading zeros. Each reader takes the text and answers with
what it read and the text after it, or fails.

* `Tree.parse?` — the structure of a text;
* `Json.parse?` — the value of a text.
-/

namespace VectorTable.Json

def isBlank (c : Char) : Bool := c = ' ' || c = '\t' || c = '\n' || c = '\r'

def skipBlanks (s : List Char) : List Char := s.dropWhile isBlank

/-! ## Numbers -/

/-- A whole number literal. It stays whole if it fits 64 bits, and a minus before zero, which
no integer can keep, makes it a float. -/
def Number.ofLiteral? (negative : Bool) (digits : List Char) : Option Number :=
  let size := Nat.ofDigitChars 10 digits 0
  let float := Number.ofDouble? (Binary.ofDecimal (Decimal.ofParts negative digits [] 0))
  if negative then
    if size = 0 ∨ 0x8000000000000000 < size then float else Number.ofInt? (-size)
  else if size < 0x10000000000000000 then Number.ofInt? size
  else float

/-- The digits before the point: a single zero, or digits that do not start with zero. -/
def readWhole (s : List Char) : Option (List Char × List Char) :=
  match Decimal.readDigits s with
  | ([], _) => none
  | ('0' :: _ :: _, _) => none
  | r => some r

/-- The digits after the point, if there is a point; then there is at least one digit. -/
def readFraction : List Char → Option (List Char × List Char)
  | '.' :: r =>
    match Decimal.readDigits r with
    | ([], _) => none
    | r => some r
  | s => some ([], s)

/-- A whole number literal ends where neither a point nor an exponent follows. -/
def isWholeLiteral (rest : List Char) : Bool :=
  match rest with
  | c :: _ => !(c = '.' || c = 'e' || c = 'E')
  | [] => true

/-- A number; its value is `none` if it lies beyond the floats. -/
def readNumber (s : List Char) : Option (Option Number × List Char) := do
  let negative : Bool := s.head? = some '-'
  let (whole, rest) ← readWhole (if negative then s.drop 1 else s)
  if isWholeLiteral rest then
    return (Number.ofLiteral? negative whole, rest)
  else
    let (fraction, rest) ← readFraction rest
    let (exponent, rest) ← Decimal.readExponent rest
    let numeral := Decimal.ofParts negative whole fraction exponent
    return (Number.ofDouble? (Binary.ofDecimal numeral), rest)

/-! ## Texts -/

/-- A piece of a text: a character, or a 16-bit unit written by its number. -/
inductive Piece where
  | char (c : Char)
  | unit (n : Nat)

/-- The character that a letter after a backslash stands for. -/
def unescape? : Char → Option Char
  | '"' => some '"'
  | '\\' => some '\\'
  | '/' => some '/'
  | 'b' => some '\x08'
  | 'f' => some '\x0c'
  | 'n' => some '\n'
  | 'r' => some '\r'
  | 't' => some '\t'
  | _ => none

/-- Four hexadecimal digits. -/
def readUnit? (a b c d : Char) : Option Nat := do
  let a ← hexValue? a
  let b ← hexValue? b
  let c ← hexValue? c
  let d ← hexValue? d
  return ((a.val * 16 + b.val) * 16 + c.val) * 16 + d.val

/-- The pieces up to the closing quote. -/
def readPieces : List Char → Option (List Piece × List Char)
  | [] => none
  | '"' :: r => some ([], r)
  | '\\' :: 'u' :: a :: b :: c :: d :: r =>
    match readUnit? a b c d, readPieces r with
    | some n, some (pieces, rest) => some (.unit n :: pieces, rest)
    | _, _ => none
  | '\\' :: c :: r =>
    -- A `u` with fewer than four digits ends up here, and is no escape either.
    match unescape? c, readPieces r with
    | some c, some (pieces, rest) => some (.char c :: pieces, rest)
    | _, _ => none
  | c :: r =>
    if c.toNat < 0x20 then none
    else match readPieces r with
      | some (pieces, rest) => some (.char c :: pieces, rest)
      | none => none

def isHighSurrogate (n : Nat) : Bool := 0xd800 ≤ n && n < 0xdc00

def isLowSurrogate (n : Nat) : Bool := 0xdc00 ≤ n && n < 0xe000

/-- The text of some pieces. A high surrogate must be followed by a low one, and they stand for
one character together; no other surrogate is allowed. -/
def joinPieces? : List Piece → Option (List Char)
  | [] => some []
  | .char c :: r => (joinPieces? r).map (c :: ·)
  | [.unit n] =>
    if isHighSurrogate n || isLowSurrogate n then none else some [Char.ofNat n]
  | .unit n :: .char c :: r =>
    if isHighSurrogate n || isLowSurrogate n then none
    else (joinPieces? r).map fun s => Char.ofNat n :: c :: s
  | .unit n :: .unit m :: r =>
    if isHighSurrogate n then
      if isLowSurrogate m then
        (joinPieces? r).map (Char.ofNat (0x10000 + (n - 0xd800) * 0x400 + (m - 0xdc00)) :: ·)
      else none
    else if isLowSurrogate n then none
    else (joinPieces? (.unit m :: r)).map (Char.ofNat n :: ·)

/-- A text after its opening quote; its value is `none` if it has an unpaired surrogate. -/
def readText (s : List Char) : Option (Option String × List Char) :=
  (readPieces s).map fun (pieces, rest) => ((joinPieces? pieces).map String.ofList, rest)

/-! ## Values -/

mutual

/-- A value. The first argument bounds the work, and the length of the text is always enough. -/
def readValue : Nat → List Char → Option (Tree × List Char)
  | 0, _ => none
  | fuel + 1, s =>
    match skipBlanks s with
    | '\x7b' :: r =>
      match skipBlanks r with
      | '\x7d' :: r => some (.object [], r)
      | r => (readMembers fuel r).map fun (members, rest) => (.object members, rest)
    | '[' :: r =>
      match skipBlanks r with
      | ']' :: r => some (.array [], r)
      | r => (readItems fuel r).map fun (items, rest) => (.array items, rest)
    | '"' :: r => (readText r).map fun (text, rest) => (.string text, rest)
    | 'n' :: 'u' :: 'l' :: 'l' :: r => some (.null, r)
    | 't' :: 'r' :: 'u' :: 'e' :: r => some (.bool true, r)
    | 'f' :: 'a' :: 'l' :: 's' :: 'e' :: r => some (.bool false, r)
    | r => (readNumber r).map fun (n, rest) => (.number n, rest)

/-- The items of an array that is not empty, up to the bracket. -/
def readItems : Nat → List Char → Option (List Tree × List Char)
  | 0, _ => none
  | fuel + 1, s =>
    match readValue fuel s with
    | none => none
    | some (v, r) =>
      match skipBlanks r with
      | ',' :: r => (readItems fuel r).map fun (vs, rest) => (v :: vs, rest)
      | ']' :: r => some ([v], r)
      | _ => none

/-- The members of an object that is not empty, up to the brace. -/
def readMembers : Nat → List Char → Option (List (Option String × Tree) × List Char)
  | 0, _ => none
  | fuel + 1, s =>
    match skipBlanks s with
    | '"' :: r =>
      match readText r with
      | none => none
      | some (key, r) =>
        match skipBlanks r with
        | ':' :: r =>
          match readValue fuel r with
          | none => none
          | some (v, r) =>
            match skipBlanks r with
            | ',' :: r => (readMembers fuel r).map fun (ms, rest) => ((key, v) :: ms, rest)
            | '\x7d' :: r => some ([(key, v)], r)
            | _ => none
        | _ => none
    | _ => none

end

/-- The structure of a text: one value with nothing but blanks around it. -/
def Tree.parse? (s : String) : Option Tree :=
  let chars := s.toList
  match readValue (chars.length + 1) chars with
  | some (tree, rest) => if (skipBlanks rest).isEmpty then some tree else none
  | none => none

/-- The value of a text. -/
def parse? (s : String) : Option Json := (Tree.parse? s).bind (·.toJson? maxDepth)

end VectorTable.Json
