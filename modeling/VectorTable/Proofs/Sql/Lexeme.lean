import Mathlib.Data.List.Chain
import VectorTable.Sql.Token

/-!
# VectorTable — lexemes of a statement

The database does not see the tokens of a statement but its text. This module reads the text
back, from left to right and one character at a time, by the lexical rules of SQL: words are
folded to lower case, a name between double quotes ends at the first quote that is not doubled,
a dollar sign with digits is the place of a bound value, and operator characters belong
together as long as they last.

* `Sql.scan` — the lexemes of a text;
* `Sql.scan_render` — the text of a statement has the lexemes of its tokens, provided that no
  token runs on into the next one (`Sql.Parted`).

Only what statements are made of is read: a text with comments, numbers, dollar-quoted texts or
an open quote has lexemes that no statement has.
-/

namespace VectorTable.Sql

/-- A lexeme of a statement. -/
inductive Lexeme where
  /-- A key word or an unquoted name, in lower case. -/
  | word (s : String)
  /-- A quoted name, its quotes taken off. -/
  | name (s : String)
  /-- A text between single quotes. -/
  | literal (s : String)
  /-- The place of a bound value. -/
  | slot (n : Nat)
  /-- An operator or a punctuation mark. -/
  | symbol (s : String)
  /-- A quoted name or a text that is never closed. -/
  | unclosed
deriving DecidableEq

/-- What a character may be part of. -/
inductive CharClass where
  | blank
  | letter
  | digit
  | dollar
  | quote
  | apostrophe
  | mark
  | operator
deriving DecidableEq

/-- The class of a character. Whatever is not listed belongs to words. -/
def classOf (c : Char) : CharClass :=
  if c = ' ' ∨ c = '\t' ∨ c = '\n' ∨ c = '\r' then .blank
  else if c.isDigit then .digit
  else if c = '$' then .dollar
  else if c = '"' then .quote
  else if c = '\'' then .apostrophe
  else if c ∈ ['(', ')', ',', ';', '.', '[', ']'] then .mark
  else if c ∈ [':', '+', '-', '*', '/', '<', '>', '=', '~', '!', '@', '#', '%', '^', '&', '|',
    '?'] then .operator
  else .letter

/-- What a scan has begun and not yet finished, with the characters read so far. -/
inductive Pending where
  | nothing
  | word (s : List Char)
  | symbol (s : List Char)
  | dollar
  | slot (digits : List Char)
  | name (s : List Char)
  /-- A quote inside a name: the end of it, or the first half of a doubled quote. -/
  | nameQuote (s : List Char)
  | literal (s : List Char)
  | literalQuote (s : List Char)
deriving DecidableEq

namespace Pending

/-- The lexeme that is finished when nothing more belongs to it. -/
def finish : Pending → List Lexeme
  | .nothing => []
  | .word s => [.word (String.ofList s)]
  | .symbol s => [.symbol (String.ofList s)]
  | .dollar => [.symbol "$"]
  | .slot digits => [.slot (Nat.ofDigitChars 10 digits 0)]
  | .name _ => [.unclosed]
  | .nameQuote s => [.name (String.ofList s)]
  | .literal _ => [.unclosed]
  | .literalQuote s => [.literal (String.ofList s)]

/-- What a character begins. A mark is a lexeme at once. -/
def start (c : Char) : List Lexeme × Pending :=
  match classOf c with
  | .blank => ([], .nothing)
  | .letter | .digit => ([], .word [c.toLower])
  | .dollar => ([], .dollar)
  | .quote => ([], .name [])
  | .apostrophe => ([], .literal [])
  | .mark => ([.symbol (String.singleton c)], .nothing)
  | .operator => ([], .symbol [c])

/-- What the next character adds to what has begun, if it belongs to it. -/
def extend (p : Pending) (c : Char) : Option Pending :=
  match p, classOf c with
  | .word s, .letter | .word s, .digit | .word s, .dollar => some (.word (s ++ [c.toLower]))
  | .symbol s, .operator => some (.symbol (s ++ [c]))
  | .dollar, .digit => some (.slot [c])
  | .slot digits, .digit => some (.slot (digits ++ [c]))
  | .name s, .quote => some (.nameQuote s)
  | .name s, _ => some (.name (s ++ [c]))
  | .nameQuote s, .quote => some (.name (s ++ [c]))
  | .literal s, .apostrophe => some (.literalQuote s)
  | .literal s, _ => some (.literal (s ++ [c]))
  | .literalQuote s, .apostrophe => some (.literal (s ++ [c]))
  | _, _ => none

/-- The next character either belongs to what has begun or finishes it. -/
def step (p : Pending) (c : Char) : List Lexeme × Pending :=
  match p.extend c with
  | some q => ([], q)
  | none => (p.finish ++ (start c).1, (start c).2)

end Pending

/-- The lexemes finished in a text, and what it leaves unfinished. -/
def scanFrom (p : Pending) : List Char → List Lexeme × Pending
  | [] => ([], p)
  | c :: rest =>
    let r := scanFrom (p.step c).2 rest
    ((p.step c).1 ++ r.1, r.2)

/-- All lexemes of a text, after something else has begun. -/
def scanAll (p : Pending) (s : List Char) : List Lexeme :=
  (scanFrom p s).1 ++ (scanFrom p s).2.finish

/-- The lexemes of a text. -/
def scan (s : String) : List Lexeme := scanAll .nothing s.toList

/-! ## Texts one after the other -/

@[simp] theorem scanAll_nil (p : Pending) : scanAll p [] = p.finish := by
  simp [scanAll, scanFrom]

/-- A text may be scanned in two parts, the second with what the first has left pending. -/
theorem scanFrom_append (p : Pending) (s t : List Char) :
    scanFrom p (s ++ t) =
      ((scanFrom p s).1 ++ (scanFrom (scanFrom p s).2 t).1,
        (scanFrom (scanFrom p s).2 t).2) := by
  induction s generalizing p with
  | nil => simp [scanFrom]
  | cons c s ih => simp [scanFrom, ih]

/-- The same for a text that ends behind the second part. -/
theorem scanAll_append (p : Pending) (s t : List Char) :
    scanAll p (s ++ t) = (scanFrom p s).1 ++ scanAll (scanFrom p s).2 t := by
  simp [scanAll, scanFrom_append]

/-- A text whose first character does not belong to what has begun is read as if nothing had. -/
theorem scanAll_cons_of_extend_none {p : Pending} {c : Char} (h : p.extend c = none)
    (s : List Char) : scanAll p (c :: s) = p.finish ++ scanAll .nothing (c :: s) := by
  have hstep : p.step c = (p.finish ++ (Pending.start c).1, (Pending.start c).2) := by
    simp [Pending.step, h]
  have hstart : Pending.nothing.step c = Pending.start c := by
    simp [Pending.step, Pending.extend, Pending.finish]
  simp [scanAll, scanFrom, hstep, hstart]

/-! ## Quoted names and slots -/

/-- Inside a quoted name every character stands for itself, a doubled quote for one quote. -/
theorem scanFrom_name (acc name : List Char) :
    scanFrom (.name acc) (name.flatMap (fun c => if c = '"' then ['"', '"'] else [c])) =
      ([], .name (acc ++ name)) := by
  induction name generalizing acc with
  | nil => simp [scanFrom]
  | cons c name ih =>
    by_cases hc : c = '"'
    · -- the first quote might close the name; the second one takes it up again
      have hquote : (Pending.name acc).extend '"' = some (.nameQuote acc) := rfl
      have hagain : (Pending.nameQuote acc).extend '"' = some (.name (acc ++ ['"'])) := rfl
      simp [hc, scanFrom, Pending.step, hquote, hagain, ih]
    · -- any other character belongs to the name
      have hclass : classOf c ≠ .quote := by
        unfold classOf
        split_ifs <;> simp_all
      have hnext : (Pending.name acc).extend c = some (.name (acc ++ [c])) := by
        unfold Pending.extend
        split <;> simp_all
      simp [hc, scanFrom, Pending.step, hnext, ih]

/-- A quoted name is scanned up to its closing quote. -/
theorem scanFrom_quoteChars (name : List Char) :
    scanFrom .nothing (Identifier.quoteChars name) = ([], .nameQuote name) := by
  have hopen : Pending.nothing.step '"' = ([], .name []) := rfl
  have hclose : (Pending.name name).step '"' = ([], .nameQuote name) := rfl
  simp [Identifier.quoteChars, scanFrom, hopen, scanFrom_append, scanFrom_name, hclose]

/-- The digits have a class of their own. -/
theorem classOf_digit {c : Char} (h : c.isDigit = true) : classOf c = .digit := by
  unfold classOf
  rw [if_neg (by rintro (rfl | rfl | rfl | rfl) <;> simp at h), if_pos h]

/-- Digits behind a slot sign are collected until something else comes. -/
theorem scanFrom_slotDigits {digits : List Char} (h : ∀ c ∈ digits, c.isDigit = true)
    (acc : List Char) : scanFrom (.slot acc) digits = ([], .slot (acc ++ digits)) := by
  induction digits generalizing acc with
  | nil => simp [scanFrom]
  | cons c digits ih =>
    have hc : c.isDigit = true := h c List.mem_cons_self
    have hnext : (Pending.slot acc).extend c = some (.slot (acc ++ [c])) := by
      simp [Pending.extend, classOf_digit hc]
    simp [scanFrom, Pending.step, hnext, ih fun d hd => h d (List.mem_cons_of_mem _ hd)]

/-! ## Tokens -/

/-- The first character of a token. -/
def Token.first? : Token → Option Char
  | .text s => s.toList.head?
  | .name _ => some '"'
  | .slot _ => some '$'

/-- What a token leaves unfinished. -/
def Token.ending : Token → Pending
  | .text s => (scanFrom .nothing s.toList).2
  | .name s => .nameQuote s.toList
  | .slot n => .slot (Nat.toDigits 10 n)

/-- The lexemes of a token that stands alone. -/
def Token.lexemes : Token → List Lexeme
  | .text s => scan s
  | .name s => [.name s]
  | .slot n => [.slot n]

/-- The lexemes of a statement, token by token. -/
def lexemes (sql : Sql) : List Lexeme := sql.flatMap Token.lexemes

/-- A token may follow another one without becoming part of its last lexeme. -/
def Token.Parts (t u : Token) : Prop :=
  ∃ c, u.first? = some c ∧ t.ending.extend c = none

/-- No token of a statement runs on into the next one. -/
def Parted (sql : Sql) : Prop := sql.IsChain Token.Parts

/-- The lexemes of two phrases stand one after the other. -/
@[simp] theorem lexemes_append (a b : Sql) : (a ++ b).lexemes = a.lexemes ++ b.lexemes :=
  List.flatMap_append

@[simp] theorem lexemes_nil : lexemes [] = [] := rfl

@[simp] theorem lexemes_cons (t : Token) (sql : Sql) :
    lexemes (t :: sql) = t.lexemes ++ sql.lexemes := rfl

/-- A phrase is written token by token. -/
theorem toList_render (sql : Sql) : sql.render.toList = sql.flatMap fun t => t.render.toList := by
  simp [render, List.flatMap_map]

/-- The first character of a token is that of its text. -/
theorem Token.first?_eq_head? (t : Token) : t.first? = t.render.toList.head? := by
  cases t <;> simp [first?, render, Identifier.quote, Identifier.quoteChars]

/-- Scanning a token alone, up to what it leaves unfinished. -/
theorem Token.scanFrom_render (t : Token) :
    (scanFrom .nothing t.render.toList).2 = t.ending ∧
      (scanFrom .nothing t.render.toList).1 ++ t.ending.finish = t.lexemes := by
  cases t with
  | text s => exact ⟨rfl, rfl⟩
  | name s =>
    have h := scanFrom_quoteChars s.toList
    simp [render, Identifier.quote, h, ending, Pending.finish, lexemes]
  | slot n =>
    -- The dollar sign waits for a first digit; every other digit only goes on.
    have hdollar : Pending.nothing.step '$' = ([], .dollar) := rfl
    obtain ⟨d, digits, hdigits⟩ :=
      List.exists_cons_of_ne_nil (Nat.toDigits_ne_nil (n := n) (b := 10))
    have hall : ∀ c ∈ d :: digits, c.isDigit = true := fun c hc =>
      Nat.isDigit_of_mem_toDigits (by decide) (by decide) (hdigits ▸ hc)
    have hd : classOf d = .digit := classOf_digit (hall d List.mem_cons_self)
    have hfirst : Pending.dollar.step d = ([], .slot [d]) := by
      simp [Pending.step, Pending.extend, hd]
    have hrest := scanFrom_slotDigits
      (fun c hc => hall c (List.mem_cons_of_mem _ hc)) [d]
    have hvalue : Nat.ofDigitChars 10 (d :: digits) 0 = n := by
      rw [← hdigits, Nat.ofDigitChars_ten_toDigits]
    simp [render, hdigits, scanFrom, hdollar, hfirst, hrest, ending, Pending.finish, lexemes,
      hvalue]

/-- **Scanning a statement.** The text of a parted statement has the lexemes of its tokens. In
particular every quoted name is read back as it was given, whatever characters it holds. -/
theorem scan_render {sql : Sql} (h : sql.Parted) : scan sql.render = sql.lexemes := by
  have key : scanAll .nothing (sql.flatMap fun t => t.render.toList) = sql.lexemes := by
    -- By induction on the tokens. What a token leaves unfinished the next one finishes with its
    -- first character, so that the rest is read as if it stood alone.
    induction sql with
    | nil => simp [Pending.finish]
    | cons t rest ih =>
      obtain ⟨hending, hlexemes⟩ := t.scanFrom_render
      have hrest := ih (List.IsChain.tail h)
      rw [List.flatMap_cons, scanAll_append, hending, lexemes_cons, ← hlexemes, ← hrest]
      cases rest with
      | nil => simp [Pending.finish]
      | cons u rest =>
        obtain ⟨c, hc, hparts⟩ := List.IsChain.rel h
        rw [Token.first?_eq_head?] at hc
        obtain ⟨chars, hchars⟩ := List.head?_eq_some_iff.mp hc
        rw [List.flatMap_cons, hchars, List.cons_append, scanAll_cons_of_extend_none hparts,
          List.append_assoc]
  rw [scan, toList_render, key]

end VectorTable.Sql
