import VectorTable.Proofs.Sql.Lexeme

/-!
# VectorTable — quoted names in a text

A name is written between double quotes with its own quotes doubled, and whoever reads the text
has only the quotes to find the name by. This module reads them by that rule alone, from left to
right: outside a name a quote opens one, inside a doubled quote stands for one quote, and a single
one closes the name.

* `Sql.cut` — a text cut at its quoted names, unless the last of them is never closed;
* `Sql.Readable` — statements that can be read back from their texts;
* `Sql.cut_render` — cutting the text of a statement gives back its names, all of them and
  nothing else, whatever characters they hold;
* `Sql.slots_scan` — the slots of the text are those of the statement; none is hidden in a name.
-/

namespace VectorTable.Sql

/-- A character outside quoted names, or a quoted name as it is meant. -/
inductive Glyph where
  | char (c : Char)
  | name (s : String)
deriving DecidableEq

/-- The name, if it is one. -/
def Glyph.name? : Glyph → Option String
  | .char _ => none
  | .name s => some s

/-- The character outside names, if it is one. -/
def Glyph.char? : Glyph → Option Char
  | .char c => some c
  | .name _ => none

mutual

/-- What stands outside names, up to the end of the text. -/
def cutOutside : List Char → Option (List Glyph)
  | [] => some []
  | '"' :: rest => cutName [] rest
  | c :: rest => (cutOutside rest).map (.char c :: ·)

/-- What stands inside a name of which some characters have been read. -/
def cutName (s : List Char) : List Char → Option (List Glyph)
  | [] => none
  | '"' :: '"' :: rest => cutName (s ++ ['"']) rest
  | '"' :: rest => (cutOutside rest).map (.name (String.ofList s) :: ·)
  | c :: rest => cutName (s ++ [c]) rest

end

/-- A text cut at its quoted names; `none` if a name is not closed. -/
def cut (text : String) : Option (List Glyph) := cutOutside text.toList

/-- A text without the names in it. Where one stood is `none`, so that two texts agree only if
their names stand in the same places. -/
def around (text : String) : Option (List (Option Char)) := (cut text).map (·.map Glyph.char?)

/-- All names in a text are closed, and they are these, in the order of the text. -/
def Quotes (text : String) (names : List String) : Prop :=
  ∃ glyphs, cut text = some glyphs ∧ glyphs.filterMap Glyph.name? = names

/-! ## Cutting texts and names -/

/-- A text without quotes is outside all names. -/
theorem cutOutside_append {s : List Char} (h : '"' ∉ s) (rest : List Char) :
    cutOutside (s ++ rest) = (cutOutside rest).map (s.map .char ++ ·) := by
  induction s with
  | nil => simp
  | cons c s ih =>
    obtain ⟨hc, hs⟩ := not_or.mp (mt List.mem_cons.mpr h)
    -- Only a quote ends this mode.
    have hstep : cutOutside (c :: (s ++ rest)) = (cutOutside (s ++ rest)).map (.char c :: ·) := by
      rw [cutOutside.eq_def]
      split
      · rename_i heq; cases heq
      · rename_i heq; cases heq; exact absurd rfl hc
      · rename_i heq; cases heq; rfl
    rw [List.cons_append, hstep, ih hs, Option.map_map]
    rfl

/-- A character that is no quote belongs to the name that is open. -/
theorem cutName_cons {c : Char} (h : c ≠ '"') (s rest : List Char) :
    cutName s (c :: rest) = cutName (s ++ [c]) rest := by
  rw [cutName.eq_def]
  split
  · rename_i heq; cases heq
  · rename_i heq; cases heq; exact absurd rfl h
  · rename_i heq; cases heq; exact absurd rfl h
  · rename_i heq; cases heq; rfl

/-- A quote closes the name, unless another one follows. -/
theorem cutName_close {rest : List Char} (h : rest.head? ≠ some '"') (s : List Char) :
    cutName s ('"' :: rest) = (cutOutside rest).map (.name (String.ofList s) :: ·) := by
  rw [cutName.eq_def]
  split
  · rename_i heq; cases heq
  · rename_i heq; cases heq; exact absurd rfl h
  · rename_i heq; cases heq; rfl
  · rename_i hquote heq; cases heq; exact absurd rfl hquote

/-- A name is read up to its closing quote. -/
theorem cutName_doubled {rest : List Char} (h : rest.head? ≠ some '"') (s name : List Char) :
    cutName s (name.flatMap (fun c => if c = '"' then ['"', '"'] else [c]) ++ '"' :: rest) =
      (cutOutside rest).map (.name (String.ofList (s ++ name)) :: ·) := by
  induction name generalizing s with
  | nil => rw [List.flatMap_nil, List.nil_append, cutName_close h, List.append_nil]
  | cons c name ih =>
    rw [List.flatMap_cons]
    split
    · next hc =>
      -- a quote of the name comes as two, which are read together
      have hpair (more : List Char) : cutName s ('"' :: '"' :: more) =
          cutName (s ++ ['"']) more := rfl
      rw [List.append_assoc, List.cons_append, List.cons_append, List.nil_append, hpair, ih,
        List.append_assoc, hc]
      rfl
    · next hc =>
      rw [List.append_assoc, List.cons_append, List.nil_append, cutName_cons hc, ih,
        List.append_assoc]
      rfl

theorem cutOutside_quoteChars {rest : List Char} (h : rest.head? ≠ some '"') (name : List Char) :
    cutOutside (Identifier.quoteChars name ++ rest) =
      (cutOutside rest).map (.name (String.ofList name) :: ·) := by
  have hopen (more : List Char) : cutOutside ('"' :: more) = cutName [] more := rfl
  rw [Identifier.quoteChars, List.cons_append, hopen, List.append_assoc]
  exact cutName_doubled h [] name

/-! ## Plain statements -/

/-- The slot, if the lexeme is one. -/
def Lexeme.slot? : Lexeme → Option Nat
  | .slot n => some n
  | _ => none

/-- The token is a name. -/
def Token.name? : Token → Option String
  | .name s => some s
  | _ => none

/-- The token is a slot. -/
def Token.slot? : Token → Option Nat
  | .slot n => some n
  | _ => none

/-- The names of a statement, from left to right. -/
def names (sql : Sql) : List String := sql.filterMap Token.name?

/-- The slots of a statement, from left to right. -/
def slots (sql : Sql) : List Nat := sql.filterMap Token.slot?

/-- Text without quotes and without slots. -/
def PlainText (s : String) : Prop := '"' ∉ s.toList ∧ ∀ l ∈ scan s, l.slot? = none

instance (s : String) : Decidable (PlainText s) := inferInstanceAs (Decidable (_ ∧ _))

/-- Names and slots stand only where tokens say so. -/
def Token.Plain : Token → Prop
  | .text s => PlainText s
  | .name _ | .slot _ => True

/-- All texts of a statement are plain. -/
def Plain (sql : Sql) : Prop := ∀ t ∈ sql, t.Plain

/-- A statement that can be read back from its text: no token runs on into the next one, and names
and slots stand only where tokens say so. -/
structure Readable (sql : Sql) : Prop where
  parted : sql.Parted
  plain : sql.Plain

section

variable (a b : Sql) (t : Token) (s : String) (n : Nat)

@[simp] theorem plain_nil : Plain [] := nofun

@[simp] theorem plain_cons : Plain (t :: a) ↔ t.Plain ∧ Plain a := List.forall_mem_cons

@[simp] theorem plain_append : Plain (a ++ b) ↔ Plain a ∧ Plain b := List.forall_mem_append

@[simp] theorem Token.plain_name : (Token.name s).Plain := trivial

@[simp] theorem Token.plain_slot : (Token.slot n).Plain := trivial

@[simp] theorem Token.plain_text : (Token.text s).Plain ↔ PlainText s := Iff.rfl

@[simp] theorem names_nil : names [] = [] := rfl

@[simp] theorem names_append : (a ++ b).names = a.names ++ b.names := List.filterMap_append

@[simp] theorem names_text : names (.text s :: a) = a.names := rfl

@[simp] theorem names_name : names (.name s :: a) = s :: a.names := rfl

@[simp] theorem names_slot : names (.slot n :: a) = a.names := rfl

@[simp] theorem slots_nil : slots [] = [] := rfl

@[simp] theorem slots_append : (a ++ b).slots = a.slots ++ b.slots := List.filterMap_append

@[simp] theorem slots_text : slots (.text s :: a) = a.slots := rfl

@[simp] theorem slots_name : slots (.name s :: a) = a.slots := rfl

@[simp] theorem slots_slot : slots (.slot n :: a) = n :: a.slots := rfl

end

theorem commas_cons_cons (a b : Sql) (parts : List Sql) :
    commas (a :: b :: parts) = a ++ .text ", " :: commas (b :: parts) := by
  simp [commas, separated]

theorem render_cons (t : Token) (a : Sql) : render (t :: a) = t.render ++ render a :=
  String.join_cons

theorem render_append (a b : Sql) : render (a ++ b) = render a ++ render b := by
  rw [render, List.map_append, String.join_append]
  rfl

theorem render_commas (parts : List Sql) :
    (commas parts).render = ", ".intercalate (parts.map render) := by
  induction parts with
  | nil => rfl
  | cons a parts ih =>
    cases parts with
    | nil => simp [commas, separated]
    | cons b parts =>
      rw [commas_cons_cons, render_append, render_cons, ih]
      simp only [List.map_cons, String.intercalate_cons_cons, String.append_assoc]
      rfl

theorem commas_concat {parts : List Sql} (h : parts ≠ []) (a : Sql) :
    commas (parts ++ [a]) = commas parts ++ .text ", " :: a := by
  induction parts with
  | nil => exact absurd rfl h
  | cons b parts ih =>
    cases parts with
    | nil => simp [commas, separated]
    | cons c parts =>
      have htail := ih (List.cons_ne_nil c parts)
      rw [List.cons_append, List.cons_append, commas_cons_cons, ← List.cons_append, htail,
        commas_cons_cons, List.append_assoc, List.cons_append]

/-- Commas have neither names nor slots. -/
theorem filterMap_commas {α : Type} {f : Token → Option α} (hf : ∀ s, f (.text s) = none)
    (parts : List Sql) : (commas parts).filterMap f = parts.flatMap (·.filterMap f) := by
  induction parts with
  | nil => rfl
  | cons a parts ih =>
    cases parts with
    | nil => simp [commas, separated]
    | cons b parts =>
      rw [commas_cons_cons, List.filterMap_append, List.filterMap_cons_none (hf _), ih]
      rfl

@[simp] theorem names_commas (parts : List Sql) : (commas parts).names = parts.flatMap names :=
  filterMap_commas (fun _ => rfl) parts

@[simp] theorem slots_commas (parts : List Sql) : (commas parts).slots = parts.flatMap slots :=
  filterMap_commas (fun _ => rfl) parts

theorem plain_commas {parts : List Sql} (h : ∀ a ∈ parts, Plain a) : (commas parts).Plain := by
  induction parts with
  | nil => exact plain_nil
  | cons a parts ih =>
    obtain ⟨ha, hparts⟩ := List.forall_mem_cons.mp h
    cases parts with
    | nil => simpa [commas, separated] using ha
    | cons b parts =>
      rw [commas_cons_cons, plain_append, plain_cons, Token.plain_text]
      exact ⟨ha, by decide, ih hparts⟩

/-! ## Cutting statements -/

/-- What a token is cut into. -/
def Token.glyphs : Token → List Glyph
  | .text s => s.toList.map .char
  | .name s => [.name s]
  | .slot n => ('$' :: Nat.toDigits 10 n).map .char

/-- What a statement is cut into. -/
def glyphs (sql : Sql) : List Glyph := sql.flatMap Token.glyphs

/-- The names among the glyphs of a text are those of its tokens. -/
theorem name?_glyphs (sql : Sql) : sql.glyphs.filterMap Glyph.name? = sql.names := by
  have htext (s : List Char) : (s.map Glyph.char).filterMap Glyph.name? = [] := by
    rw [List.filterMap_map]
    exact List.filterMap_eq_nil_iff.mpr fun _ _ => rfl
  induction sql with
  | nil => rfl
  | cons t sql ih =>
    rw [glyphs, List.flatMap_cons, List.filterMap_append, ← glyphs, ih]
    cases t with
    | name s => rfl
    | text s => rw [Token.glyphs, htext, List.nil_append, names_text]
    | slot n => rw [Token.glyphs, htext, List.nil_append, names_slot]

/-- **Quoting cannot be escaped.** The text of a statement is cut at its names and nowhere else. -/
theorem cut_render {sql : Sql} (h : sql.Readable) : cut sql.render = some sql.glyphs := by
  obtain ⟨hparted, hplain⟩ := h
  have key : cutOutside (sql.flatMap fun t => t.render.toList) = some sql.glyphs := by
    induction sql with
    | nil => rfl
    | cons t rest ih =>
      obtain ⟨ht, hrest⟩ := (plain_cons rest t).mp hplain
      have hcut := ih (List.IsChain.tail hparted) hrest
      rw [List.flatMap_cons, glyphs, List.flatMap_cons]
      cases t with
      | text s =>
        rw [Token.render, cutOutside_append ht.1, hcut]
        rfl
      | slot n =>
        have hslot : (Token.slot n).render.toList = '$' :: Nat.toDigits 10 n := by
          simp [Token.render]
        have hdigits : '"' ∉ '$' :: Nat.toDigits 10 n := by
          rw [List.mem_cons, not_or]
          refine ⟨by decide, fun hmem => ?_⟩
          cases Nat.isDigit_of_mem_toDigits (by decide) (by decide) hmem
        rw [hslot, cutOutside_append hdigits, hcut]
        rfl
      | name s =>
        -- No quote follows the closing one, which could otherwise be taken for a doubled quote.
        have hnext : (rest.flatMap fun t => t.render.toList).head? ≠ some '"' := by
          cases rest with
          | nil => simp
          | cons u rest =>
            obtain ⟨c, hc, hparts⟩ := List.IsChain.rel hparted
            rw [Token.first?_eq_head?] at hc
            obtain ⟨chars, hchars⟩ := List.head?_eq_some_iff.mp hc
            rw [List.flatMap_cons, hchars, List.cons_append, List.head?_cons]
            rintro ⟨⟩
            cases hparts
        have hname : (Token.name s).render.toList = Identifier.quoteChars s.toList := by
          simp [Token.render, Identifier.quote]
        rw [hname, cutOutside_quoteChars hnext, hcut, String.ofList_toList]
        rfl
  rw [cut, toList_render, key]

/-- The doubled quote belongs to the name, and so does all that could end the statement. -/
example : cut "\"a\"\"; --\" = $1" = some (.name "a\"; --" :: " = $1".toList.map .char) := by
  decide +kernel

/-- The names of a statement are read back from its text. -/
theorem quotes_render {sql : Sql} (h : sql.Readable) : Quotes sql.render sql.names :=
  ⟨sql.glyphs, cut_render h, name?_glyphs sql⟩

/-! ## Slots -/

/-- A plain statement has its slots where its tokens say so. -/
theorem slots_lexemes {sql : Sql} (h : sql.Plain) :
    sql.lexemes.filterMap Lexeme.slot? = sql.slots := by
  induction sql with
  | nil => rfl
  | cons t sql ih =>
    obtain ⟨ht, hrest⟩ := (plain_cons sql t).mp h
    rw [lexemes_cons, List.filterMap_append, ih hrest]
    cases t with
    | text s => rw [Token.lexemes, List.filterMap_eq_nil_iff.mpr ht.2, List.nil_append, slots_text]
    | name s => rfl
    | slot n => rfl

/-- The slots of a text are those of the statement that it is the text of. -/
theorem slots_scan {sql : Sql} (h : sql.Readable) :
    (scan sql.render).filterMap Lexeme.slot? = sql.slots := by
  rw [scan_render h.parted, slots_lexemes h.plain]

/-- A slot is found in a text if it is one of its tokens, whatever the names look like. -/
theorem mem_scan_slot {sql : Sql} (h : sql.Readable) (n : Nat) :
    .slot n ∈ scan sql.render ↔ n ∈ sql.slots := by
  rw [← slots_scan h, List.mem_filterMap]
  constructor
  · exact fun h => ⟨.slot n, h, rfl⟩
  · rintro ⟨l, hl, hslot⟩
    cases l <;> cases hslot
    exact hl

end VectorTable.Sql
