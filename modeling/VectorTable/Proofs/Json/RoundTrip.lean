import Mathlib.Data.List.DropRight
import VectorTable.Proofs.Dictionary
import VectorTable.Proofs.Json.Number
import VectorTable.Proofs.Json.Text

/-!
# VectorTable — JSON values as written and read

A value whose objects list their members in order, and whose arrays and objects are not nested
too deep, is read back as it was written.

* `Json.tree` — the structure of the text of a value;
* `Json.Fits` — the values that can be read;
* `Json.parse?_render` — the round trip.
-/

namespace VectorTable.Json

/-! ## Blanks before a value -/

theorem skipBlanks_skipBlanks (s : List Char) : skipBlanks (skipBlanks s) = skipBlanks s :=
  List.dropWhile_idempotent isBlank s

/-- A reader skips the blanks at its start, so that they may be skipped before. -/
theorem readValue_skipBlanks (fuel : Nat) (s : List Char) :
    readValue fuel (skipBlanks s) = readValue fuel s := by
  cases fuel with
  | zero => rfl
  | succ fuel => rw [readValue, readValue, skipBlanks_skipBlanks]

theorem readItems_skipBlanks (fuel : Nat) (s : List Char) :
    readItems fuel (skipBlanks s) = readItems fuel s := by
  cases fuel with
  | zero => rfl
  | succ fuel => rw [readItems, readItems, readValue_skipBlanks]

theorem readMembers_skipBlanks (fuel : Nat) (s : List Char) :
    readMembers fuel (skipBlanks s) = readMembers fuel s := by
  cases fuel with
  | zero => rfl
  | succ fuel => rw [readMembers, readMembers, skipBlanks_skipBlanks]

/-! ## Trees of values -/

mutual

/-- The structure of the text of a value. -/
def tree : Json → Tree
  | .null => .null
  | .bool b => .bool b
  | .number n => .number (some n)
  | .string s => .string (some s)
  | .array items => .array (itemTrees items)
  | .object members => .object (memberTrees members)

def itemTrees : List Json → List Tree
  | [] => []
  | v :: vs => v.tree :: itemTrees vs

def memberTrees : List (String × Json) → List (Option String × Tree)
  | [] => []
  | (k, v) :: ms => (some k, v.tree) :: memberTrees ms

end

mutual

/-- At most `room` arrays and objects are open at once in the value, and all objects list their
members in the order of their keys. -/
def Fits : Json → Nat → Prop
  | .null, _ | .bool _, _ | .number _, _ | .string _, _ => True
  | .array _, 0 | .object _, 0 => False
  | .array items, room + 1 => ItemsFit items room
  | .object members, room + 1 => Entries.Ascending members ∧ MembersFit members room

def ItemsFit : List Json → Nat → Prop
  | [], _ => True
  | v :: vs, room => v.Fits room ∧ ItemsFit vs room

def MembersFit : List (String × Json) → Nat → Prop
  | [], _ => True
  | (_, v) :: ms, room => v.Fits room ∧ MembersFit ms room

end

/-! ## From the structure to the value -/

mutual

/-- The tree of a value that fits gives back the value, and so do the trees of its items and
members. -/
theorem toJson?_tree : (v : Json) → (room : Nat) → v.Fits room → v.tree.toJson? room = some v
  | .null, _, _ => rfl
  | .bool _, _, _ => rfl
  | .number _, _, _ => rfl
  | .string _, _, _ => rfl
  | .array items, room + 1, h => by
    rw [tree, Tree.toJson?, itemsToJson?_trees items room h]
    rfl
  | .object members, room + 1, h => by
    rw [tree, Tree.toJson?, membersToJson?_trees members room h.2, Option.map_some, ofMembers,
      h.1.sort_eq]

theorem itemsToJson?_trees : (vs : List Json) → (room : Nat) → ItemsFit vs room →
    Tree.itemsToJson? room (itemTrees vs) = some vs
  | [], _, _ => rfl
  | v :: vs, room, h => by
    rw [itemTrees, Tree.itemsToJson?, toJson?_tree v room h.1, itemsToJson?_trees vs room h.2]

theorem membersToJson?_trees : (ms : List (String × Json)) → (room : Nat) → MembersFit ms room →
    Tree.membersToJson? room (memberTrees ms) = some ms
  | [], _, _ => rfl
  | (k, v) :: ms, room, h => by
    simp only [memberTrees, Tree.membersToJson?, toJson?_tree v room h.1,
      membersToJson?_trees ms room h.2]

end

/-! ## Steps of the reader -/

/-- A text starts with a character that opens a value. -/
def StartsValue (s : List Char) : Prop :=
  ∃ c rest, s = c :: rest ∧ isBlank c = false ∧ c ≠ ']'

/-- No blank is skipped where none stands. -/
theorem skipBlanks_cons (c : Char) (hc : isBlank c = false) (s : List Char) :
    skipBlanks (c :: s) = c :: s :=
  List.dropWhile_cons_of_neg (by simp [hc])

theorem StartsValue.append {s : List Char} (h : StartsValue s) (more : List Char) :
    StartsValue (s ++ more) := by
  obtain ⟨c, rest, rfl, hblank, hne⟩ := h
  exact ⟨c, rest ++ more, rfl, hblank, hne⟩

/-- Nothing is skipped before a value. -/
theorem StartsValue.skipBlanks {s : List Char} (h : StartsValue s) (more : List Char) :
    skipBlanks (s ++ more) = s ++ more := by
  obtain ⟨c, rest, rfl, hblank, -⟩ := h
  exact skipBlanks_cons c hblank _

/-- Neither a minus nor a digit is a blank. -/
theorem isBlank_of_startsNumber {c : Char} (h : c = '-' ∨ c.isDigit = true) :
    isBlank c = false := by
  rcases h with rfl | hdigit
  · rfl
  · cases hblank : isBlank c with
    | false => rfl
    | true =>
      simp only [isBlank, Bool.or_eq_true, decide_eq_true_eq] at hblank
      rcases hblank with ((rfl | rfl) | rfl) | rfl <;> cases hdigit

/-- A number is the start of a value. -/
theorem startsValue_number {c : Char} (h : c = '-' ∨ c.isDigit = true) (rest : List Char) :
    StartsValue (c :: rest) := by
  refine ⟨c, rest, rfl, isBlank_of_startsNumber h, ?_⟩
  rintro rfl
  rcases h with h | h <;> cases h

/-- A text that starts with a minus or a digit is read as a number. -/
theorem readValue_number {c : Char} {s : List Char} (hc : c = '-' ∨ c.isDigit = true)
    (fuel : Nat) :
    readValue (fuel + 1) (c :: s)
      = (readNumber (c :: s)).map fun (n, rest) => (.number n, rest) := by
  rw [readValue, skipBlanks_cons c (isBlank_of_startsNumber hc)]
  -- Every other kind of value starts with another character.
  split
  all_goals try (rename_i heq; cases heq; rcases hc with h | h <;> cases h)
  rfl

/-- Behind a bracket stand items, unless another bracket follows. -/
theorem readValue_array {s : List Char} (h : StartsValue (skipBlanks s)) (fuel : Nat) :
    readValue (fuel + 1) ('[' :: s)
      = (readItems fuel s).map fun (items, rest) => (.array items, rest) := by
  rw [readValue, ← readItems_skipBlanks]
  simp only [skipBlanks_cons '[' rfl]
  obtain ⟨c, rest, hs, -, hne⟩ := h
  split
  · rename_i heq
    rw [hs] at heq
    cases heq
    exact absurd rfl hne
  · rfl

/-- Behind a brace stand members, if there is a key. -/
theorem readValue_object {s r : List Char} (h : skipBlanks s = '"' :: r) (fuel : Nat) :
    readValue (fuel + 1) ('\x7b' :: s)
      = (readMembers fuel s).map fun (members, rest) => (.object members, rest) := by
  rw [readValue, ← readMembers_skipBlanks]
  simp only [skipBlanks_cons '\x7b' rfl, h]
  rfl

/-- A text goes on with a quoted key and a colon, and then with the rest. -/
def ReadsKey (s : List Char) (key : Option String) (rest : List Char) : Prop :=
  ∃ q r, skipBlanks s = '"' :: q ∧ readText q = some (key, r) ∧ skipBlanks r = ':' :: rest

section

variable {fuel : Nat} {s value r r' : List Char} {key : Option String} {t : Tree}

/-- Behind an item and a comma stand more items. -/
theorem readItems_comma (h : readValue fuel s = some (t, r)) (hr : skipBlanks r = ',' :: r') :
    readItems (fuel + 1) s = (readItems fuel r').map fun (ts, rest) => (t :: ts, rest) := by
  rw [readItems, h]
  simp only [hr]

/-- Behind the last item stands the bracket. -/
theorem readItems_close (h : readValue fuel s = some (t, r)) (hr : skipBlanks r = ']' :: r') :
    readItems (fuel + 1) s = some ([t], r') := by
  rw [readItems, h]
  simp only [hr]

/-- Behind a member and a comma stand more members. -/
theorem readMembers_comma (hkey : ReadsKey s key value)
    (h : readValue fuel value = some (t, r)) (hr : skipBlanks r = ',' :: r') :
    readMembers (fuel + 1) s
      = (readMembers fuel r').map fun (ms, rest) => ((key, t) :: ms, rest) := by
  obtain ⟨q, after, hquote, htext, hcolon⟩ := hkey
  rw [readMembers, hquote]
  simp only [htext, hcolon, h, hr]

/-- Behind the last member stands the brace. -/
theorem readMembers_close (hkey : ReadsKey s key value)
    (h : readValue fuel value = some (t, r)) (hr : skipBlanks r = '\x7d' :: r') :
    readMembers (fuel + 1) s = some ([(key, t)], r') := by
  obtain ⟨q, after, hquote, htext, hcolon⟩ := hkey
  rw [readMembers, hquote]
  simp only [htext, hcolon, h, hr]

end

/-! ## From the text to the structure -/

/-- No value starts with a blank or like the end of an array. -/
theorem startsValue_chars (v : Json) : StartsValue v.chars := by
  match v with
  | .null => exact ⟨'n', _, rfl, rfl, by decide⟩
  | .bool true => exact ⟨'t', _, rfl, rfl, by decide⟩
  | .bool false => exact ⟨'f', _, rfl, rfl, by decide⟩
  | .string s => exact ⟨'"', _, rfl, rfl, by decide⟩
  | .array [] => exact ⟨'[', _, rfl, rfl, by decide⟩
  | .array (_ :: _) => exact ⟨'[', _, by rw [chars], rfl, by decide⟩
  | .object [] => exact ⟨'\x7b', _, rfl, rfl, by decide⟩
  | .object ((_, _) :: _) => exact ⟨'\x7b', _, by rw [chars], rfl, by decide⟩
  | .number n =>
    obtain ⟨c, rest, hchars, hc⟩ := exists_chars_head n
    rw [chars, hchars]
    exact startsValue_number hc rest

/-- What follows an item, a comma or a bracket, is not part of it. -/
theorem endsNumber_itemsChars (vs : List Json) (rest : List Char) :
    EndsNumber (itemsChars vs ++ rest) := by
  intro c hc
  cases vs with
  | nil =>
    obtain rfl : ']' = c := Option.some.inj hc
    decide
  | cons v vs =>
    rw [itemsChars] at hc
    obtain rfl : ',' = c := Option.some.inj hc
    decide

/-- What follows a member, a comma or a brace, is not part of it. -/
theorem endsNumber_membersChars (ms : List (String × Json)) (rest : List Char) :
    EndsNumber (membersChars ms ++ rest) := by
  intro c hc
  cases ms with
  | nil =>
    obtain rfl : '\x7d' = c := Option.some.inj hc
    decide
  | cons m ms =>
    obtain ⟨k, v⟩ := m
    rw [membersChars] at hc
    obtain rfl : ',' = c := Option.some.inj hc
    decide

/-- A quoted text starts with a quotation mark, and ends with one that is not escaped. -/
theorem quote_append (s : String) (rest : List Char) :
    quote s ++ rest = '"' :: (s.toList.flatMap quoteChar ++ '"' :: rest) := by
  simp [quote]

/-- A written key is read. -/
theorem readsKey_quote (k : String) (s : List Char) :
    ReadsKey (quote k ++ ':' :: s) (some k) s := by
  rw [quote_append]
  exact ⟨_, _, skipBlanks_cons '"' rfl _, readText_quote k (':' :: s), skipBlanks_cons ':' rfl s⟩

mutual

/-- A value is read up to its end. Each step of the reader takes at least one character, so that
more steps than characters are enough. -/
theorem readValue_chars : (v : Json) → (fuel : Nat) → (rest : List Char) →
    v.chars.length < fuel → EndsNumber rest → readValue fuel (v.chars ++ rest) = some (v.tree, rest)
  | .null, fuel + 1, rest, _, _ => rfl
  | .bool true, fuel + 1, rest, _, _ => rfl
  | .bool false, fuel + 1, rest, _, _ => rfl
  | .number n, fuel + 1, rest, _, hrest => by
    obtain ⟨c, s, hchars, hc⟩ := exists_chars_head n
    have hread := readNumber_chars n hrest
    rw [chars, tree]
    rw [hchars, List.cons_append] at hread ⊢
    rw [readValue_number hc, hread, Option.map_some]
  | .string s, fuel + 1, rest, _, _ => by
    have hstep (r : List Char) : readValue (fuel + 1) ('"' :: r)
        = (readText r).map fun (text, rest) => (.string text, rest) := rfl
    rw [chars, tree, quote_append, hstep, readText_quote, Option.map_some]
  | .array [], fuel + 1, rest, _, _ => rfl
  | .array (v :: vs), fuel + 1, rest, hfuel, _ => by
    rw [chars, List.length_cons] at hfuel
    -- The first item tells the array from an empty one.
    have hstart : StartsValue (skipBlanks (v.chars ++ itemsChars vs ++ rest)) := by
      rw [List.append_assoc, (startsValue_chars v).skipBlanks]
      exact (startsValue_chars v).append _
    rw [chars, List.cons_append, readValue_array hstart,
      readItems_chars v vs fuel rest (by omega), Option.map_some]
    rfl
  | .object [], fuel + 1, rest, _, _ => rfl
  | .object ((k, v) :: ms), fuel + 1, rest, hfuel, _ => by
    rw [chars, List.length_cons] at hfuel
    have hread := readMembers_chars k v ms fuel rest (by omega)
    -- The key of the first member tells the object from an empty one.
    obtain ⟨q, r, hquote, -⟩ := readsKey_quote k (v.chars ++ membersChars ms ++ rest)
    rw [← List.cons_append, ← List.append_assoc] at hquote
    rw [chars, List.cons_append, readValue_object hquote, hread, Option.map_some]
    rfl

/-- Items are read back up to the bracket that ends them. -/
theorem readItems_chars : (v : Json) → (vs : List Json) → (fuel : Nat) → (rest : List Char) →
    (v.chars ++ itemsChars vs).length < fuel →
    readItems fuel (v.chars ++ itemsChars vs ++ rest) = some (v.tree :: itemTrees vs, rest)
  | v, [], fuel + 1, rest, hfuel => by
    rw [itemsChars, List.length_append, List.length_singleton] at hfuel
    have hvalue := readValue_chars v fuel (']' :: rest) (by omega) (endsNumber_itemsChars [] rest)
    rw [List.append_assoc]
    exact readItems_close hvalue (skipBlanks_cons ']' rfl rest)
  | v, w :: vs, fuel + 1, rest, hfuel => by
    rw [itemsChars, List.length_append, List.length_cons] at hfuel
    -- The comma ends the value, and the rest is a shorter list of the same kind.
    have hvalue := readValue_chars v fuel (',' :: (w.chars ++ itemsChars vs ++ rest)) (by omega)
      (endsNumber_itemsChars (w :: vs) rest)
    have hitems := readItems_comma hvalue (skipBlanks_cons ',' rfl _)
    rw [readItems_chars w vs fuel rest (by omega)] at hitems
    rw [List.append_assoc]
    exact hitems

/-- Members are read back up to the brace that ends them. -/
theorem readMembers_chars : (k : String) → (v : Json) → (ms : List (String × Json)) →
    (fuel : Nat) → (rest : List Char) →
    (quote k ++ ':' :: (v.chars ++ membersChars ms)).length < fuel →
    readMembers fuel (quote k ++ ':' :: (v.chars ++ membersChars ms) ++ rest)
      = some ((some k, v.tree) :: memberTrees ms, rest)
  | k, v, [], fuel + 1, rest, hfuel => by
    rw [membersChars, List.length_append, List.length_cons, List.length_append,
      List.length_singleton] at hfuel
    have hvalue := readValue_chars v fuel ('\x7d' :: rest) (by omega)
      (endsNumber_membersChars [] rest)
    rw [List.append_assoc, List.cons_append, List.append_assoc]
    exact readMembers_close (readsKey_quote k _) hvalue (skipBlanks_cons '\x7d' rfl rest)
  | k, v, (l, w) :: ms, fuel + 1, rest, hfuel => by
    rw [membersChars, List.length_append, List.length_cons, List.length_append, List.length_cons]
      at hfuel
    have hvalue := readValue_chars v fuel
      (',' :: (quote l ++ ':' :: (w.chars ++ membersChars ms) ++ rest)) (by omega)
      (endsNumber_membersChars ((l, w) :: ms) rest)
    -- Behind the first member stands a comma, and the others are read by induction.
    have hmembers := readMembers_comma (readsKey_quote k _) hvalue (skipBlanks_cons ',' rfl _)
    rw [readMembers_chars l w ms fuel rest (by omega)] at hmembers
    rw [List.append_assoc, List.cons_append, List.append_assoc]
    exact hmembers

end

/-- The structure of the text of a value is found, however deep it is. -/
theorem parse?_render_tree (v : Json) : Tree.parse? v.render = some v.tree := by
  have hread := readValue_chars v (v.chars.length + 1) [] (Nat.lt_succ_self _) nofun
  rw [List.append_nil] at hread
  simp only [Tree.parse?, render, String.toList_ofList, hread]
  rfl

/-- **JSON values are read back** as they were written. -/
theorem parse?_render (v : Json) (h : v.Fits maxDepth) : parse? v.render = some v := by
  rw [parse?, parse?_render_tree, Option.bind_some, toJson?_tree v maxDepth h]

end VectorTable.Json
