import VectorTable.Proofs.Json.Lexical
import VectorTable.Proofs.Json.RoundTrip

/-!
# VectorTable — the texts that are accepted

The reader of JSON takes a text exactly if the grammar gives it a value, and then it finds that
value. So a text has one value at most.

* `Json.valueText_of_readValue` — what is read is written by the grammar;
* `Json.readValue_of_valueText` — what the grammar writes is read;
* `Json.parse?_eq_some_iff` — both for a whole text.
-/

namespace VectorTable.Json

/-! ## Blanks -/

/-- Blanks are the characters that the reader skips. -/
theorem blanks_iff {s : List Char} : Blanks s ↔ ∀ c ∈ s, isBlank c = true := by
  simp [Blanks, isBlank, or_assoc]

/-- What is skipped before a text is blanks. -/
theorem skipBlanks_eq {s r : List Char} (h : skipBlanks s = r) : ∃ b, s = b ++ r ∧ Blanks b := by
  refine ⟨s.takeWhile isBlank, ?_, blanks_iff.mpr (List.all_eq_true.mp List.all_takeWhile)⟩
  rw [← h]
  exact List.takeWhile_append_dropWhile.symm

/-- Blanks before a text are skipped with those that it starts with. -/
theorem Blanks.skipBlanks_append {b : List Char} (h : Blanks b) (s : List Char) :
    skipBlanks (b ++ s) = skipBlanks s :=
  List.dropWhile_append_of_pos (blanks_iff.mp h)

/-- Nothing is left of blanks. -/
theorem Blanks.skipBlanks {b : List Char} (h : Blanks b) : skipBlanks b = [] := by
  have := h.skipBlanks_append []
  rwa [List.append_nil] at this

theorem endsNumber_nil : EndsNumber [] := by
  intro c hc
  cases hc

/-- A number is over where blanks begin. -/
theorem Blanks.endsNumber {b r : List Char} (h : Blanks b) (hr : EndsNumber r) :
    EndsNumber (b ++ r) := by
  cases b with
  | nil => exact hr
  | cons c b =>
    intro d hd
    obtain rfl : c = d := Option.some.inj hd
    rcases h c List.mem_cons_self with rfl | rfl | rfl | rfl <;> decide

/-- Blanks before a value change nothing. -/
theorem Blanks.readValue_append {b : List Char} (h : Blanks b) (fuel : Nat) (s : List Char) :
    readValue fuel (b ++ s) = readValue fuel s := by
  rw [← readValue_skipBlanks, h.skipBlanks_append, readValue_skipBlanks]

/-! ## What is read is in the grammar -/

/-- The tree of an array takes one level of nesting, and the others are left to its items. -/
theorem toJson?_array_eq_some {room : Nat} {trees : List Tree} {v : Json}
    (h : Tree.toJson? room (.array trees) = some v) : ∃ room' items, room = room' + 1 ∧
      Tree.itemsToJson? room' trees = some items ∧ v = .array items := by
  cases room with
  | zero => cases h
  | succ room =>
    obtain ⟨items, hitems, rfl⟩ := Option.map_eq_some_iff.mp h
    exact ⟨room, items, rfl, hitems, rfl⟩

/-- So does the tree of an object, whose members are sorted by their keys. -/
theorem toJson?_object_eq_some {room : Nat} {trees : List (Option String × Tree)} {v : Json}
    (h : Tree.toJson? room (.object trees) = some v) : ∃ room' members, room = room' + 1 ∧
      Tree.membersToJson? room' trees = some members ∧ v = .object (Entries.sort members) := by
  cases room with
  | zero => cases h
  | succ room =>
    obtain ⟨members, hmembers, rfl⟩ := Option.map_eq_some_iff.mp h
    exact ⟨room, members, rfl, hmembers, rfl⟩

/-- Trees of items are values one by one. -/
theorem itemsToJson?_cons_eq_some {room : Nat} {tree : Tree} {trees : List Tree}
    {items : List Json} (h : Tree.itemsToJson? room (tree :: trees) = some items) :
    ∃ v vs, items = v :: vs ∧ tree.toJson? room = some v ∧
      Tree.itemsToJson? room trees = some vs := by
  rw [Tree.itemsToJson?] at h
  split at h
  · rename_i v vs hv hvs
    cases h
    exact ⟨v, vs, rfl, hv, hvs⟩
  · cases h

/-- Trees of members are values one by one, each under a key that is a text. -/
theorem membersToJson?_cons_eq_some {room : Nat} {key : Option String} {tree : Tree}
    {trees : List (Option String × Tree)} {members : List (String × Json)}
    (h : Tree.membersToJson? room ((key, tree) :: trees) = some members) :
    ∃ k v ms, members = (k, v) :: ms ∧ key = some k ∧ tree.toJson? room = some v ∧
      Tree.membersToJson? room trees = some ms := by
  cases key with
  | none => simp [Tree.membersToJson?] at h
  | some k =>
    simp only [Tree.membersToJson?] at h
    split at h
    · rename_i k v ms heq hv hms
      cases h
      exact ⟨k, v, ms, rfl, heq, hv, hms⟩
    · cases h

/-- The parts of a member, one after the other. -/
theorem memberText_of_parts {room : Nat} {s r r' b t r'' rest : List Char} {key : String}
    {v : Json} (hquote : skipBlanks s = '"' :: r) (hkey : readText r = some (some key, r'))
    (hcolon : skipBlanks r' = ':' :: (b ++ (t ++ r''))) (hb : Blanks b)
    (hvalue : ValueText room t v) (hend : skipBlanks r'' = rest) :
    ∃ m, s = m ++ rest ∧ MemberText room m (key, v) := by
  obtain ⟨before, rfl, hbefore⟩ := skipBlanks_eq hquote
  obtain ⟨q, hq, hqtext⟩ := quotedText_of_readText hkey
  obtain ⟨after, rfl, hafter⟩ := skipBlanks_eq hcolon
  obtain ⟨b', rfl, hb'⟩ := skipBlanks_eq hend
  exact ⟨_, by rw [hq]; simp, .mk hbefore hqtext hafter (.mk hb hvalue hb')⟩

mutual

/-- **What is read is written by the grammar**: behind blanks stands the text of a value, as far as
the tree that is read has one. Items and members are read by the same recursion. -/
theorem valueText_of_readValue : (fuel : Nat) → {s rest : List Char} → {tree : Tree} →
    readValue fuel s = some (tree, rest) → {room : Nat} → {v : Json} →
    tree.toJson? room = some v →
    ∃ b t, s = b ++ (t ++ rest) ∧ Blanks b ∧ ValueText room t v
  | 0, _, _, _, h, _, _, _ => by cases h
  | fuel + 1, s, rest, tree, h, room, v, hv => by
    -- The blanks before the value have been skipped before it is looked at.
    suffices hvalue : ∃ t, skipBlanks s = t ++ rest ∧ ValueText room t v by
      obtain ⟨b, hs, hb⟩ := skipBlanks_eq (s := s) rfl
      obtain ⟨t, ht, hvalue⟩ := hvalue
      exact ⟨b, t, by rw [← ht, ← hs], hb, hvalue⟩
    rw [readValue] at h
    generalize skipBlanks s = text at h ⊢
    split at h
    · -- An object: it is empty if nothing but blanks stands between the braces.
      split at h
      · rename_i hbrace
        cases h
        obtain ⟨b, rfl, hb⟩ := skipBlanks_eq hbrace
        obtain ⟨room, members, rfl, hmembers, rfl⟩ := toJson?_object_eq_some hv
        cases hmembers
        exact ⟨_, by simp, .object (.none hb)⟩
      · -- The reader has skipped the blanks before the first member, which belong to it.
        rename_i r _ _
        rw [readMembers_skipBlanks] at h
        obtain ⟨⟨trees, rest⟩, hread, htree⟩ := Option.map_eq_some_iff.mp h
        cases htree
        obtain ⟨room, members, rfl, hmembers, rfl⟩ := toJson?_object_eq_some hv
        obtain ⟨t, rfl, htext, -⟩ := membersText_of_readMembers fuel hread hmembers
        exact ⟨_, by simp, .object htext⟩
    · split at h
      · rename_i hbracket
        cases h
        obtain ⟨b, rfl, hb⟩ := skipBlanks_eq hbracket
        obtain ⟨room, items, rfl, hitems, rfl⟩ := toJson?_array_eq_some hv
        cases hitems
        exact ⟨_, by simp, .array (.none hb)⟩
      · rename_i r _ _
        rw [readItems_skipBlanks] at h
        obtain ⟨⟨trees, rest⟩, hread, htree⟩ := Option.map_eq_some_iff.mp h
        cases htree
        obtain ⟨room, items, rfl, hitems, rfl⟩ := toJson?_array_eq_some hv
        obtain ⟨t, rfl, htext, -⟩ := itemsText_of_readItems fuel hread hitems
        exact ⟨_, by simp, .array htext⟩
    · -- A text that has no value, with an unpaired surrogate, is not what was read.
      obtain ⟨⟨text, rest⟩, hread, htree⟩ := Option.map_eq_some_iff.mp h
      cases htree
      obtain ⟨t, rfl, rfl⟩ := Option.map_eq_some_iff.mp hv
      obtain ⟨q, hq, htext⟩ := quotedText_of_readText hread
      exact ⟨q, hq, .string htext⟩
    · cases h
      cases hv
      exact ⟨_, rfl, .null⟩
    · cases h
      cases hv
      exact ⟨_, rfl, .true⟩
    · cases h
      cases hv
      exact ⟨_, rfl, .false⟩
    · -- Neither is a number beyond the floats.
      obtain ⟨⟨number, rest⟩, hread, htree⟩ := Option.map_eq_some_iff.mp h
      cases htree
      obtain ⟨n, rfl, rfl⟩ := Option.map_eq_some_iff.mp hv
      obtain ⟨t, rfl, htext⟩ := numberText_of_readNumber hread
      exact ⟨t, rfl, .number htext⟩

/-- Items are read up to the bracket, and there is at least one of them. -/
theorem itemsText_of_readItems : (fuel : Nat) → {s rest : List Char} → {trees : List Tree} →
    readItems fuel s = some (trees, rest) → {room : Nat} → {vs : List Json} →
    Tree.itemsToJson? room trees = some vs →
    ∃ t, s = t ++ ']' :: rest ∧ ItemsText room t vs ∧ vs ≠ []
  | 0, _, _, _, h, _, _, _ => by cases h
  | fuel + 1, s, rest, trees, h, room, vs, hvs => by
    rw [readItems] at h
    split at h
    · cases h
    · rename_i tree r hread
      split at h
      · -- A comma follows, and then more items.
        rename_i hcomma
        obtain ⟨⟨trees, rest⟩, hmore, htrees⟩ := Option.map_eq_some_iff.mp h
        cases htrees
        obtain ⟨v, vs, rfl, hv, hvs⟩ := itemsToJson?_cons_eq_some hvs
        obtain ⟨b, t, rfl, hb, hvalue⟩ := valueText_of_readValue fuel hread hv
        obtain ⟨b', rfl, hb'⟩ := skipBlanks_eq hcomma
        obtain ⟨t', rfl, hitems, hne⟩ := itemsText_of_readItems fuel hmore hvs
        exact ⟨_, by simp, .more (.mk hb hvalue hb') hitems hne, nofun⟩
      · -- The bracket follows, so that the item was the last.
        rename_i hbracket
        cases h
        obtain ⟨v, vs, rfl, hv, hvs⟩ := itemsToJson?_cons_eq_some hvs
        cases hvs
        obtain ⟨b, t, rfl, hb, hvalue⟩ := valueText_of_readValue fuel hread hv
        obtain ⟨b', rfl, hb'⟩ := skipBlanks_eq hbracket
        exact ⟨_, by simp, .one (.mk hb hvalue hb'), nofun⟩
      · cases h

/-- Members are read up to the brace, and there is at least one of them. -/
theorem membersText_of_readMembers : (fuel : Nat) → {s rest : List Char} →
    {trees : List (Option String × Tree)} → readMembers fuel s = some (trees, rest) →
    {room : Nat} → {ms : List (String × Json)} → Tree.membersToJson? room trees = some ms →
    ∃ t, s = t ++ '\x7d' :: rest ∧ MembersText room t ms ∧ ms ≠ []
  | 0, _, _, _, h, _, _, _ => by cases h
  | fuel + 1, s, rest, trees, h, room, ms, hms => by
    rw [readMembers] at h
    split at h
    · rename_i hquote
      split at h
      · cases h
      · rename_i key r hkey
        split at h
        · rename_i hcolon
          split at h
          · cases h
          · rename_i tree r' hread
            split at h
            · -- A comma follows, and then more members.
              rename_i hcomma
              obtain ⟨⟨trees, rest⟩, hmore, htrees⟩ := Option.map_eq_some_iff.mp h
              cases htrees
              obtain ⟨k, v, ms, rfl, rfl, hv, hms⟩ := membersToJson?_cons_eq_some hms
              obtain ⟨b, t, rfl, hb, hvalue⟩ := valueText_of_readValue fuel hread hv
              obtain ⟨m, rfl, hm⟩ := memberText_of_parts hquote hkey hcolon hb hvalue hcomma
              obtain ⟨t', rfl, hmembers, hne⟩ := membersText_of_readMembers fuel hmore hms
              exact ⟨_, by simp, .more hm hmembers hne, nofun⟩
            · -- The brace follows, so that the member was the last.
              rename_i hbrace
              cases h
              obtain ⟨k, v, ms, rfl, rfl, hv, hms⟩ := membersToJson?_cons_eq_some hms
              cases hms
              obtain ⟨b, t, rfl, hb, hvalue⟩ := valueText_of_readValue fuel hread hv
              obtain ⟨m, rfl, hm⟩ := memberText_of_parts hquote hkey hcolon hb hvalue hbrace
              exact ⟨_, rfl, .one hm, nofun⟩
            · cases h
        · cases h
    · cases h

end

/-! ## What is in the grammar is read -/

/-- A value does not start with a blank or like the end of an array. -/
theorem ValueText.startsValue {room : Nat} {t : List Char} {v : Json} (h : ValueText room t v) :
    StartsValue t := by
  cases h with
  | null => exact ⟨'n', _, rfl, rfl, by decide⟩
  | true => exact ⟨'t', _, rfl, rfl, by decide⟩
  | false => exact ⟨'f', _, rfl, rfl, by decide⟩
  | number hn =>
    obtain ⟨c, r, rfl, hc⟩ := hn.exists_cons
    exact startsValue_number hc r
  | string hs =>
    obtain ⟨s, rfl, -⟩ := readText_of_quotedText hs
    exact ⟨'"', s, rfl, rfl, by decide⟩
  | array => exact ⟨'[', _, rfl, rfl, by decide⟩
  | object => exact ⟨'\x7b', _, rfl, rfl, by decide⟩

/-- Where blanks end and a value starts, nothing else is skipped. -/
theorem skipBlanks_blanks_append {b t : List Char} (h : StartsValue t) (hb : Blanks b)
    (more : List Char) : skipBlanks (b ++ (t ++ more)) = t ++ more := by
  rw [hb.skipBlanks_append, h.skipBlanks]

/-- Items begin with a value, whatever blanks come before it. -/
theorem ItemsText.startsValue {room : Nat} {s : List Char} {items : List Json}
    (h : ItemsText room s items) (hne : items ≠ []) (more : List Char) :
    StartsValue (skipBlanks (s ++ more)) := by
  have helement {s : List Char} {v : Json} (h : ElementText room s v) (more : List Char) :
      StartsValue (skipBlanks (s ++ more)) := by
    obtain ⟨hbefore, hvalue, hafter⟩ := h
    rw [List.append_assoc, List.append_assoc, skipBlanks_blanks_append hvalue.startsValue hbefore]
    exact hvalue.startsValue.append _
  cases h with
  | none => exact absurd rfl hne
  | one h => exact helement h more
  | more h _ _ =>
    rw [List.append_assoc]
    exact helement h _

/-- Members begin with a quote, whatever blanks come before it. -/
theorem MembersText.startsQuote {room : Nat} {s : List Char} {members : List (String × Json)}
    (h : MembersText room s members) (hne : members ≠ []) (more : List Char) :
    ∃ r, skipBlanks (s ++ more) = '"' :: r := by
  have hmember {s : List Char} {m : String × Json} (h : MemberText room s m) (more : List Char) :
      ∃ r, skipBlanks (s ++ more) = '"' :: r := by
    obtain ⟨hbefore, hkey, -, -⟩ := h
    obtain ⟨r, rfl, -⟩ := readText_of_quotedText hkey
    rw [List.append_assoc, hbefore.skipBlanks_append]
    exact ⟨_, skipBlanks_cons '"' rfl _⟩
  cases h with
  | none => exact absurd rfl hne
  | one h => exact hmember h more
  | more h _ _ =>
    rw [List.append_assoc]
    exact hmember h _

/-- Nothing but blanks stands between the brackets. -/
theorem Blanks.readValue_brackets {b : List Char} (h : Blanks b) (fuel : Nat) (rest : List Char) :
    readValue (fuel + 1) ('[' :: (b ++ ']' :: rest)) = some (.array [], rest) := by
  rw [readValue]
  simp only [skipBlanks_cons '[' rfl, h.skipBlanks_append, skipBlanks_cons ']' rfl]

/-- Braces with nothing but blanks between them are an object without members. -/
theorem Blanks.readValue_braces {b : List Char} (h : Blanks b) (fuel : Nat) (rest : List Char) :
    readValue (fuel + 1) ('\x7b' :: (b ++ '\x7d' :: rest)) = some (.object [], rest) := by
  rw [readValue]
  simp only [skipBlanks_cons '\x7b' rfl, h.skipBlanks_append, skipBlanks_cons '\x7d' rfl]

/-- The key of a member, with blanks around it. -/
theorem QuotedText.readsKey {before k after s : List Char} {key : String}
    (hkey : QuotedText k key) (hbefore : Blanks before) (hafter : Blanks after) :
    ReadsKey (before ++ (k ++ (after ++ ':' :: s))) (some key) s := by
  obtain ⟨q, rfl, hread⟩ := readText_of_quotedText hkey
  refine ⟨_, _, ?_, hread (after ++ ':' :: s), ?_⟩
  · rw [hbefore.skipBlanks_append]
    exact skipBlanks_cons '"' rfl _
  · rw [hafter.skipBlanks_append]
    exact skipBlanks_cons ':' rfl s

/-- What ends an item or a member is not part of a number. -/
theorem Blanks.endsNumber_cons {b : List Char} (h : Blanks b) {c : Char}
    (hc : c = ',' ∨ c = ']' ∨ c = '\x7d') (rest : List Char) : EndsNumber (b ++ c :: rest) := by
  refine h.endsNumber fun d hd => ?_
  obtain rfl : c = d := Option.some.inj hd
  rcases hc with rfl | rfl | rfl <;> decide

mutual

/-- A value is read up to its end. Each step of the reader takes at least one character, so that
more steps than characters are enough. -/
theorem readValue_of_valueText : (fuel : Nat) → {room : Nat} → {t : List Char} → {v : Json} →
    ValueText room t v → t.length < fuel → (rest : List Char) → EndsNumber rest →
    ∃ tree, readValue fuel (t ++ rest) = some (tree, rest) ∧ tree.toJson? room = some v
  | fuel + 1, room, t, v, h, hfuel, rest, hrest => by
    cases h with
    | null => exact ⟨.null, rfl, rfl⟩
    | true => exact ⟨.bool true, rfl, rfl⟩
    | false => exact ⟨.bool false, rfl, rfl⟩
    | @number _ _ n hn =>
      obtain ⟨c, r, rfl, hc⟩ := hn.exists_cons
      refine ⟨.number (some n), ?_, rfl⟩
      -- A number ends only where what follows cannot belong to it.
      have hread := readNumber_of_numberText hn hrest
      rw [List.cons_append] at hread ⊢
      rw [readValue_number hc, hread, Option.map_some]
    | @string _ _ text hs =>
      obtain ⟨s, rfl, hread⟩ := readText_of_quotedText hs
      refine ⟨.string (some text), ?_, rfl⟩
      show (readText (s ++ rest)).map _ = _
      rw [hread]
      rfl
    | @array room s items hitems =>
      have hlength : s.length + 1 < fuel := by simpa using hfuel
      have htext : '[' :: (s ++ [']']) ++ rest = '[' :: (s ++ ']' :: rest) := by simp
      rw [htext]
      -- Without items the bracket follows at once, and no item is waited for.
      by_cases hnil : items = []
      · subst hnil
        cases hitems with
        | none hb => exact ⟨.array [], hb.readValue_brackets fuel rest, rfl⟩
      · obtain ⟨trees, hread, htrees⟩ := readItems_of_itemsText fuel hitems hnil hlength rest
        refine ⟨.array trees, ?_, ?_⟩
        · rw [readValue_array (hitems.startsValue hnil _), hread, Option.map_some]
        · rw [Tree.toJson?, htrees, Option.map_some]
    | @object room s members hmembers =>
      have hlength : s.length + 1 < fuel := by simpa using hfuel
      have htext : '\x7b' :: (s ++ ['\x7d']) ++ rest = '\x7b' :: (s ++ '\x7d' :: rest) := by simp
      rw [htext]
      by_cases hnil : members = []
      · subst hnil
        cases hmembers with
        | none hb => exact ⟨.object [], hb.readValue_braces fuel rest, rfl⟩
      · obtain ⟨trees, hread, htrees⟩ := readMembers_of_membersText fuel hmembers hnil hlength rest
        obtain ⟨r, hquote⟩ := hmembers.startsQuote hnil ('\x7d' :: rest)
        refine ⟨.object trees, ?_, ?_⟩
        · rw [readValue_object hquote, hread, Option.map_some]
        · rw [Tree.toJson?, htrees, Option.map_some, ofMembers]

/-- The items of the grammar are read up to the bracket behind them. -/
theorem readItems_of_itemsText : (fuel : Nat) → {room : Nat} → {s : List Char} →
    {items : List Json} → ItemsText room s items → items ≠ [] → s.length + 1 < fuel →
    (rest : List Char) → ∃ trees, readItems fuel (s ++ ']' :: rest) = some (trees, rest) ∧
      Tree.itemsToJson? room trees = some items
  | fuel + 1, room, s, items, h, hne, hfuel, rest => by
    cases h with
    | none => exact absurd rfl hne
    | one h =>
      obtain ⟨hbefore, hvalue, hafter⟩ := h
      simp only [List.length_append] at hfuel
      obtain ⟨tree, hread, htree⟩ := readValue_of_valueText fuel hvalue (by omega) _
        (hafter.endsNumber_cons (.inr (.inl rfl)) rest)
      -- Behind the blanks after the item stands the bracket.
      have hend := hafter.skipBlanks_append (']' :: rest)
      rw [skipBlanks_cons ']' rfl] at hend
      simp only [List.append_assoc]
      rw [← hbefore.readValue_append] at hread
      refine ⟨_, readItems_close hread hend, ?_⟩
      simp only [Tree.itemsToJson?, htree]
    | @more _ _ r _ _ h hitems hmore =>
      obtain ⟨hbefore, hvalue, hafter⟩ := h
      simp only [List.length_append, List.length_cons] at hfuel
      obtain ⟨tree, hread, htree⟩ := readValue_of_valueText fuel hvalue (by omega) _
        (hafter.endsNumber_cons (.inl rfl) (r ++ ']' :: rest))
      obtain ⟨trees, hreadMore, htrees⟩ :=
        readItems_of_itemsText fuel hitems hmore (by omega) rest
      -- Behind the blanks after the item stands the comma.
      have hend := hafter.skipBlanks_append (',' :: (r ++ ']' :: rest))
      rw [skipBlanks_cons ',' rfl] at hend
      simp only [List.append_assoc, List.cons_append]
      rw [← hbefore.readValue_append] at hread
      rw [readItems_comma hread hend, hreadMore]
      refine ⟨_, rfl, ?_⟩
      simp only [Tree.itemsToJson?, htree, htrees]

/-- The members of the grammar are read up to the brace behind them. -/
theorem readMembers_of_membersText : (fuel : Nat) → {room : Nat} → {s : List Char} →
    {members : List (String × Json)} → MembersText room s members → members ≠ [] →
    s.length + 1 < fuel → (rest : List Char) →
    ∃ trees, readMembers fuel (s ++ '\x7d' :: rest) = some (trees, rest) ∧
      Tree.membersToJson? room trees = some members
  | fuel + 1, room, s, members, h, hne, hfuel, rest => by
    cases h with
    | none => exact absurd rfl hne
    | one h =>
      obtain ⟨hbefore, hkey, hafter, ⟨hb, hvalue, hb'⟩⟩ := h
      simp only [List.length_append, List.length_cons] at hfuel
      obtain ⟨tree, hread, htree⟩ := readValue_of_valueText fuel hvalue (by omega) _
        (hb'.endsNumber_cons (.inr (.inr rfl)) rest)
      have hend := hb'.skipBlanks_append ('\x7d' :: rest)
      rw [skipBlanks_cons '\x7d' rfl] at hend
      simp only [List.append_assoc, List.cons_append]
      rw [← hb.readValue_append] at hread
      refine ⟨_, readMembers_close (hkey.readsKey hbefore hafter) hread hend, ?_⟩
      simp only [Tree.membersToJson?, htree]
    | @more _ _ r _ _ h hmembers hmore =>
      obtain ⟨hbefore, hkey, hafter, ⟨hb, hvalue, hb'⟩⟩ := h
      simp only [List.length_append, List.length_cons] at hfuel
      obtain ⟨tree, hread, htree⟩ := readValue_of_valueText fuel hvalue (by omega) _
        (hb'.endsNumber_cons (.inl rfl) (r ++ '\x7d' :: rest))
      obtain ⟨trees, hreadMore, htrees⟩ :=
        readMembers_of_membersText fuel hmembers hmore (by omega) rest
      have hend := hb'.skipBlanks_append (',' :: (r ++ '\x7d' :: rest))
      rw [skipBlanks_cons ',' rfl] at hend
      simp only [List.append_assoc, List.cons_append]
      rw [← hb.readValue_append] at hread
      rw [readMembers_comma (hkey.readsKey hbefore hafter) hread hend, hreadMore]
      refine ⟨_, rfl, ?_⟩
      simp only [Tree.membersToJson?, htree, htrees]

end

/-! ## Whole texts -/

/-- A text has a structure if a value is read from it and nothing but blanks is left. -/
theorem treeParse?_eq_some_iff {text : String} {tree : Tree} :
    Tree.parse? text = some tree ↔ ∃ rest,
      readValue (text.toList.length + 1) text.toList = some (tree, rest) ∧
        skipBlanks rest = [] := by
  unfold Tree.parse?
  cases hread : readValue (text.toList.length + 1) text.toList with
  | none => simp [hread]
  | some r =>
    obtain ⟨tree', rest⟩ := r
    simp [hread, and_comm]

/-- **A text is accepted** exactly if it has a value, and then it is read as that value. -/
theorem parse?_eq_some_iff {text : String} {v : Json} : parse? text = some v ↔ Denotes text v := by
  rw [parse?, Option.bind_eq_some_iff]
  simp only [treeParse?_eq_some_iff]
  constructor
  · rintro ⟨tree, ⟨rest, hread, hrest⟩, hv⟩
    obtain ⟨b, t, hs, hb, hvalue⟩ := valueText_of_readValue _ hread hv
    obtain ⟨b', hb', hblanks⟩ := skipBlanks_eq hrest
    rw [List.append_nil] at hb'
    rw [Denotes, hs, hb']
    exact .mk hb hvalue hblanks
  · intro h
    unfold Denotes at h
    generalize hs : text.toList = s at h ⊢
    cases h with
    | @mk _ before t after _ hbefore hvalue hafter =>
      have hends := hafter.endsNumber endsNumber_nil
      rw [List.append_nil] at hends
      -- There are more steps than characters, also without the blanks.
      obtain ⟨tree, hread, hv⟩ := readValue_of_valueText
        ((before ++ (t ++ after)).length + 1) hvalue (by simp; omega) after hends
      rw [← hbefore.readValue_append] at hread
      exact ⟨tree, ⟨after, hread, hafter.skipBlanks⟩, hv⟩

/-- A text that is not read denotes nothing. -/
theorem parse?_eq_none_iff {text : String} : parse? text = none ↔ ∀ v, ¬ Denotes text v := by
  rw [Option.eq_none_iff_forall_ne_some]
  exact forall_congr' fun v => not_congr parse?_eq_some_iff

end VectorTable.Json
