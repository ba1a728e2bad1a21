import VectorTable.Proofs.Json.RoundTrip

/-!
# VectorTable — the members of an object as they are written

Numbers with the same value may be written with different digits. Where the digits matter, the
value is not enough, and the text of a member is taken out of the object as it stands there.

* `Json.memberTexts?` — the texts of the members of an object;
* `Json.memberTexts?_render` — in the text of an object every member stands as it is rendered.
-/

namespace VectorTable.Json

/-- The members of an object that is not empty, up to the brace, with the texts of their
values. -/
def readMemberTexts : Nat → List Char → Option (List (Option String × String))
  | 0, _ => none
  | fuel + 1, s =>
    match skipBlanks s with
    | '"' :: r =>
      match readText r with
      | none => none
      | some (key, r) =>
        match skipBlanks r with
        | ':' :: r =>
          let value := skipBlanks r
          match readValue fuel value with
          | none => none
          | some (_, r) =>
            -- The text of the value is what the reader has left behind.
            let text := String.ofList (value.take (value.length - r.length))
            match skipBlanks r with
            | ',' :: r => (readMemberTexts fuel r).map ((key, text) :: ·)
            | '\x7d' :: _ => some [(key, text)]
            | _ => none
        | _ => none
    | _ => none

/-- The texts of the values of an object under their keys, as they stand in the text of the
object. Of members with the same key the last one counts. -/
def memberTexts? (s : String) : Option (Dictionary String) :=
  match skipBlanks s.toList with
  | '\x7b' :: r =>
    match skipBlanks r with
    | '\x7d' :: _ => some ∅
    | r => (readMemberTexts (r.length + 1) r).map fun members =>
        .ofList (members.filterMap fun (key, text) => key.map (·, text))
  | _ => none

section

variable {fuel : Nat} {s r : List Char} {t : Tree}

/-- A member before a comma: its value is skipped, and its text kept. -/
theorem readMemberTexts_comma (k : String) (hstart : skipBlanks (s ++ ',' :: r) = s ++ ',' :: r)
    (h : readValue fuel (s ++ ',' :: r) = some (t, ',' :: r)) :
    readMemberTexts (fuel + 1) (quote k ++ ':' :: (s ++ ',' :: r))
      = (readMemberTexts fuel r).map ((some k, String.ofList s) :: ·) := by
  have hbefore : (s ++ ',' :: r).length - (',' :: r).length = s.length := by
    rw [List.length_append]
    omega
  obtain ⟨q, after, hquote, htext, hcolon⟩ := readsKey_quote k (s ++ ',' :: r)
  rw [readMemberTexts, hquote]
  simp only [htext, hcolon, hstart, h, skipBlanks_cons ',' rfl, hbefore, List.take_left]

/-- The last member. -/
theorem readMemberTexts_close (k : String)
    (hstart : skipBlanks (s ++ '\x7d' :: r) = s ++ '\x7d' :: r)
    (h : readValue fuel (s ++ '\x7d' :: r) = some (t, '\x7d' :: r)) :
    readMemberTexts (fuel + 1) (quote k ++ ':' :: (s ++ '\x7d' :: r))
      = some [(some k, String.ofList s)] := by
  have hbefore : (s ++ '\x7d' :: r).length - ('\x7d' :: r).length = s.length := by
    rw [List.length_append]
    omega
  obtain ⟨q, after, hquote, htext, hcolon⟩ := readsKey_quote k (s ++ '\x7d' :: r)
  rw [readMemberTexts, hquote]
  simp only [htext, hcolon, hstart, h, skipBlanks_cons '\x7d' rfl, hbefore, List.take_left]

end

/-- The members of a rendered object, each of which stands there as it is rendered. -/
theorem readMemberTexts_chars (k : String) (v : Json) (ms : List (String × Json)) (fuel : Nat)
    (hfuel : (quote k ++ ':' :: (v.chars ++ membersChars ms)).length < fuel) :
    readMemberTexts fuel (quote k ++ ':' :: (v.chars ++ membersChars ms))
      = some (((k, v) :: ms).map fun m => (some m.1, m.2.render)) := by
  induction ms generalizing k v fuel with
  | nil =>
    obtain ⟨fuel, rfl⟩ := Nat.exists_eq_add_one_of_ne_zero (Nat.ne_of_gt (Nat.zero_lt_of_lt hfuel))
    rw [membersChars, List.length_append, List.length_cons, List.length_append,
      List.length_singleton] at hfuel
    have hvalue := readValue_chars v fuel ['\x7d'] (by omega) (endsNumber_membersChars [] [])
    exact readMemberTexts_close k ((startsValue_chars v).skipBlanks _) hvalue
  | cons m ms ih =>
    obtain ⟨l, w⟩ := m
    obtain ⟨fuel, rfl⟩ := Nat.exists_eq_add_one_of_ne_zero (Nat.ne_of_gt (Nat.zero_lt_of_lt hfuel))
    rw [membersChars, List.length_append, List.length_cons, List.length_append, List.length_cons]
      at hfuel
    -- The value ends at the comma, and behind it stand the other members.
    have hend : EndsNumber (',' :: (quote l ++ ':' :: (w.chars ++ membersChars ms))) := by
      have := endsNumber_membersChars ((l, w) :: ms) []
      rwa [List.append_nil] at this
    have hvalue := readValue_chars v fuel _ (by omega) hend
    rw [membersChars, readMemberTexts_comma k ((startsValue_chars v).skipBlanks _) hvalue,
      ih l w fuel (by omega)]
    rfl

/-- **Members stand in the text of their object as they are rendered**, each under its key. -/
theorem memberTexts?_render {members : Entries Json} (hasc : members.Ascending) (key : String) :
    (memberTexts? (Json.object members).render).bind (·.get? key)
      = (members.get? key).map render := by
  cases members with
  | nil => rfl
  | cons m ms =>
    obtain ⟨k, v⟩ := m
    have hopen : (Json.object ((k, v) :: ms)).render.toList
        = '\x7b' :: (quote k ++ ':' :: (v.chars ++ membersChars ms)) := by
      rw [render, String.toList_ofList, chars]
    have hmembers := readMemberTexts_chars k v ms _ (Nat.lt_succ_self _)
    have htexts : memberTexts? (Json.object ((k, v) :: ms)).render
        = some (.ofList (((k, v) :: ms).map fun m => (m.1, m.2.render))) := by
      -- A member starts with a quote, so that the object is not empty.
      rw [quote_append] at hopen hmembers
      simp only [memberTexts?, hopen, skipBlanks_cons '\x7b' rfl, skipBlanks_cons '"' rfl]
      refine (congrArg (Option.map _) hmembers).trans ?_
      rw [Option.map_some, List.filterMap_map]
      simp
    rw [htexts, Option.bind_some, Dictionary.get?_ofList (hasc.map render), Entries.get?_map]

/-- The digits stay as they are, and the last of two members counts. -/
example : (memberTexts? "\x7b\"n\": 1, \"n\" : 1.50 \x7d").bind (·.get? "n") = some "1.50" := by
  decide +kernel

end VectorTable.Json
