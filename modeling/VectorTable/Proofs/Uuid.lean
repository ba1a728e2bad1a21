import Mathlib.Algebra.GroupWithZero.Nat
import Mathlib.Data.List.Basic
import VectorTable.Uuid

/-!
# VectorTable — UUIDs as written and read

* `Uuid.parse?_toString` — a UUID is read back from its hyphenated form;
* `Uuid.Spells`, `Uuid.parse?_eq_some_iff` — the texts that are read as a UUID, and no others.
-/

namespace VectorTable

theorem toLower_hexChar : ∀ d : Fin 16, (hexChar d).toLower = hexChar d := by decide

namespace Uuid

/-- Hyphens are taken out where they were put in. -/
theorem unhyphenate_hyphenate (sizes : List Nat) (hsizes : sizes ≠ []) (s : List Char)
    (h : s.length = sizes.sum) : unhyphenate sizes (hyphenate sizes s) = some s := by
  induction sizes generalizing s with
  | nil => exact absurd rfl hsizes
  | cons n sizes ih =>
    rw [List.sum_cons] at h
    cases sizes with
    | nil =>
      rw [hyphenate, unhyphenate, if_pos (by simpa using h)]
    | cons m sizes =>
      -- The first group has its full length, so the hyphen stands right after it.
      have hfirst : (s.take n).length = n := by
        rw [List.length_take]
        omega
      have hrest := ih (List.cons_ne_nil _ _) (s.drop n) (by rw [List.length_drop]; omega)
      have hdrop (r : List Char) : (s.take n ++ r).drop n = r := List.drop_left' hfirst
      have htake (r : List Char) : (s.take n ++ r).take n = s.take n := List.take_left' hfirst
      rw [hyphenate, unhyphenate, hdrop, htake]
      · simp [hrest]
      · simp
      · simp

/-- One hyphen stands between any two groups. -/
theorem length_hyphenate (n : Nat) (sizes : List Nat) (s : List Char)
    (h : s.length = (n :: sizes).sum) :
    (hyphenate (n :: sizes) s).length = s.length + sizes.length := by
  induction sizes generalizing n s with
  | nil => rfl
  | cons m sizes ih =>
    rw [List.sum_cons] at h
    have hrest := ih m (s.drop n) (by rw [List.length_drop]; omega)
    rw [List.length_drop] at hrest
    rw [hyphenate, List.length_append, List.length_cons, hrest, List.length_take, List.length_cons]
    · omega
    · simp

/-- Groups with hyphens between them are those that hyphens were put between. -/
theorem unhyphenate_eq_some_iff (sizes : List Nat) (hsizes : sizes ≠ []) {s r : List Char} :
    unhyphenate sizes s = some r ↔ r.length = sizes.sum ∧ s = hyphenate sizes r := by
  refine ⟨fun h => ?_, fun ⟨hlength, hs⟩ => hs ▸ unhyphenate_hyphenate sizes hsizes r hlength⟩
  induction sizes generalizing s r with
  | nil => exact absurd rfl hsizes
  | cons n sizes ih =>
    cases sizes with
    | nil =>
      obtain ⟨hlength, hs⟩ := Option.ite_none_right_eq_some.mp h
      obtain rfl := Option.some.inj hs
      exact ⟨hlength, rfl⟩
    | cons m sizes =>
      unfold unhyphenate at h
      split at h
      · rename_i rest hdrop
        obtain ⟨later, hlater, rfl⟩ := Option.map_eq_some_iff.mp h
        obtain ⟨hlength, rfl⟩ := ih (List.cons_ne_nil _ _) hlater
        -- There is a hyphen behind the first group, so that none of its characters is missing.
        have hlt : n < s.length := by
          have := congrArg List.length hdrop
          rw [List.length_drop, List.length_cons] at this
          omega
        have hfirst : (s.take n).length = n := List.length_take_of_le (Nat.le_of_lt hlt)
        constructor
        · rw [List.length_append, hfirst, hlength]
          rfl
        · rw [hyphenate, List.take_left' hfirst, List.drop_left' hfirst, ← hdrop,
            List.take_append_drop]
          simp
      · cases h

/-! ## Digits -/

/-- A character is a digit in either case. -/
theorem hexValue?_eq_some_iff {c : Char} {d : Fin 16} :
    hexValue? c = some d ↔ c.toLower = hexChar d := by
  have hascii : ∀ n < 128, ∀ d : Fin 16,
      hexValue? (Char.ofNat n) = some d ↔ (Char.ofNat n).toLower = hexChar d := by decide +kernel
  have hdigit : ∀ d : Fin 16, (hexChar d).toNat < 128 := by decide
  by_cases hc : c.toNat < 128
  · rw [← Char.ofNat_toNat c]
    exact hascii c.toNat hc d
  · -- Beyond these characters there are no digits, and no letters that have a lower case.
    have hupper (limit : Char) (hlimit : limit.toNat < 128) : ¬ c ≤ limit := by
      intro hle
      have : c.toNat ≤ limit.toNat := hle
      omega
    have hlower : c.toLower = c := by
      unfold Char.toLower
      exact dif_neg fun h => hupper 'Z' (by decide) h.2
    have hnone : hexValue? c = none := by
      unfold hexValue?
      rw [if_neg fun h => hupper '9' (by decide) h.2, if_neg fun h => hupper 'f' (by decide) h.2,
        if_neg fun h => hupper 'F' (by decide) h.2]
    rw [hnone, hlower]
    refine iff_of_false nofun ?_
    rintro rfl
    exact hc (hdigit d)

/-- Characters are read as digits one by one, in either case. -/
theorem mapM_hexValue?_eq_some_iff {s : List Char} {digits : List (Fin 16)} :
    s.mapM hexValue? = some digits ↔ s.map Char.toLower = digits.map hexChar := by
  induction s generalizing digits with
  | nil => cases digits <;> simp
  | cons c s ih =>
    simp only [List.mapM_cons, Option.bind_eq_bind, Option.bind_eq_some_iff, ih,
      hexValue?_eq_some_iff]
    -- The lengths agree because both sides are read one character at a time.
    constructor
    · rintro ⟨d, hd, rest, hrest, hdigits⟩
      cases hdigits
      rw [List.map_cons, List.map_cons, hd, hrest]
    · intro h
      cases digits with
      | nil => cases h
      | cons d rest =>
        obtain ⟨hd, hrest⟩ := List.cons.inj h
        exact ⟨d, hd, rest, hrest, rfl⟩

/-- A text of 32 digits is read as these digits. -/
theorem ofHex?_eq_some_iff {s : List Char} {u : Uuid} :
    ofHex? s = some u ↔ s.map Char.toLower = u.digits.map hexChar := by
  rw [ofHex?, Option.bind_eq_some_iff, ← mapM_hexValue?_eq_some_iff]
  constructor
  · rintro ⟨digits, hdigits, h⟩
    obtain ⟨hlength, hu⟩ := Option.dite_none_right_eq_some.mp h
    cases hu
    exact hdigits
  · intro h
    exact ⟨u.digits, h, dif_pos u.length_digits⟩

theorem length_of_map_toLower {s : List Char} {u : Uuid}
    (h : s.map Char.toLower = u.digits.map hexChar) : s.length = 32 := by
  rw [← u.length_digits, ← List.length_map (f := Char.toLower), h, List.length_map]

/-- A text with hyphens is read if they stand between the groups of its digits. -/
theorem ofHyphenated?_eq_some_iff {s : List Char} {u : Uuid} :
    ofHyphenated? s = some u ↔
      ∃ r : List Char, r.map Char.toLower = u.digits.map hexChar ∧ s = hyphenate groups r := by
  simp only [ofHyphenated?, Option.bind_eq_some_iff, ofHex?_eq_some_iff,
    unhyphenate_eq_some_iff groups (by decide)]
  refine exists_congr fun r => ?_
  constructor
  · rintro ⟨⟨-, hs⟩, hr⟩
    exact ⟨hr, hs⟩
  · rintro ⟨hr, hs⟩
    exact ⟨⟨length_of_map_toLower hr, hs⟩, hr⟩

/-! ## Texts -/

/-- The texts of a UUID: its digits in either case, without hyphens, with them, with them between
braces, or with them after `urn:uuid:`, which may also be in either case. -/
inductive Spells (u : Uuid) : List Char → Prop where
  | plain {s : List Char} (h : s.map Char.toLower = u.digits.map hexChar) : Spells u s
  | hyphenated {s : List Char} (h : s.map Char.toLower = u.digits.map hexChar) :
    Spells u (hyphenate groups s)
  | braced {s : List Char} (h : s.map Char.toLower = u.digits.map hexChar) :
    Spells u (['\x7b'] ++ hyphenate groups s ++ ['\x7d'])
  | urn {scheme s : List Char} (hscheme : scheme.map Char.toLower = "urn:uuid:".toList)
    (h : s.map Char.toLower = u.digits.map hexChar) : Spells u (scheme ++ hyphenate groups s)

theorem length_hyphenate_groups {s : List Char} {u : Uuid}
    (h : s.map Char.toLower = u.digits.map hexChar) : (hyphenate groups s).length = 36 := by
  rw [groups, length_hyphenate _ _ _ (length_of_map_toLower h), length_of_map_toLower h]
  rfl

/-- Every spelling of a UUID is read as it. -/
theorem Spells.ofChars? {u : Uuid} {s : List Char} (h : u.Spells s) : ofChars? s = some u := by
  cases h with
  | plain h =>
    -- The spellings have different lengths, by which the reader tells them apart.
    rw [Uuid.ofChars?, if_pos (length_of_map_toLower h)]
    exact ofHex?_eq_some_iff.mpr h
  | hyphenated h =>
    have hlength := length_hyphenate_groups h
    rw [Uuid.ofChars?, if_neg (by omega), if_pos hlength]
    exact ofHyphenated?_eq_some_iff.mpr ⟨_, h, rfl⟩
  | @braced s h =>
    have hlength : (['\x7b'] ++ hyphenate groups s ++ ['\x7d']).length = 38 := by
      rw [List.length_append, List.length_append, length_hyphenate_groups h]
      rfl
    rw [Uuid.ofChars?, if_neg (by omega), if_neg (by omega), if_pos hlength,
      if_pos ⟨rfl, List.getLast?_concat⟩]
    refine ofHyphenated?_eq_some_iff.mpr ⟨s, h, ?_⟩
    exact List.dropLast_concat
  | @urn scheme s hscheme h =>
    have hlead : scheme.length = 9 := by
      rw [← List.length_map (f := Char.toLower), hscheme]
      rfl
    have hlength : (scheme ++ hyphenate groups s).length = 45 := by
      rw [List.length_append, length_hyphenate_groups h, hlead]
    rw [Uuid.ofChars?, if_neg (by omega), if_neg (by omega), if_neg (by omega), if_pos hlength,
      List.take_left' hlead, List.drop_left' hlead, if_pos hscheme]
    exact ofHyphenated?_eq_some_iff.mpr ⟨s, h, rfl⟩

/-- Whatever is read as a UUID spells it. -/
theorem spells_of_ofChars? {u : Uuid} {s : List Char} (h : ofChars? s = some u) : u.Spells s := by
  unfold ofChars? at h
  split_ifs at h with hplain hhyphens hbraces hends hurn hscheme
  · exact .plain (ofHex?_eq_some_iff.mp h)
  · obtain ⟨r, hr, rfl⟩ := ofHyphenated?_eq_some_iff.mp h
    exact .hyphenated hr
  · -- One character cannot be both braces, so that there is something between them.
    obtain ⟨r, hr, hmiddle⟩ := ofHyphenated?_eq_some_iff.mp h
    obtain ⟨rest, rfl⟩ := List.head?_eq_some_iff.mp hends.1
    obtain ⟨front, hfront⟩ := List.getLast?_eq_some_iff.mp hends.2
    cases front with
    | nil =>
      obtain ⟨hclash, -⟩ := List.cons.inj hfront
      exact absurd hclash (by decide)
    | cons brace front =>
      rw [List.cons_append, List.cons.injEq] at hfront
      obtain ⟨rfl, rfl⟩ := hfront
      rw [List.drop_one, List.tail_cons, List.dropLast_concat] at hmiddle
      rw [hmiddle]
      exact .braced hr
  · obtain ⟨r, hr, hrest⟩ := ofHyphenated?_eq_some_iff.mp h
    rw [← List.take_append_drop 9 s, hrest]
    exact .urn hscheme hr

/-- A text is read as a UUID exactly if it is one of its spellings. -/
theorem parse?_eq_some_iff {s : String} {u : Uuid} : parse? s = some u ↔ u.Spells s.toList :=
  ⟨spells_of_ofChars?, Spells.ofChars?⟩

/-- **UUIDs are read back** from their hyphenated form. -/
theorem parse?_toString (u : Uuid) : parse? (toString u) = some u := by
  have hlower : (u.digits.map hexChar).map Char.toLower = u.digits.map hexChar := by
    rw [List.map_map]
    exact List.map_congr_left fun d _ => toLower_hexChar d
  have htext : (toString u).toList = hyphenate groups (u.digits.map hexChar) :=
    String.toList_ofList
  rw [parse?_eq_some_iff, htext]
  exact .hyphenated hlower

end Uuid

end VectorTable
