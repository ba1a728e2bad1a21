import Mathlib.Data.List.Nodup
import VectorTable.Identifier

/-!
# VectorTable — names that are accepted

* `Identifier.check_eq_ok_iff` — the check of one name, whatever the name is for;
* `Identifier.checkDistinct_eq_ok_iff` — the check for different names finds every repetition.
-/

namespace VectorTable.Identifier

/-! ## One name -/

/-- A name that the database keeps whole. -/
structure Sound (name : String) : Prop where
  nonempty : name ≠ ""
  noNul : '\x00' ∉ name.toList
  short : name.utf8ByteSize ≤ maxNameBytes

/-- The check of an identifier passes if and only if it is sound. -/
theorem check_eq_ok_iff {what name : String} : check what name = .ok () ↔ Sound name := by
  unfold check
  constructor
  · intro h
    split at h
    · cases h
    rename_i hempty
    split at h
    · cases h
    rename_i hnul
    split at h
    · cases h
    rename_i hlong
    refine ⟨?_, ?_, ?_⟩
    · simpa using hempty
    · simpa using hnul
    · exact Nat.le_of_not_lt hlong
  · intro h
    rw [if_neg (by simpa using h.nonempty), if_neg (by simpa using h.noNul),
      if_neg (Nat.not_lt_of_le h.short)]

/-! ## Names that differ -/

/-- A new name is set aside before the rest is looked at. -/
theorem fresh_cons_iff {name : String} {seen rest : List String} (h : name ∉ seen) :
    (rest.Nodup ∧ ∀ n ∈ rest, n ∉ name :: seen) ↔
      (name :: rest).Nodup ∧ ∀ n ∈ name :: rest, n ∉ seen := by
  rw [List.nodup_cons, List.forall_mem_cons]
  constructor
  · rintro ⟨hnodup, hrest⟩
    refine ⟨⟨fun hmem => hrest name hmem List.mem_cons_self, hnodup⟩, h, fun n hn hseen => ?_⟩
    exact hrest n hn (List.mem_cons_of_mem _ hseen)
  · rintro ⟨⟨hname, hnodup⟩, -, hrest⟩
    refine ⟨hnodup, fun n hn hseen => ?_⟩
    rcases List.mem_cons.mp hseen with rfl | hseen
    · exact hname hn
    · exact hrest n hn hseen

/-- Names are compared with all names before them. -/
theorem firstRepeated?_eq_none_iff {seen names : List String} :
    firstRepeated? seen names = none ↔ names.Nodup ∧ ∀ name ∈ names, name ∉ seen := by
  -- The names seen so far grow by one with each step.
  induction names generalizing seen with
  | nil => exact iff_of_true rfl ⟨List.nodup_nil, fun _ h => absurd h List.not_mem_nil⟩
  | cons name rest ih =>
    rw [firstRepeated?]
    split
    · rename_i hmem
      exact iff_of_false (by simp) fun h => h.2 name List.mem_cons_self hmem
    · rename_i hmem
      rw [ih, fresh_cons_iff hmem]

/-- The walk over the reserved names and then over the others passes if no name repeats, nor any
that was seen before. -/
theorem checkReserved_eq_ok_iff {metadata seen : List String} {reserved : List (String × String)} :
    checkDistinct.checkReserved metadata seen reserved = .ok () ↔
      (reserved.map (·.2) ++ metadata).Nodup ∧
        ∀ name ∈ reserved.map (·.2) ++ metadata, name ∉ seen := by
  induction reserved generalizing seen with
  | nil =>
    -- Behind the reserved names the metadata columns go on in the same way.
    rw [checkDistinct.checkReserved, List.map_nil, List.nil_append, ← firstRepeated?_eq_none_iff]
    split
    · rename_i h
      exact iff_of_false (fun hok => by cases hok) (by simp [h])
    · rename_i h
      exact iff_of_true rfl h
  | cons head rest ih =>
    obtain ⟨role, name⟩ := head
    rw [checkDistinct.checkReserved, List.map_cons, List.cons_append]
    split
    · rename_i hmem
      exact iff_of_false (fun hok => by cases hok) fun h => h.2 name List.mem_cons_self hmem
    · rename_i hmem
      rw [ih, fresh_cons_iff hmem]

/-- The names are accepted exactly if no two of them are equal. -/
theorem checkDistinct_eq_ok_iff {reserved : List (String × String)} {metadata : List String} :
    checkDistinct reserved metadata = .ok () ↔ (reserved.map (·.2) ++ metadata).Nodup := by
  rw [checkDistinct, checkReserved_eq_ok_iff]
  exact ⟨And.left, fun h => ⟨h, fun _ _ => List.not_mem_nil⟩⟩

end VectorTable.Identifier
