import Mathlib.Data.List.Perm.Basic
import VectorTable.Relevance

/-!
# VectorTable — what a greedy choice takes

Whatever the scores are, `nan` among them, each step of a greedy choice takes one of the elements
that remain, so that nothing is taken twice and the choice ends early only where nothing remains.

* `Relevance.mem_of_best?`, `Relevance.best?_eq_none` — the best of some elements is one of them;
* `Relevance.Choice` — positions in a list, each at most once, as many as were asked for;
* `Relevance.choice_select` — the candidates of a re-ranking are such a choice.
-/

namespace VectorTable.Relevance

/-! ## One step -/

/-- One comparison of the scan for the best element: the next one wins if its score is higher. -/
def challenge (score : Nat → Double) (best : Nat × Double) (i : Nat) : Nat × Double :=
  if best.2.lt (score i) then (i, score i) else best

/-- A scan starts with the first element, and with a score that every other exceeds. -/
theorem best?_cons (score : Nat → Double) (c : Nat) (rest : List Nat) :
    best? score (c :: rest) =
      some ((c :: rest).foldl (challenge score) (c, Binary.infinite true)).1 := rfl

/-- The winner of a scan is the element it started with or one that it has come by. -/
theorem foldl_challenge_mem (score : Nat → Double) (elements : List Nat) (best : Nat × Double) :
    (elements.foldl (challenge score) best).1 ∈ best.1 :: elements := by
  induction elements generalizing best with
  | nil => exact List.mem_singleton.mpr rfl
  | cons i rest ih =>
    have hrest := ih (challenge score best i)
    rw [List.foldl_cons]
    -- Whoever wins against the first element, the winner of the rest stands in the whole list.
    rcases List.mem_cons.mp hrest with hfirst | hlater
    · rw [hfirst]
      unfold challenge
      split
      · exact List.mem_cons_of_mem _ List.mem_cons_self
      · exact List.mem_cons_self
    · exact List.mem_cons_of_mem _ (List.mem_cons_of_mem _ hlater)

/-- The best of some elements is one of them. -/
theorem mem_of_best? {score : Nat → Double} {elements : List Nat} {c : Nat}
    (h : best? score elements = some c) : c ∈ elements := by
  cases elements with
  | nil => cases h
  | cons first rest =>
    rw [best?_cons] at h
    obtain rfl := Option.some.inj h
    -- The scan starts with the first element, so that it comes by it twice.
    have hmem := foldl_challenge_mem score (first :: rest) (first, Binary.infinite true)
    rcases List.mem_cons.mp hmem with hfirst | hlater
    · exact hfirst ▸ List.mem_cons_self
    · exact hlater

/-- There is a best element unless there are none. -/
theorem best?_eq_none {score : Nat → Double} {elements : List Nat}
    (h : best? score elements = none) : elements = [] := by
  cases elements with
  | nil => rfl
  | cons first rest => cases h

/-! ## A whole choice -/

/-- A greedy choice takes some of the remaining elements, behind those it has taken before: as many
as it has steps, or all. What it takes and what it leaves are the elements that remained. -/
theorem exists_greedy (score : List Nat → Nat → Double) (steps : Nat)
    (chosen remaining : List Nat) :
    ∃ taken left, greedy score steps chosen remaining = chosen ++ taken ∧
      (taken ++ left).Perm remaining ∧ taken.length = min steps remaining.length := by
  induction steps generalizing chosen remaining with
  | zero =>
    refine ⟨[], remaining, ?_, List.Perm.refl _, ?_⟩
    · rw [greedy, List.append_nil]
    · simp
  | succ steps ih =>
    cases hbest : best? (score chosen) remaining with
    | none =>
      -- Nothing remains.
      obtain rfl := best?_eq_none hbest
      refine ⟨[], [], ?_, List.Perm.refl _, ?_⟩
      · rw [greedy, hbest, List.append_nil]
      · simp
    | some c =>
      -- The step takes `c`, and the other steps choose among the rest.
      have hc : c ∈ remaining := mem_of_best? hbest
      have hrest : (c :: remaining.erase c).Perm remaining := (List.perm_cons_erase hc).symm
      obtain ⟨taken, left, hgreedy, hperm, hlength⟩ := ih (chosen ++ [c]) (remaining.erase c)
      refine ⟨c :: taken, left, ?_, (hperm.cons c).trans hrest, ?_⟩
      · rw [greedy, hbest]
        show greedy score steps (chosen ++ [c]) (remaining.erase c) = chosen ++ c :: taken
        rw [hgreedy, List.append_assoc, List.singleton_append]
      · have hpos : 0 < remaining.length := List.length_pos_of_mem hc
        rw [List.length_cons, hlength, List.length_erase_of_mem hc]
        omega

/-- Positions in a list of `n` elements: `k` of them or, where there are fewer, all, and each at
most once. -/
structure Choice (k n : Nat) (positions : List Nat) : Prop where
  length : positions.length = min k n
  part : ∃ left, (positions ++ left).Perm (List.range n)

namespace Choice

variable {k n : Nat} {positions : List Nat}

/-- No position is chosen twice. -/
theorem nodup (h : Choice k n positions) : positions.Nodup := by
  obtain ⟨left, hperm⟩ := h.part
  exact (List.nodup_append.mp (hperm.nodup_iff.mpr List.nodup_range)).1

/-- Only positions in the list are chosen. -/
theorem lt (h : Choice k n positions) : ∀ i ∈ positions, i < n := by
  obtain ⟨left, hperm⟩ := h.part
  intro i hi
  exact List.mem_range.mp (hperm.subset (List.mem_append_left left hi))

end Choice

/-- **A re-ranking is a choice.** -/
theorem choice_select (query : List Single) (candidates : List (List Single)) (k : Nat)
    (lambda : Double) : Choice k candidates.length (select query candidates k lambda) := by
  unfold select
  obtain ⟨taken, left, hgreedy, hperm, hlength⟩ := exists_greedy _ (min k candidates.length) []
    (List.range candidates.length)
  rw [hgreedy, List.nil_append]
  refine ⟨?_, left, hperm⟩
  rw [hlength, List.length_range]
  omega

end VectorTable.Relevance
