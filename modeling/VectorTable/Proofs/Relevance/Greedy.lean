import Mathlib.Order.Bounds.Basic
import VectorTable.Proofs.Relevance
import VectorTable.Proofs.Relevance.Score

/-!
# VectorTable — a re-ranking is the greedy choice

A re-ranking keeps the candidates that remain in their order and scans them for a score that is
higher than all before it. Here the scan is described by what it finds, without the scan: the first
of the candidates with the highest score, or the first of all where no score counts. Scores count if
they are above negative infinity, so that `nan` never does. What scores are is described without the
re-ranking, too, so that the choice is the same whichever zero a maximum is.

* `Relevance.Top`, `Relevance.Best` — the candidates with the highest score, and the one of them
  that a step takes;
* `Relevance.best_of_best?` — one step takes it;
* `Relevance.Scores` — the scores of all candidates, once some of them are chosen;
* `Relevance.select_greedy` — so does each step of a re-ranking, and asking for more candidates only
  adds some at the end.
-/

namespace VectorTable

namespace Relevance

/-! ## What a step takes -/

/-- The score of the element counts: it is above negative infinity. -/
def Counts (score : Nat → Double) (i : Nat) : Prop := (Binary.infinite true).lt (score i) = true

/-- The element is one of those with the highest score that counts. -/
structure Top (score : Nat → Double) (elements : List Nat) (i : Nat) : Prop where
  mem : i ∈ elements
  counts : Counts score i
  highest : ∀ j ∈ elements, (score i).lt (score j) = false

/-- The element that a step takes: the least of those with the highest score or, where no score
counts, the least of all. -/
structure Best (score : Nat → Double) (elements : List Nat) (i : Nat) : Prop where
  top : (∃ j ∈ elements, Counts score j) → IsLeast {j | Top score elements j} i
  least : (¬ ∃ j ∈ elements, Counts score j) → IsLeast {j | j ∈ elements} i

section Congr

variable {score score' : Nat → Double} {elements : List Nat} {i : Nat}

/-- Whether a score counts does not depend on the sign of a zero. -/
theorem counts_congr (h : (score i).Same (score' i)) : Counts score i ↔ Counts score' i := by
  rw [Counts, Counts, Binary.Same.lt (.refl _) h]

/-- Nor does it depend on the sign of a zero which elements have the highest score. -/
theorem Top.congr (h : Top score elements i)
    (hsame : ∀ j ∈ elements, (score j).Same (score' j)) : Top score' elements i := by
  refine ⟨h.mem, (counts_congr (hsame i h.mem)).mp h.counts, ?_⟩
  intro j hj
  rw [← (hsame i h.mem).lt (hsame j hj)]
  exact h.highest j hj

/-- Which element a step takes does not depend on the signs of zeros. -/
theorem Best.congr (h : Best score elements i)
    (hsame : ∀ j ∈ elements, (score j).Same (score' j)) : Best score' elements i := by
  have hback : ∀ j ∈ elements, (score' j).Same (score j) := fun j hj => (hsame j hj).symm
  have htop : {j | Top score elements j} = {j | Top score' elements j} :=
    Set.ext fun _ => ⟨(·.congr hsame), (·.congr hback)⟩
  have hsome : (∃ j ∈ elements, Counts score j) ↔ ∃ j ∈ elements, Counts score' j :=
    exists_congr fun j => and_congr_right fun hj => counts_congr (hsame j hj)
  refine ⟨fun hcounts => ?_, fun hnone => h.least (mt hsome.mp hnone)⟩
  rw [← htop]
  exact h.top (hsome.mpr hcounts)

end Congr

/-- Where a scan stands: it leads with what it has started with as long as no score has counted,
and later with the first of the highest scores. -/
inductive Leads (score : Nat → Double) (start : Nat) (seen : List Nat) : Nat × Double → Prop where
  | waiting (hnone : ∀ j ∈ seen, ¬ Counts score j) :
    Leads score start seen (start, Binary.infinite true)
  | leading {i : Nat} (htop : Top score seen i) (hfirst : ∀ j, Top score seen j → i ≤ j) :
    Leads score start seen (i, score i)

section Scan

variable {score : Nat → Double} {start : Nat} {seen : List Nat} {best : Nat × Double}

/-- The next element of a sorted list leads if its score is higher. -/
theorem Leads.challenge (h : Leads score start seen best) {i : Nat} (hlater : ∀ j ∈ seen, j < i) :
    Leads score start (seen ++ [i]) (challenge score best i) := by
  have hmem (j : Nat) : j ∈ seen ++ [i] ↔ j ∈ seen ∨ j = i := by simp
  unfold Relevance.challenge
  cases h with
  | waiting hnone =>
    split
    · rename_i hcounts
      -- The first score that counts is the only one.
      refine .leading ⟨by simp, hcounts, ?_⟩ ?_
      · intro j hj
        rcases (hmem j).mp hj with hj | rfl
        · by_contra hlt
          rw [Bool.not_eq_false] at hlt
          exact hnone j hj (Binary.lt_trans hcounts hlt)
        · exact Binary.lt_irrefl _
      · intro j hj
        rcases (hmem j).mp hj.mem with hseen | rfl
        · exact absurd hj.counts (hnone j hseen)
        · exact Nat.le_refl _
    · rename_i hcounts
      refine .waiting ?_
      intro j hj
      rcases (hmem j).mp hj with hj | rfl
      · exact hnone j hj
      · exact hcounts
  | @leading leader htop hfirst =>
    split
    · rename_i hhigher
      have hcounts : Counts score i := Binary.lt_trans htop.counts hhigher
      -- All that was seen is either below the new leader or does not count.
      have hbelow : ∀ j ∈ seen, Counts score j → (score j).lt (score i) = true := by
        intro j hj hcountsj
        exact Binary.lt_of_not_lt_of_lt hcountsj (htop.highest j hj) hhigher
      refine .leading ⟨by simp, hcounts, ?_⟩ ?_
      · intro j hj
        rcases (hmem j).mp hj with hj | rfl
        · by_contra hlt
          rw [Bool.not_eq_false] at hlt
          have hback := Binary.lt_trans hlt (hbelow j hj (Binary.lt_trans hcounts hlt))
          rw [Binary.lt_irrefl] at hback
          cases hback
        · exact Binary.lt_irrefl _
      · intro j hj
        rcases (hmem j).mp hj.mem with hseen | rfl
        · have hlt := hbelow j hseen hj.counts
          rw [hj.highest i (by simp)] at hlt
          cases hlt
        · exact Nat.le_refl _
    · rename_i hnot
      rw [Bool.not_eq_true] at hnot
      refine .leading ⟨by simp [htop.mem], htop.counts, ?_⟩ ?_
      · intro j hj
        rcases (hmem j).mp hj with hj | rfl
        · exact htop.highest j hj
        · exact hnot
      · intro j hj
        rcases (hmem j).mp hj.mem with hseen | rfl
        · refine hfirst j ⟨hseen, hj.counts, fun l hl => hj.highest l (by simp [hl])⟩
        · exact (hlater leader htop.mem).le

/-- A scan of a sorted list leads at its end with the best of all. -/
theorem Leads.foldl (h : Leads score start seen best) (rest : List Nat)
    (hsorted : (seen ++ rest).Pairwise (· < ·)) :
    Leads score start (seen ++ rest) (rest.foldl (Relevance.challenge score) best) := by
  induction rest generalizing seen best with
  | nil => rwa [List.append_nil]
  | cons i rest ih =>
    have hlater : ∀ j ∈ seen, j < i := by
      intro j hj
      exact (List.pairwise_append.mp hsorted).2.2 j hj i List.mem_cons_self
    have hstep := h.challenge hlater
    rw [List.append_cons] at hsorted ⊢
    exact ih hstep hsorted

end Scan

/-- **One step.** Of a sorted list the best element is taken. -/
theorem best_of_best? {score : Nat → Double} {elements : List Nat} {c : Nat}
    (hsorted : elements.Pairwise (· < ·)) (h : best? score elements = some c) :
    Best score elements c := by
  cases elements with
  | nil => cases h
  | cons first rest =>
    rw [best?_cons] at h
    obtain rfl := Option.some.inj h
    have hstart : Leads score first [] (first, Binary.infinite true) := .waiting nofun
    have hend := hstart.foldl (first :: rest) (by simpa using hsorted)
    rw [List.nil_append] at hend
    generalize (first :: rest).foldl (challenge score) (first, Binary.infinite true) = best at hend
    -- At the end everything has been seen.
    cases hend with
    | waiting hnone =>
      refine ⟨?_, fun _ => ⟨List.mem_cons_self, ?_⟩⟩
      · rintro ⟨j, hj, hcounts⟩
        exact absurd hcounts (hnone j hj)
      · intro j hj
        rcases List.mem_cons.mp hj with rfl | hj
        · exact Nat.le_refl _
        · exact ((List.pairwise_cons.mp hsorted).1 j hj).le
    | leading htop hfirst =>
      refine ⟨fun _ => ⟨htop, hfirst⟩, ?_⟩
      intro hnone
      exact absurd ⟨_, htop.mem, htop.counts⟩ hnone

/-! ## A whole choice -/

/-- The positions below `n` that are not chosen, in order. -/
def remaining (n : Nat) (chosen : List Nat) : List Nat :=
  (List.range n).filter fun i => i ∉ chosen

/-- What remains stays in the order of the list. -/
theorem sorted_remaining (n : Nat) (chosen : List Nat) :
    (remaining n chosen).Pairwise (· < ·) :=
  List.Pairwise.filter _ List.pairwise_lt_range

theorem remaining_nil (n : Nat) : remaining n [] = List.range n := by
  simp [remaining]

/-- What a step takes out no longer remains. -/
theorem erase_remaining (n : Nat) (chosen : List Nat) (c : Nat) :
    (remaining n chosen).erase c = remaining n (chosen ++ [c]) := by
  have hnodup : (remaining n chosen).Nodup := (sorted_remaining n chosen).imp Nat.ne_of_lt
  rw [hnodup.erase_eq_filter, remaining, remaining, List.filter_filter]
  refine List.filter_congr ?_
  intro i _
  by_cases hc : i = c <;> simp [hc]

/-- A greedy choice goes on from what is chosen. -/
theorem prefix_greedy (score : List Nat → Nat → Double) (steps : Nat)
    (chosen elements : List Nat) : chosen <+: greedy score steps chosen elements := by
  obtain ⟨taken, -, hgreedy, -, -⟩ := exists_greedy score steps chosen elements
  rw [hgreedy]
  exact List.prefix_append chosen taken

/-- More steps only add elements at the end. -/
theorem greedy_prefix_greedy (score : List Nat → Nat → Double) {steps more : Nat}
    (h : steps ≤ more) (chosen elements : List Nat) :
    greedy score steps chosen elements <+: greedy score more chosen elements := by
  induction steps generalizing more chosen elements with
  | zero => exact prefix_greedy score more chosen elements
  | succ steps ih =>
    obtain ⟨more, rfl⟩ : ∃ m, more = m + 1 := ⟨more - 1, by omega⟩
    rw [greedy, greedy]
    cases best? (score chosen) elements with
    | none => exact List.prefix_rfl
    | some c => exact ih (by omega) _ _

/-- **Each step of a run** takes the best of the positions that remain after the steps before it,
which the choice so far is made of. -/
theorem best_of_greedy (score : List Nat → Nat → Double) (n steps : Nat) {chosen : List Nat}
    {t i : Nat} (ht : chosen.length ≤ t)
    (hi : (greedy score steps chosen (remaining n chosen))[t]? = some i) :
    let before := (greedy score steps chosen (remaining n chosen)).take t
    Best (score before) (remaining n before) i := by
  induction steps generalizing chosen with
  | zero =>
    -- Nothing is chosen behind the end.
    rw [greedy, List.getElem?_eq_none ht] at hi
    cases hi
  | succ steps ih =>
    rw [greedy] at hi ⊢
    cases hbest : best? (score chosen) (remaining n chosen) with
    | none =>
      rw [hbest] at hi
      dsimp only at hi
      rw [List.getElem?_eq_none ht] at hi
      cases hi
    | some c =>
      rw [hbest] at hi
      dsimp only at hi ⊢
      rw [erase_remaining] at hi ⊢
      obtain ⟨more, hmore⟩ := prefix_greedy score steps (chosen ++ [c])
        (remaining n (chosen ++ [c]))
      rcases Nat.lt_or_eq_of_le ht with hlt | rfl
      · refine ih ?_ hi
        rw [List.length_append, List.length_singleton]
        omega
      · -- The element at this place is the one that the step has just taken.
        rw [← hmore, List.append_assoc] at hi ⊢
        rw [List.getElem?_append_right (Nat.le_refl _), Nat.sub_self] at hi
        obtain rfl := Option.some.inj hi
        rw [List.take_left]
        exact best_of_best? (sorted_remaining n chosen) hbest

/-! ## Re-ranking -/

section Candidates

variable (query : List Single) (candidates : List (List Single))

/-- The similarity of a vector to the candidate at a position. -/
def similarityAt (v : List Single) (i : Nat) : Double :=
  candidates[i]?.elim .nan (cosineSimilarity v)

/-- The score of the candidate at a position, as a re-ranking computes it from the positions that
are chosen. -/
def scoreAt (lambda : Double) (chosen : List Nat) (i : Nat) : Double :=
  (lambda.mul (similarityAt candidates query i)).sub
    (((Binary.ofInt 1).sub lambda).mul
      (greatest (chosen.map fun s => candidates[s]?.elim .nan (similarityAt candidates · i))))

/-- A re-ranking computes no similarity twice, and chooses by these scores. -/
theorem select_eq (k : Nat) (lambda : Double) :
    select query candidates k lambda =
      greedy (scoreAt query candidates lambda) (min k candidates.length) []
        (List.range candidates.length) := by
  unfold select
  dsimp only
  congr 1
  funext chosen i
  -- The table of similarities to the query is computed once, and looked up here.
  have hquery : (((candidates.map Direction.ofVector).toArray.map
      (Direction.ofVector query).similarity).getD i .nan) = similarityAt candidates query i := by
    simp only [Array.getD_eq_getD_getElem?, Array.getElem?_map, List.getElem?_toArray,
      List.getElem?_map, similarityAt]
    cases candidates[i]? <;> rfl
  rw [score, hquery, scoreAt]
  congr 3
  refine List.map_congr_left ?_
  intro s _
  simp only [Array.getD_eq_getD_getElem?, Array.getElem?_map, List.getElem?_toArray,
    List.getElem?_map, similarityAt]
  -- A position without a candidate has no similarity on either side.
  cases candidates[s]? with
  | none => simp
  | some c =>
    simp only [Option.map_some, Option.elim_some, Thunk.get, Array.getElem?_map,
      List.getElem?_toArray, List.getElem?_map]
    cases candidates[i]? <;> rfl

/-- Scores of all candidates, once those at some positions are chosen. -/
def Scores (lambda : Double) (chosen : List Nat) (score : Nat → Double) : Prop :=
  ∀ i c, candidates[i]? = some c →
    Scored lambda query (chosen.filterMap (candidates[·]?)) c (score i)

/-- What a re-ranking computes are such scores, wherever it has chosen from the candidates. -/
theorem scores_scoreAt (lambda : Double) {chosen : List Nat}
    (hchosen : ∀ s ∈ chosen, s < candidates.length) :
    Scores query candidates lambda chosen (scoreAt query candidates lambda chosen) := by
  intro i c hi
  have hsimilarity (v : List Single) : similarityAt candidates v i = cosine v c := by
    rw [similarityAt, hi, Option.elim_some, cosineSimilarity_eq_cosine]
  -- A chosen position has a vector, so that none is left out and `nan` does not stand in for any.
  have hvectors : chosen.map (fun s => candidates[s]?.elim .nan (similarityAt candidates · i)) =
      (chosen.filterMap (candidates[·]?)).map (cosine · c) := by
    simp only [hsimilarity]
    induction chosen with
    | nil => rfl
    | cons s rest ih =>
      obtain ⟨hs, hrest⟩ := List.forall_mem_cons.mp hchosen
      simp [List.getElem?_eq_getElem hs, ih hrest]
  refine ⟨_, maximum_greatest _, ?_⟩
  rw [scoreAt, hsimilarity, hvectors]

/-- The scores of candidates are determined, up to the signs of zeros. -/
theorem Scores.same {lambda : Double} {chosen : List Nat} {score score' : Nat → Double}
    (h : Scores query candidates lambda chosen score)
    (h' : Scores query candidates lambda chosen score') {i : Nat} (hi : i < candidates.length) :
    (score i).Same (score' i) :=
  (h i _ (List.getElem?_eq_getElem hi)).same (h' i _ (List.getElem?_eq_getElem hi))

end Candidates

/-- **Re-ranking is the greedy choice.** As many candidates are chosen as are asked for, or all, and
none of them twice. Each is the best of those that remain, by its similarity to the query and to
those chosen before it, and whoever asks for more candidates gets these first. -/
theorem select_greedy (query : List Single) (candidates : List (List Single)) (k : Nat)
    (lambda : Double) :
    let n := candidates.length
    let chosen := select query candidates k lambda
    chosen.length = min k n ∧ chosen.Nodup ∧ (∀ i ∈ chosen, i < n) ∧
      (∀ t i, chosen[t]? = some i →
        (∃ score, Scores query candidates lambda (chosen.take t) score) ∧
          ∀ score, Scores query candidates lambda (chosen.take t) score →
            Best score (remaining n (chosen.take t)) i) ∧
      ∀ more, k ≤ more → chosen <+: select query candidates more lambda := by
  intro n chosen
  have hchoice := choice_select query candidates k lambda
  refine ⟨hchoice.length, hchoice.nodup, hchoice.lt, ?_, ?_⟩
  · intro t i hi
    have hscores : Scores query candidates lambda (chosen.take t)
        (scoreAt query candidates lambda (chosen.take t)) :=
      scores_scoreAt query candidates lambda fun s hs =>
        hchoice.lt s (List.mem_of_mem_take hs)
    have hbest : Best (scoreAt query candidates lambda (chosen.take t))
        (remaining n (chosen.take t)) i := by
      simp only [chosen] at hi ⊢
      rw [select_eq, ← remaining_nil] at hi ⊢
      exact best_of_greedy _ n _ (Nat.zero_le t) hi
    refine ⟨⟨_, hscores⟩, fun score hscore => hbest.congr ?_⟩
    intro j hj
    exact hscores.same query candidates hscore (List.mem_range.mp (List.mem_of_mem_filter hj))
  · intro more hmore
    show select query candidates k lambda <+: _
    rw [select_eq, select_eq]
    exact greedy_prefix_greedy _ (by omega) [] _

/-- A score that is `nan` never wins, and the first of two equal ones does. -/
example :
    let one : Single := .ofInt 1
    let zero : Single := .zero false
    select [one, zero] [[.nan, zero], [one, zero], [one, zero]] 3 (.ofInt 1) = [1, 2, 0] := by
  decide +kernel

end Relevance

end VectorTable
