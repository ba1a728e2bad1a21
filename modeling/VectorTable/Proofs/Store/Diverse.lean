import VectorTable.Proofs.Config.Validation
import VectorTable.Proofs.Relevance
import VectorTable.Proofs.Store.Open

/-!
# VectorTable — search with re-ranking

A search with re-ranking is a plain search for more rows than are asked for, from which a choice is
made when all is over: it sends and logs what the plain search does, and fails where it does.

* `takeOut?` — taking elements out of their places, each at most once;
* `Reranked` — the rows of a choice among candidates;
* `Store.searchDiverse_refines_search` — what a search with re-ranking does.
-/

namespace VectorTable

/-! ## Rows in another order -/

section

variable {α : Type}

/-- Takes the elements at some positions out of their places, one after the other. There is no
answer if one of the positions has no place, or a place that has been emptied already. -/
def takeOut? (places : List (Option α)) : List Nat → Option (List α)
  | [] => some []
  | i :: rest =>
    match places[i]? with
    | some (some a) => (takeOut? (places.set i none) rest).map (a :: ·)
    | _ => none

/-- Positions that differ, each with an element in its place, are all served. -/
theorem takeOut?_of_nodup {places : List (Option α)} {positions : List Nat}
    (hnodup : positions.Nodup) (hfull : ∀ i ∈ positions, ∃ a, places[i]? = some (some a)) :
    takeOut? places positions = some (positions.filterMap fun i => places[i]?.join) := by
  -- The places lose an element with each step, but none that is still to be taken.
  induction positions generalizing places with
  | nil => rfl
  | cons i rest ih =>
    obtain ⟨hi, hrest⟩ := List.nodup_cons.mp hnodup
    obtain ⟨a, ha⟩ := hfull i List.mem_cons_self
    have hother : ∀ j ∈ rest, (places.set i none)[j]? = places[j]? := by
      intro j hj
      have hne : i ≠ j := by
        rintro rfl
        exact hi hj
      exact List.getElem?_set_ne hne
    have hlater : ∀ j ∈ rest, ∃ a, (places.set i none)[j]? = some (some a) := by
      intro j hj
      rw [hother j hj]
      exact hfull j (List.mem_cons_of_mem _ hj)
    have hsame : rest.filterMap (fun j => (places.set i none)[j]?.join)
        = rest.filterMap fun j => places[j]?.join := by
      refine List.filterMap_congr ?_
      intro j hj
      rw [hother j hj]
    rw [takeOut?, ha, List.filterMap_cons, ha]
    show (takeOut? (places.set i none) rest).map (a :: ·) = _
    rw [ih hrest hlater, hsame]
    rfl

/-- All elements of a list by their positions. -/
theorem filterMap_range (l : List α) : (List.range l.length).filterMap (l[·]?) = l := by
  induction l with
  | nil => rfl
  | cons a l ih =>
    rw [List.length_cons, List.range_succ_eq_map, List.filterMap_cons, List.filterMap_map]
    show a :: (List.range l.length).filterMap (l[·]?) = a :: l
    rw [ih]

/-- The candidates at the positions of a choice, in its order. Each of them is taken out of its
place, and together with those that stay behind they are the candidates. -/
structure Reranked (candidates : List α) (k : Nat) (positions : List Nat) (found : List α) :
    Prop where
  rows : List.Forall₂ (fun i a => candidates[i]? = some a) positions found
  taken : takeOut? (candidates.map some) positions = some found
  length : found.length = min k candidates.length
  once : ∃ left, (found ++ left).Perm candidates

/-- A choice finds all its candidates. -/
theorem reranked_of_choice {candidates : List α} {k : Nat} {positions : List Nat}
    (h : Relevance.Choice k candidates.length positions) :
    Reranked candidates k positions (positions.filterMap (candidates[·]?)) := by
  have hrows : List.Forall₂ (fun i a => candidates[i]? = some a) positions
      (positions.filterMap (candidates[·]?)) := by
    have hlt := h.lt
    clear h
    induction positions with
    | nil => exact .nil
    | cons i rest ih =>
      obtain ⟨hi, hrest⟩ := List.forall_mem_cons.mp hlt
      have hfound : candidates[i]? = some candidates[i] := List.getElem?_eq_getElem hi
      rw [List.filterMap_cons_some hfound]
      exact .cons hfound (ih hrest)
  refine ⟨hrows, ?_, ?_, ?_⟩
  · -- At first every place holds its candidate.
    have hplaces (i : Nat) : (candidates.map some)[i]?.join = candidates[i]? := by
      rw [List.getElem?_map]
      cases candidates[i]? <;> rfl
    have hfull : ∀ i ∈ positions, ∃ a, (candidates.map some)[i]? = some (some a) := by
      intro i hi
      have hlt : i < candidates.length := h.lt i hi
      exact ⟨candidates[i], by simp [hlt]⟩
    have htaken := takeOut?_of_nodup h.nodup hfull
    simpa only [hplaces] using htaken
  · rw [← hrows.length_eq]
    exact h.length
  · obtain ⟨left, hperm⟩ := h.part
    refine ⟨left.filterMap (candidates[·]?), ?_⟩
    have hall := hperm.filterMap (candidates[·]?)
    rwa [List.filterMap_append, filterMap_range] at hall

end

/-! ## The search -/

namespace Store

variable {s : Store} {request : SearchRequest}

/-- The number of rows that is asked for is never zero. -/
theorem Opened.limit_ne_zero (h : s.Opened) : s.config.limit ≠ 0 :=
  (StoreConfig.validate_eq_ok_iff.mp h.validate).limit_ne_zero

/-- A request that does not ask for zero rows asks for some, if need be for as many as the store's
configuration says. -/
theorem resultLimit_of_opened (hs : s.Opened) (hmax : request.maxResults ≠ some 0) :
    s.resultLimit request = .ok (request.maxResults.getD s.config.limit) ∧
      request.maxResults.getD s.config.limit ≠ 0 := by
  unfold resultLimit
  cases hk : request.maxResults with
  | none => exact ⟨rfl, hs.limit_ne_zero⟩
  | some k =>
    have hne : k ≠ 0 := by
      rintro rfl
      exact hmax hk
    exact ⟨if_neg hne, hne⟩

/-- At least as many candidates are fetched as rows are asked for. -/
theorem max_ne_zero {fetch k : UInt64} (hk : k ≠ 0) : max fetch k ≠ 0 := by
  have hmax : max fetch k = if fetch ≤ k then k else fetch := rfl
  rw [hmax]
  split
  · exact hk
  · rename_i hlt
    rintro rfl
    exact hlt UInt64.zero_le

/-- A search with re-ranking goes on from the plain search for its candidates. -/
theorem searchDiverse_eq {k : UInt64} (hk : s.resultLimit request = .ok k)
    (hne : max s.config.fetchLimit k ≠ 0) :
    s.searchDiverse request =
      s.search { request with maxResults := some (max s.config.fetchLimit k) } >>=
        fun candidates => pure (pick candidates (Relevance.select request.query.vector
          (candidates.map (·.embedding.vector)) k.toNat s.config.lambda)) := by
  have hplain : s.resultLimit { request with maxResults := some (max s.config.fetchLimit k) } =
      .ok (max s.config.fetchLimit k) := if_neg hne
  unfold searchDiverse search
  rw [hk, hplain]
  rfl

/-- **Re-ranking refines plain search.** A search with re-ranking for `k` rows runs like the plain
search for its candidates, request for request and message for message, and ends in the same errors.
Where the candidates are found it returns those that are chosen, in the order of choice. -/
theorem searchDiverse_refines_search (hs : s.Opened) (hmax : request.maxResults ≠ some 0)
    (db : Database) (sent generated : Nat) :
    let k := request.maxResults.getD s.config.limit
    let plain := (s.search { request with
      maxResults := some (max s.config.fetchLimit k) }).run db sent generated
    let diverse := (s.searchDiverse request).run db sent generated
    diverse.requests = plain.requests ∧ diverse.events = plain.events ∧
      (∀ error, diverse.result = .error error ↔ plain.result = .error error) ∧
      ∀ candidates, plain.result = .ok candidates →
        ∃ found, diverse.result = .ok found ∧
          Reranked candidates k.toNat (Relevance.select request.query.vector
            (candidates.map (·.embedding.vector)) k.toNat s.config.lambda) found := by
  intro k plain diverse
  obtain ⟨hk, hne⟩ := resultLimit_of_opened hs hmax
  -- Both send the same requests; what differs is computed from the result.
  have hrun : diverse = ⟨plain.requests, plain.events, plain.generated,
      plain.result.map fun candidates => pick candidates (Relevance.select request.query.vector
        (candidates.map (·.embedding.vector)) k.toNat s.config.lambda)⟩ := by
    show (s.searchDiverse request).run db sent generated = _
    rw [searchDiverse_eq hk (max_ne_zero hne), Session.run_bind_pure]
  refine ⟨by rw [hrun], by rw [hrun], ?_, ?_⟩
  · intro error
    rw [hrun]
    exact map_eq_error
  · intro candidates hcandidates
    refine ⟨_, by rw [hrun, hcandidates]; rfl, reranked_of_choice ?_⟩
    have hchoice := Relevance.choice_select request.query.vector
      (candidates.map (·.embedding.vector)) k.toNat s.config.lambda
    rwa [List.length_map] at hchoice

/-- Two notes are found, and the one that is closer to the query is chosen, although the database
has listed it second. -/
theorem searchDiverse_refines_search_two_notes :
    let row (id : String) (vector : List Single) : Row :=
      [.int4 1, .text id, .null, .vector vector, .null, .float8 (.zero false)]
    let one : Single := .ofInt 1
    let s : Store := ⟨.notes, .notes⟩
    let request : SearchRequest := { query := ⟨[.zero false, one]⟩, maxResults := some 1 }
    let db : Database := .answering
      (fun _ _ => ⟨[row "a" [one, .zero false], row "b" [.zero false, one]], 0⟩)
      (fun _ => ⟨List.replicate 32 0, rfl⟩)
    s.Opened ∧ request.maxResults ≠ some 0 ∧
    ((s.searchDiverse request).run db 0 0).requests =
      ((s.search { request with maxResults := some 20 }).run db 0 0).requests ∧
    ∃ found, ((s.searchDiverse request).run db 0 0).result = .ok found ∧
      found.map (·.id) = ["b"] := by
  intro row one s request db
  have hmax : request.maxResults ≠ some 0 := by decide
  obtain ⟨hrequests, -, -, hfound⟩ := searchDiverse_refines_search opened_notes hmax db 0 0
  obtain ⟨found, hresult, hranked⟩ := hfound _ rfl
  refine ⟨opened_notes, hmax, hrequests, found, hresult, ?_⟩
  have horder : Relevance.select [.zero false, one] [[one, .zero false], [.zero false, one]] 1
      StoreConfig.notes.lambda = [1] := by decide +kernel
  have hrows : List.Forall₂ _ [1] found := horder ▸ hranked.rows
  obtain ⟨m, rest, hm, hrest, rfl⟩ := List.forall₂_cons_left_iff.mp hrows
  obtain rfl := List.forall₂_nil_left_iff.mp hrest
  obtain rfl := Option.some.inj hm
  rfl

end Store

end VectorTable
