import Mathlib.Data.List.Forall2
import VectorTable.Sql.Statement

/-!
# VectorTable — lists cut into pieces

Cutting a list loses nothing, leaves no piece empty, and finds the parts of equal length that
the list was joined from.

* `flatten_chunks` — the pieces joined again;
* `chunks_flatten` — parts of equal length, joined and cut again;
* `forall₂_chunks` — lists of one shape have pieces of one shape.
-/

namespace VectorTable

variable {α : Type}

@[simp] theorem chunks_nil (size : Nat) : chunks size ([] : List α) = [] := by
  rw [chunks]

theorem chunks_cons (size : Nat) (a : α) (l : List α) :
    chunks size (a :: l) = (a :: l.take (size - 1)) :: chunks size (l.drop (size - 1)) := by
  rw [chunks]

/-- The parts of a cut make up the list. -/
theorem flatten_chunks (size : Nat) (l : List α) : (chunks size l).flatten = l := by
  induction l using chunks.induct size with
  | case1 => rw [chunks_nil, List.flatten_nil]
  | case2 a rest ih =>
    rw [chunks_cons, List.flatten_cons, ih, List.cons_append, List.take_append_drop]

theorem chunks_ne_nil (size : Nat) {l : List α} (h : l ≠ []) : chunks size l ≠ [] := by
  intro hnil
  have := flatten_chunks size l
  rw [hnil, List.flatten_nil] at this
  exact h this.symm

theorem ne_nil_of_mem_chunks {size : Nat} {l part : List α} (h : part ∈ chunks size l) :
    part ≠ [] := by
  induction l using chunks.induct size with
  | case1 =>
    rw [chunks_nil] at h
    cases h
  | case2 a rest ih =>
    rw [chunks_cons] at h
    rcases List.mem_cons.mp h with rfl | h
    · exact List.cons_ne_nil _ _
    · exact ih h

/-- A first part of the right length is the first piece. -/
theorem chunks_append {size : Nat} (hsize : 0 < size) {part : List α} (hpart : part.length = size)
    (rest : List α) : chunks size (part ++ rest) = part :: chunks size rest := by
  cases part with
  | nil => simp at hpart; omega
  | cons a part =>
    have hlength : size - 1 = part.length := by
      rw [List.length_cons] at hpart
      omega
    rw [List.cons_append, chunks_cons, hlength, List.take_left, List.drop_left]

/-- Parts of the size of the cut are cut as they were. -/
theorem chunks_flatten {size : Nat} (hsize : 0 < size) {parts : List (List α)}
    (h : ∀ part ∈ parts, part.length = size) : chunks size parts.flatten = parts := by
  induction parts with
  | nil => rw [List.flatten_nil, chunks_nil]
  | cons part parts ih =>
    rw [List.flatten_cons, chunks_append hsize (h part List.mem_cons_self),
      ih fun p hp => h p (List.mem_cons_of_mem _ hp)]

/-- Lists that are related element by element are cut into pieces that are. -/
theorem forall₂_chunks {β : Type} {r : α → β → Prop} (size : Nat) {l : List α} {l' : List β}
    (h : List.Forall₂ r l l') : List.Forall₂ (List.Forall₂ r) (chunks size l) (chunks size l') := by
  induction l using chunks.induct size generalizing l' with
  | case1 =>
    cases h
    rw [chunks_nil, chunks_nil]
    exact .nil
  | case2 a rest ih =>
    cases h with
    | cons ha hrest =>
      rw [chunks_cons, chunks_cons]
      exact .cons (.cons ha (List.forall₂_take _ hrest)) (ih (List.forall₂_drop _ hrest))

/-! ## Insert statements -/

/-- The rows of the insert statements, taken together, are the rows that were given. -/
theorem insertStatements_values (catalog : Catalog) (rows : List (List Param)) :
    (insertStatements catalog rows).flatMap (·.values)
      = (rows.map fun row => row.map (·.value)).flatten := by
  have h (parts : List (List (List Param))) :
      (parts.map (insertStatement catalog)).flatMap (·.values)
        = (parts.flatten.map fun row => row.map (·.value)).flatten := by
    induction parts with
    | nil => rfl
    | cons part parts ih =>
      rw [List.map_cons, List.flatMap_cons, ih, List.flatten_cons, List.map_append,
        List.flatten_append, insertStatement, List.flatMap_def]
  rw [insertStatements, h, flatten_chunks]

end VectorTable
