import VectorTable.Relevance

/-!
# VectorTable — the score of a candidate

What a candidate is worth at a step is described here without the way in which a re-ranking
computes it, which goes through the vectors once and folds the similarities to what is chosen. All
arithmetic is that of 64-bit floats, each operation with its rounding, so that the order of the
summands is part of what is described.

* `Relevance.cosine` — the cosine of the angle between two vectors, component by component;
* `Relevance.Maximum` — the maximum of some floats, `nan` giving way to the others;
* `Relevance.Scored` — the score of a vector, once other vectors are chosen;
* `Relevance.Scored.same` — a score is determined, up to the sign of a zero.
-/

namespace VectorTable

/-! ## The order of floats -/

namespace Binary

variable {f : Format} {a b c : Binary f}

/-- No float lies below itself, and `nan` lies below nothing. -/
theorem lt_irrefl (a : Binary f) : a.lt a = false := by
  cases a with
  | nan => rfl
  | signed s m => simp [lt]

theorem lt_trans (hab : a.lt b = true) (hbc : b.lt c = true) : a.lt c = true := by
  cases a <;> cases b <;> cases c <;> simp only [lt, decide_eq_true_eq, Bool.false_eq_true] at *
  omega

/-- Numbers are comparable: what is not above `a` is below all that is. `nan` is no number, and the
first hypothesis only holds of numbers. -/
theorem lt_of_not_lt_of_lt {bottom : Binary f} (hb : bottom.lt b = true) (hab : a.lt b = false)
    (hac : a.lt c = true) : b.lt c = true := by
  cases bottom <;> cases a <;> cases b <;> cases c <;>
    simp only [lt, decide_eq_true_eq, decide_eq_false_iff_not, Bool.false_eq_true] at *
  omega

/-- A running maximum that is `nan` is given up for whatever comes next. -/
theorem nan_max (a : Binary f) : nan.max a = a := by
  cases a <;> rfl

/-- A running maximum that is a number is only given up for a greater one, which `nan` is not. -/
theorem max_of_number (ha : a ≠ .nan) (b : Binary f) : a.max b = if a.lt b then b else a := by
  cases a with
  | nan => exact absurd rfl ha
  | signed s m => cases b <;> rfl

/-! ## Equal up to the sign of a zero -/

/-- Two floats that are equal but for the sign of a zero, as comparisons see them. -/
inductive Same : Binary f → Binary f → Prop where
  | refl (a : Binary f) : Same a a
  | zeros (s t : Bool) : Same (zero s) (zero t)

theorem Same.symm (h : Same a b) : Same b a := by
  cases h with
  | refl => exact .refl _
  | zeros s t => exact .zeros t s

/-- Both zeros lie below the same floats. -/
theorem zero_lt (s : Bool) (b : Binary f) : (zero s).lt b = (zero false).lt b := by
  cases b <;> cases s <;> rfl

/-- Both zeros lie above the same floats. -/
theorem lt_zero (a : Binary f) (s : Bool) : a.lt (zero s) = a.lt (zero false) := by
  cases a <;> cases s <;> rfl

/-- The order does not tell the two zeros apart. -/
theorem Same.lt {a' b' : Binary f} (ha : Same a a') (hb : Same b b') : a.lt b = a'.lt b' := by
  have hleft (b : Binary f) : a.lt b = a'.lt b := by
    cases ha with
    | refl => rfl
    | zeros s t => rw [zero_lt s, zero_lt t]
  have hright (a : Binary f) : a.lt b = a.lt b' := by
    cases hb with
    | refl => rfl
    | zeros s t => rw [lt_zero a s, lt_zero a t]
  rw [hleft, hright]

/-- Numbers of which none is below the other are the same. -/
theorem same_of_not_lt (ha : a ≠ .nan) (hb : b ≠ .nan) (hab : a.lt b = false)
    (hba : b.lt a = false) : Same a b := by
  cases a with
  | nan => exact absurd rfl ha
  | signed s m =>
    cases b with
    | nan => exact absurd rfl hb
    | signed t n =>
      simp only [Binary.lt, key] at hab hba
      by_cases hst : s = t
      · subst hst
        -- With one sign the order is that of the magnitudes.
        have hmn : m = n := by
          apply Fin.ext
          cases s <;> simp at hab hba <;> omega
        exact hmn ▸ .refl _
      · -- With two signs both numbers are zero.
        have hzero : m.val = 0 ∧ n.val = 0 := by
          cases s <;> cases t <;> simp at hst hab hba <;> omega
        obtain ⟨hm, hn⟩ := hzero
        obtain rfl : m = ⟨0, Nat.succ_pos _⟩ := Fin.ext hm
        obtain rfl : n = ⟨0, Nat.succ_pos _⟩ := Fin.ext hn
        exact .zeros s t

/-- Nothing rounds to nothing. -/
theorem ofQuotient_zero (negative : Bool) (denominator : Nat) :
    (ofQuotient negative 0 denominator : Binary f) = zero negative := by
  have hround : f.round 0 denominator = 0 := by
    simp [Format.round, Format.nearest]
  simp only [ofQuotient, zero, hround]

theorem inUnits_zero (negative : Bool) :
    inUnits negative (⟨0, Nat.succ_pos _⟩ : Fin (f.infinity + 1)) = 0 := by
  cases negative <;> simp [inUnits, Format.units]

/-- Whatever is multiplied by a zero, the sign of the zero changes at most that of a zero. -/
theorem Same.mul (a : Binary f) (h : Same b c) : Same (a.mul b) (a.mul c) := by
  cases h with
  | refl => exact .refl _
  | zeros s t =>
    cases a with
    | nan => exact .refl _
    | signed u m =>
      have hunits : f.units m.val * f.units 0 = 0 := by simp [Format.units]
      simp only [Binary.mul, zero, ofOrdinal, hunits, ofQuotient_zero, decide_true, Bool.or_true,
        if_true]
      split
      · exact .refl _
      · exact .zeros _ _

/-- Nor does it, where a zero is subtracted. -/
theorem Same.sub {a b c : Double} (h : Same b c) : Same (a.sub b) (a.sub c) := by
  cases h with
  | refl => exact .refl _
  | zeros s t =>
    cases a with
    | nan => exact .refl _
    | signed u m =>
      have hinfinity : (0 = Format.double.infinity) = False := by
        simp [Format.infinity, Format.double]
      simp only [Binary.sub, Binary.add, neg, zero, ofOrdinal, hinfinity, inUnits_zero,
        decide_false, Bool.false_and, Bool.false_eq_true, if_false]
      split
      · exact .refl _
      · -- The other operand decides, unless it is a zero as well.
        split
        · exact .zeros _ _
        · exact .refl _

end Binary

namespace Relevance

/-! ## Similarity -/

/-- A component of a vector as a 64-bit float. -/
def component (v : List Single) (i : Nat) : Double := (v.getD i .nan).widen

/-- The sum of the products of the first components of two vectors. Sums go from the first component
to the last, and start with the zero that changes no summand. -/
def innerProduct (a b : List Single) : Nat → Double
  | 0 => .zero true
  | n + 1 => (innerProduct a b n).add ((component a n).mul (component b n))

/-- The length of a vector in space. -/
def norm (v : List Single) : Double := (innerProduct v v v.length).sqrt

/-- The cosine of the angle between two vectors with equally many components: their product by the
product of their lengths. It is zero where there is no angle, as there are no components, or one of
the vectors has length zero. -/
def cosine (a b : List Single) : Double :=
  if a.length = b.length ∧ a ≠ [] ∧ (norm a).eq (.zero false) = false ∧
      (norm b).eq (.zero false) = false then
    (innerProduct a b a.length).div ((norm a).mul (norm b))
  else .zero false

/-- The sum of the first products is the product of the first components. -/
theorem sumFloats_take_products {a b : List Single} (hlength : a.length = b.length) {n : Nat}
    (hn : n ≤ a.length) :
    sumFloats ((List.zipWith Binary.mul (a.map Binary.widen) (b.map Binary.widen)).take n) =
      innerProduct a b n := by
  induction n with
  | zero => rfl
  | succ n ih =>
    have ha : n < a.length := hn
    have hb : n < b.length := hlength ▸ ha
    have hnext : (List.zipWith Binary.mul (a.map Binary.widen) (b.map Binary.widen))[n]? =
        some ((component a n).mul (component b n)) := by
      rw [List.getElem?_zipWith]
      simp [component, ha, hb]
    rw [List.take_add_one, sumFloats, List.foldl_append, hnext]
    show List.foldl Binary.add (sumFloats _) _ = _
    rw [ih (by omega)]
    rfl

/-- The product of two vectors with equally many components is that of all of them. -/
theorem dotProduct_eq {a b : List Single} (hlength : a.length = b.length) :
    dotProduct (a.map Binary.widen) (b.map Binary.widen) = innerProduct a b a.length := by
  have hall : (List.zipWith Binary.mul (a.map Binary.widen) (b.map Binary.widen)).length ≤
      a.length := by
    rw [List.length_zipWith, List.length_map]
    exact Nat.min_le_left _ _
  rw [← sumFloats_take_products hlength (Nat.le_refl _), List.take_of_length_le hall, dotProduct]

/-- The similarity of two vectors is the cosine of their angle. -/
theorem cosineSimilarity_eq_cosine (a b : List Single) : cosineSimilarity a b = cosine a b := by
  have hnorm (v : List Single) : (Direction.ofVector v).length = norm v := by
    show (dotProduct (v.map Binary.widen) (v.map Binary.widen)).sqrt = _
    rw [dotProduct_eq rfl, norm]
  have hcomponents (v : List Single) :
      (Direction.ofVector v).components = v.map Binary.widen := rfl
  unfold cosineSimilarity Direction.similarity cosine
  simp only [hnorm, hcomponents, List.length_map, List.isEmpty_map, List.isEmpty_iff,
    Bool.or_eq_true, ← Bool.not_eq_true]
  -- Both sides ask the same, the one for what keeps it from an angle.
  by_cases hempty : a.length ≠ b.length ∨ a = []
  · rw [if_pos hempty, if_neg]
    rintro ⟨hlength, hne, -⟩
    exact hempty.elim (fun h => h hlength) hne
  · obtain ⟨hlength, hne⟩ := not_or.mp hempty
    rw [if_neg hempty, dotProduct_eq (Decidable.not_not.mp hlength)]
    by_cases hzero : (norm a).eq (.zero false) = true ∨ (norm b).eq (.zero false) = true
    · rw [if_pos hzero, if_neg]
      rintro ⟨-, -, ha, hb⟩
      exact hzero.elim ha hb
    · obtain ⟨ha, hb⟩ := not_or.mp hzero
      rw [if_neg hzero, if_pos ⟨Decidable.not_not.mp hlength, hne, ha, hb⟩]

/-! ## The maximum -/

/-- The maximum of some floats: zero if there are none, and otherwise the one of them that no other
exceeds. `nan` gives way to the others, and is left where there is nothing else. -/
inductive Maximum : List Double → Double → Prop where
  | none : Maximum [] (.zero false)
  | nan {xs : List Double} (hsome : xs ≠ []) (hnan : ∀ x ∈ xs, x = .nan) : Maximum xs .nan
  | number {xs : List Double} {m : Double} (hmem : m ∈ xs) (hnumber : m ≠ .nan)
    (hhighest : ∀ x ∈ xs, m.lt x = false) : Maximum xs m

/-- **One comparison** keeps the maximum of what has been gone through. -/
theorem Maximum.max {xs : List Double} {m : Double} (h : Maximum xs m) (hsome : xs ≠ [])
    (x : Double) : Maximum (xs ++ [x]) (m.max x) := by
  cases h with
  | none => exact absurd rfl hsome
  | nan _ hnan =>
    rw [Binary.nan_max]
    by_cases hx : x = .nan
    · subst hx
      refine .nan (by simp) fun y hy => ?_
      rcases List.mem_append.mp hy with hy | hy
      · exact hnan y hy
      · exact List.mem_singleton.mp hy
    · -- The first number exceeds nothing, as all before it is `nan`.
      refine .number (by simp) hx fun y hy => ?_
      rcases List.mem_append.mp hy with hy | hy
      · rw [hnan y hy]
        cases x <;> rfl
      · rw [List.mem_singleton.mp hy, Binary.lt_irrefl]
  | number hmem hnumber hhighest =>
    rw [Binary.max_of_number hnumber]
    split
    · rename_i hlt
      refine .number (by simp) ?_ fun y hy => ?_
      · rintro rfl
        cases m <;> cases hlt
      · rcases List.mem_append.mp hy with hy | hy
        · -- What exceeded `x` would exceed the maximum before it.
          refine Bool.eq_false_iff.mpr fun hxy => ?_
          have hmy := Binary.lt_trans hlt hxy
          rw [hhighest y hy] at hmy
          cases hmy
        · rw [List.mem_singleton.mp hy, Binary.lt_irrefl]
    · rename_i hnot
      rw [Bool.not_eq_true] at hnot
      refine .number (List.mem_append_left _ hmem) hnumber fun y hy => ?_
      rcases List.mem_append.mp hy with hy | hy
      · exact hhighest y hy
      · rw [List.mem_singleton.mp hy, hnot]

/-- The comparisons with the rest of a list find the maximum of the whole. -/
theorem Maximum.foldl {seen : List Double} {m : Double} (h : Maximum seen m) (hsome : seen ≠ [])
    (rest : List Double) : Maximum (seen ++ rest) (rest.foldl Binary.max m) := by
  induction rest generalizing seen m with
  | nil => rwa [List.append_nil]
  | cons x rest ih =>
    rw [List.append_cons]
    exact ih (h.max hsome x) (by simp)

/-- **A whole run of comparisons** finds the maximum. -/
theorem maximum_greatest (xs : List Double) : Maximum xs (greatest xs) := by
  cases xs with
  | nil => exact .none
  | cons x rest =>
    have hfirst : Maximum [x] x := by
      by_cases hx : x = .nan
      · subst hx
        exact .nan (by simp) (by simp)
      · exact .number (by simp) hx (by simp [Binary.lt_irrefl])
    exact hfirst.foldl (by simp) rest

/-- There is one maximum, but for the sign of a zero. -/
theorem Maximum.same {xs : List Double} {m m' : Double} (h : Maximum xs m) (h' : Maximum xs m') :
    m.Same m' := by
  cases h with
  | none =>
    cases h' with
    | none => exact .refl _
    | nan hsome => exact absurd rfl hsome
    | number hmem => cases hmem
  | nan hsome hnan =>
    cases h' with
    | none => exact absurd rfl hsome
    | nan => exact .refl _
    | number hmem hnumber => exact absurd (hnan _ hmem) hnumber
  | number hmem hnumber hhighest =>
    cases h' with
    | none => cases hmem
    | nan _ hnan => exact absurd (hnan _ hmem) hnumber
    | number hmem' hnumber' hhighest' =>
      -- Neither exceeds the other, which leaves at most the sign of a zero.
      exact Binary.same_of_not_lt hnumber hnumber' (hhighest _ hmem') (hhighest' _ hmem)

/-! ## Scores -/

/-- The score of the vector `c`, once other vectors are chosen: `lambda` times its similarity to the
query, less `1 - lambda` times the maximum of the similarities of the chosen ones to it. -/
def Scored (lambda : Double) (query : List Single) (chosen : List (List Single)) (c : List Single)
    (score : Double) : Prop :=
  ∃ m, Maximum (chosen.map (cosine · c)) m ∧
    score = (lambda.mul (cosine query c)).sub (((Binary.ofInt 1).sub lambda).mul m)

/-- Scores differ at most in the sign of a zero. -/
theorem Scored.same {lambda : Double} {query c : List Single} {chosen : List (List Single)}
    {score score' : Double} (h : Scored lambda query chosen c score)
    (h' : Scored lambda query chosen c score') : score.Same score' := by
  obtain ⟨m, hm, rfl⟩ := h
  obtain ⟨m', hm', rfl⟩ := h'
  exact .sub (.mul _ (hm.same hm'))

end Relevance

end VectorTable
