import VectorTable.Proofs.Catalog
import VectorTable.Proofs.Except
import VectorTable.Proofs.Filter.Meaning

/-!
# VectorTable — filters mean what they say

The predicate of a filter is a condition with three truth values; a search returns the rows on
which it is true. This module proves that these are just the rows that match the filter, by
induction on the filter. Only truth is followed through the induction, not falsity: `NOT` is
always put around a condition that is made false where it is null, so that it has a complement
in the same sense as the filter.

Main results:

* `Filter.toPredicate_true_iff` — the predicate of a filter is true on just the rows that match;
* `Filter.toPredicate_text_true_iff` — and so is its text, as the database reads it.
-/

namespace VectorTable

/-! ## Predicates -/

section Predicates

variable {db : Engine} {catalog : Catalog} {row : db.Tuple} {b b' : Bindings} {p : Predicate}
  {values : List SqlValue} {key : String}

/-- A predicate is true, false or null on every row. -/
theorem Predicate.eval_truth (p : Predicate) (row : db.Tuple) (values : List SqlValue) :
    ∃ t : Option Bool, p.expression.eval db row values = t.map .truth := by
  cases p with
  | constant value => exact ⟨some value, rfl⟩
  | isNull e => exact ⟨some _, rfl⟩
  | orFalse inner =>
    obtain ⟨t, ht⟩ := inner.eval_truth row values
    refine ⟨some (t.getD false), ?_⟩
    have hlist : (Sql.Expression.coalesce [inner.expression, .truth false]).eval db row values =
        [inner.expression.eval db row values, some (.truth false)].findSome? id := by
      simp [Sql.Expression.eval, Sql.Expression.evalAll]
    rw [Predicate.expression, hlist, ht]
    -- Null is made false, and a truth value stays what it is.
    cases t <;> rfl
  | compare | isIn | notIn | and | or | not => exact ⟨_, rfl⟩

/-- The predicate of a comparison is true where the comparison holds. -/
theorem Filter.compare_true_iff (lawful : db.Lawful) {op : Comparison} {value : MetadataValue}
    (h : (Filter.comparePredicate catalog op key value).run b = .ok (p, b'))
    (hvalues : b'.toList <+: values) :
    p.expression.IsTrue db row values ↔ (Filter.compare op key value).Matches db catalog row := by
  obtain ⟨target, l, b₁, param, htarget, hleft, hparam, rfl, rfl⟩ := Filter.compare_ok h
  have hl := (Target.left_denotes lawful row htarget hleft).mono (b₁.extends_push param.value)
    values hvalues
  have hr := Operand.denotes_bound row (Bindings.getElem?_push b₁ param.value) values hvalues
  obtain ⟨d, hd, hgiven⟩ := Target.param_denotes db htarget hparam
  -- Both sides are what the meaning of the comparison speaks of, and the right one is not null.
  rw [hd] at hr
  by_cases hop : op = .ne
  · -- A null on the left makes the test for null true, and otherwise `<>` negates `=`.
    subst hop
    rw [if_pos rfl]
    simp only [Predicate.expression, Sql.Expression.isTrue_or, Sql.Expression.isTrue_isNull,
      Sql.Expression.isTrue_compare, hl, hr, Filter.Matches, ← Engine.compare_eq_true_iff hgiven]
    cases db.stored catalog row key value with
    | none => simp [Engine.compare]
    | some a => simp [Engine.compare, lawful.holds_ne]
  · -- Every other comparison is its own meaning.
    rw [if_neg hop]
    have hmatches : (Filter.compare op key value).Matches db catalog row ↔
        db.Agrees catalog row op key value := by
      cases op <;> first | exact absurd rfl hop | exact Iff.rfl
    rw [hmatches, Predicate.expression, Sql.Expression.isTrue_compare, hl, hr,
      Engine.compare_eq_true_iff hgiven]

/-- Every slot of a list denotes the value of its parameter, which is not null. -/
theorem Target.slots_denote (row : db.Tuple) {target : Target}
    (htarget : catalog.resolve key = .ok target)
    {list : List MetadataValue} {params : List Param}
    (hparams : list.mapM target.param = .ok params) {start : List SqlValue}
    (hvalues : start ++ params.map (·.value) <+: values) :
    List.Forall₂ (fun o v => ∃ d, o.expression.eval db row values = some d ∧
      db.given catalog key v = some d) (Target.slots start.length params) list := by
  rw [mapM_eq_ok_iff] at hparams
  -- By induction on the list: the slot of its first value is the next one after `start`.
  induction hparams generalizing start with
  | nil => exact .nil
  | @cons v p vs ps hp _ ih =>
    have hstep : start ++ (p :: ps).map (·.value) = (start ++ [p.value]) ++ ps.map (·.value) := by
      simp
    have hslots : Target.slots start.length (p :: ps) =
        .bound (start.length + 1) p.cast :: Target.slots (start ++ [p.value]).length ps := by
      simp [Target.slots, List.zipIdx_cons]
    rw [hslots]
    refine .cons ?_ (ih (hstep ▸ hvalues))
    obtain ⟨d, hd, hgiven⟩ := Target.param_denotes db htarget hp
    have hslot : (start ++ (p :: ps).map (·.value))[start.length]? = some p.value := by simp
    exact ⟨d, hd ▸ Operand.denotes_bound row
      (b := ⟨(start ++ (p :: ps).map (·.value)).toArray⟩) hslot values hvalues, hgiven⟩

/-- `IN` over the slots of a list is true where one of its values is equal. -/
theorem Predicate.isIn_true_iff {l : Operand} {list : List MetadataValue} {slots : List Operand}
    (hl : ∀ v ∈ list, l.expression.eval db row values = db.stored catalog row key v)
    (hslots : List.Forall₂ (fun o v => ∃ d, o.expression.eval db row values = some d ∧
      db.given catalog key v = some d) slots list) :
    (Predicate.isIn l slots).expression.IsTrue db row values ↔
      ∃ v ∈ list, db.Agrees catalog row .eq key v := by
  rw [Predicate.expression, Sql.Expression.isTrue_isIn]
  -- Item by item, a slot is compared as the value that is bound to it.
  induction hslots with
  | nil => simp
  | @cons o v os vs ho _ ih =>
    obtain ⟨d, hd, hgiven⟩ := ho
    have hhead : db.compare .eq (l.expression.eval db row values)
        (o.expression.eval db row values) = some true ↔ db.Agrees catalog row .eq key v := by
      rw [hl v List.mem_cons_self, hd, Engine.compare_eq_true_iff hgiven]
    rw [List.map_cons, List.exists_mem_cons_iff, List.exists_mem_cons_iff, hhead,
      ih fun w hw => hl w (List.mem_cons_of_mem _ hw)]

/-- The predicate of a list that is not empty is true where one of its values is equal, or where
none is. -/
theorem Filter.list_true_iff (lawful : db.Lawful) {negative : Bool} {first : MetadataValue}
    {rest : List MetadataValue}
    (h : (Filter.listPredicate catalog negative key (first :: rest)).run b = .ok (p, b'))
    (hvalues : b'.toList <+: values) :
    p.expression.IsTrue db row values ↔
      if negative then ¬ ∃ v ∈ first :: rest, db.Agrees catalog row .eq key v
      else ∃ v ∈ first :: rest, db.Agrees catalog row .eq key v := by
  obtain ⟨target, l, b₁, params, htarget, hleft, hsame, hparams, hbound, rfl⟩ := Filter.list_ok h
  have hb₁ : b₁.Extends b' := by
    rw [Bindings.Extends, hbound]
    exact List.prefix_append _ _
  have hl := (Target.left_denotes lawful row htarget hleft).mono hb₁ values hvalues
  have hslots := Target.slots_denote row htarget hparams (hbound ▸ hvalues)
  have hin := Predicate.isIn_true_iff
    (fun v hv => hl.trans (Engine.stored_congr (hsame v hv).symm)) hslots
  cases negative with
  | false => exact hin
  | true =>
    rw [if_pos rfl, if_pos rfl, Predicate.expression, Sql.Expression.isTrue_or,
      Predicate.expression, Sql.Expression.isTrue_isNull, hl, ← hin]
    cases hstored : db.stored catalog row key first with
    | none =>
      -- a null is in no list
      have hnull : ¬ (Predicate.isIn l (Target.slots b₁.toList.length params)).expression.IsTrue
          db row values := by
        rw [hin]
        rintro ⟨v, hv, a, d, ha, -⟩
        rw [Engine.stored_congr (hsame v hv), hstored] at ha
        cases ha
      exact iff_of_true (.inl rfl) hnull
    | some a =>
      -- nothing is null, and `NOT IN` is the complement of `IN`
      have hknown : ∀ item ∈ (Target.slots b₁.toList.length params).map Operand.expression,
          (item.eval db row values).isSome = true := by
        intro item hitem
        obtain ⟨o, ho, rfl⟩ := List.mem_map.mp hitem
        have hall : List.Forall₂ (fun (o : Operand) (_ : MetadataValue) =>
            (o.expression.eval db row values).isSome = true ∧ True)
            (Target.slots b₁.toList.length params) (first :: rest) := by
          refine hslots.imp ?_
          rintro o v ⟨d, hd, -⟩
          exact ⟨by simp [hd], trivial⟩
        exact (List.forall₂_and_left _ _ |>.mp hall).1 o ho
      simp only [Predicate.expression, Sql.Expression.isTrue_notIn (hl.trans hstored) hknown]
      simp

/-- **Translation preserves meaning.** -/
theorem Filter.toPredicate_true_iff (lawful : db.Lawful) {f : Filter}
    (h : (f.toPredicate catalog).run b = .ok (p, b')) (hvalues : b'.toList <+: values) :
    p.expression.IsTrue db row values ↔ f.Matches db catalog row := by
  induction f generalizing b b' p values with
  | compare op key value => exact compare_true_iff lawful h hvalues
  | isIn key list =>
    cases list with
    | nil =>
      cases h
      simp [Predicate.expression, Sql.Expression.IsTrue, Sql.Expression.eval, Datum.truth?, Matches]
    | cons first rest => exact list_true_iff lawful h hvalues
  | notIn key list =>
    cases list with
    | nil =>
      cases h
      simp [Predicate.expression, Sql.Expression.IsTrue, Sql.Expression.eval, Datum.truth?, Matches]
    | cons first rest => exact list_true_iff lawful h hvalues
  | and left right ihLeft ihRight =>
    -- What the right side binds is bound after the left side, which does not depend on it.
    obtain ⟨l, b₁, r, hl, hr, rfl⟩ := and_ok h
    have hb₁ : b₁.toList <+: values := List.IsPrefix.trans (toPredicate_extends hr) hvalues
    rw [Predicate.expression, Sql.Expression.isTrue_and, ihLeft hl hb₁, ihRight hr hvalues,
      Matches]
  | or left right ihLeft ihRight =>
    obtain ⟨l, b₁, r, hl, hr, rfl⟩ := or_ok h
    have hb₁ : b₁.toList <+: values := List.IsPrefix.trans (toPredicate_extends hr) hvalues
    rw [Predicate.expression, Sql.Expression.isTrue_or, ihLeft hl hb₁, ihRight hr hvalues,
      Matches]
  | not inner ih =>
    obtain ⟨q, hq, rfl⟩ := not_ok h
    obtain ⟨t, ht⟩ := q.eval_truth row values
    rw [Predicate.expression, Predicate.expression, Sql.Expression.isTrue_not_coalesce ht,
      ih hq hvalues, Matches]

/-! ## The text of the predicate -/

/-- A translation makes no empty lists. -/
theorem Filter.toPredicate_listed {f : Filter}
    (h : (f.toPredicate catalog).run b = .ok (p, b')) : p.Listed := by
  have hlist : ∀ {negative : Bool} {key : String} {list : List MetadataValue} {p : Predicate}
      {b b' : Bindings}, (listPredicate catalog negative key list).run b = .ok (p, b') →
      p.Listed := by
    intro negative key list p b b' h
    cases list with
    | nil =>
      cases h
      trivial
    | cons first rest =>
      obtain ⟨target, l, b₁, params, -, -, -, hparams, -, rfl⟩ := list_ok h
      have hslots : Target.slots b₁.toList.length params ≠ [] := by
        rw [mapM_eq_ok_iff, List.forall₂_cons_left_iff] at hparams
        obtain ⟨q, qs, -, -, rfl⟩ := hparams
        simp [Target.slots, List.zipIdx_cons]
      cases negative with
      | false => exact hslots
      | true => exact ⟨trivial, hslots⟩
  -- An empty list is translated to a constant, so that none is left in a predicate.
  induction f generalizing b b' p with
  | compare op key value =>
    obtain ⟨target, l, b₁, param, -, -, -, -, rfl⟩ := compare_ok h
    split
    · exact ⟨trivial, trivial⟩
    · trivial
  | isIn key list => exact hlist h
  | notIn key list => exact hlist h
  | and left right ihLeft ihRight =>
    obtain ⟨l, b₁, r, hl, hr, rfl⟩ := and_ok h
    exact ⟨ihLeft hl, ihRight hr⟩
  | or left right ihLeft ihRight =>
    obtain ⟨l, b₁, r, hl, hr, rfl⟩ := or_ok h
    exact ⟨ihLeft hl, ihRight hr⟩
  | not inner ih =>
    obtain ⟨q, hq, rfl⟩ := not_ok h
    exact show q.Listed from ih hq

/-- **The text of a filter's predicate selects the rows that match.** Read as an expression of SQL
by the rules of precedence and evaluated with three truth values, with the filter's values in its
slots, the text is true on a row if and only if the filter matches the row. What a statement
binds after the filter does not matter. -/
theorem Filter.toPredicate_text_true_iff (lawful : db.Lawful) {f : Filter}
    (h : (f.toPredicate catalog).run b = .ok (p, b')) (row : db.Tuple) (later : List SqlValue) :
    ∃ e, Sql.read p.sql.render = some e ∧
      (e.IsTrue db row (b'.toList ++ later) ↔ f.Matches db catalog row) :=
  ⟨p.expression, p.read_render (toPredicate_listed h),
    toPredicate_true_iff lawful h (List.prefix_append _ _)⟩

end Predicates

/-- A note in English without a page is neither "not in English" nor "after page 2": the null of
the absent page does not hide the row. -/
theorem Filter.toPredicate_text_true_absent_page :
    let f : Filter := .not (.or (.compare .ne "lang" (.string "en"))
      (.compare .gt "page" (.integer 2)))
    let row : Engine.wholeNumbers.Tuple := fun name =>
      if name = "metadata_json" then some (.object (.ofList [("lang", .string "en")])) else none
    ∃ p b, (f.toPredicate .notes).run .empty = .ok (p, b) ∧
      p.sql.render = "(NOT COALESCE((((\"metadata_json\"::jsonb ->> $1) IS NULL OR " ++
        "(\"metadata_json\"::jsonb ->> $1) <> $2) OR \"page\" > $3), FALSE))" ∧
      ∃ e, Sql.read p.sql.render = some e ∧
        e.IsTrue Engine.wholeNumbers row (b.toList ++ [.bigint (some 4)]) := by
  intro f row
  let p : Predicate := .not (.orFalse (.or
    (.or (.isNull (.memberText "metadata_json" 1))
      (.compare .ne (.memberText "metadata_json" 1) (.bound 2 none)))
    (.compare .gt (.column "page") (.bound 3 none))))
  let b : Bindings := ⟨#[.text (some "lang"), .text (some "en"), .integer (some 2)]⟩
  have htranslated : (f.toPredicate .notes).run .empty = .ok (p, b) := rfl
  have hmatches : f.Matches Engine.wholeNumbers .notes row := by
    rintro (hlang | ⟨a, d, hpage, -⟩)
    · exact hlang ⟨.text "en", .text "en", rfl, rfl, rfl⟩
    · cases hpage
  obtain ⟨e, hread, htrue⟩ := toPredicate_text_true_iff Engine.wholeNumbers_lawful htranslated row
    [.bigint (some 4)]
  exact ⟨p, b, htranslated, by decide, e, hread, htrue.mpr hmatches⟩

end VectorTable
