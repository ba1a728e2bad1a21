import VectorTable.Filter.Predicate

/-!
# VectorTable — what a translation binds

The translation of a filter binds values as it goes and may fail on the way. This module says
what each of its steps does when it succeeds, so that later proofs need not open the steps:
which operands it makes, and which values it adds to those already bound.

* `Bindings.Extends` — values are only ever added;
* `Filter.compare_ok`, `Filter.list_ok` — the steps of a comparison and of a list;
* `Filter.toPredicate_extends` — a translation keeps what was bound before it;
* `Filter.TranslatesTo` — the translation of a filter that may be missing.
-/

namespace VectorTable

/-! ## Bindings -/

namespace Bindings

/-- More may be bound, but what is bound keeps its slot. -/
def Extends (b b' : Bindings) : Prop := b.toList <+: b'.toList

theorem Extends.refl (b : Bindings) : b.Extends b := List.prefix_rfl

theorem Extends.trans {a b c : Bindings} (hab : a.Extends b) (hbc : b.Extends c) :
    a.Extends c :=
  List.IsPrefix.trans hab hbc

@[simp] theorem toList_push (b : Bindings) (value : SqlValue) :
    (b.push value).2.toList = b.toList ++ [value] := by
  simp [push, toList]

/-- A new value is bound to the next free slot. -/
theorem push_fst (b : Bindings) (value : SqlValue) : (b.push value).1 = b.toList.length + 1 := by
  simp [push, toList]

/-- What is bound already stays where it is. -/
theorem extends_push (b : Bindings) (value : SqlValue) : b.Extends (b.push value).2 := by
  rw [Extends, toList_push]
  exact List.prefix_append _ _

end Bindings

/-! ## Steps that succeed -/

namespace Binder

variable {α β : Type}

/-- Two steps succeed one after the other, the second with what the first has bound. -/
theorem bind_ok {x : Binder α} {f : α → Binder β} {b b₂ : Bindings} {y : β}
    (h : (x >>= f).run b = .ok (y, b₂)) :
    ∃ a b₁, x.run b = .ok (a, b₁) ∧ (f a).run b₁ = .ok (y, b₂) := by
  rw [StateT.run_bind] at h
  cases hx : x.run b with
  | error e =>
    rw [hx] at h
    cases h
  | ok r =>
    rw [hx] at h
    exact ⟨r.1, r.2, rfl, h⟩

/-- Work that succeeds is followed by what comes after it. -/
theorem run_bind {x : Binder α} {f : α → Binder β} {a : α} {b b₁ : Bindings}
    (h : x.run b = .ok (a, b₁)) : (x >>= f).run b = (f a).run b₁ := by
  rw [StateT.run_bind, h]
  rfl

/-- A step that only returns a value binds nothing. -/
theorem pure_ok {a y : α} {b b₁ : Bindings} (h : (pure a : Binder α).run b = .ok (y, b₁)) :
    y = a ∧ b₁ = b := by
  cases h
  exact ⟨rfl, rfl⟩

/-- A computation without bindings leaves them as they are. -/
theorem run_lift {e : Except Error α} {a : α} (h : e = .ok a) (b : Bindings) :
    (liftM e : Binder α).run b = .ok (a, b) := by
  rw [h]
  rfl

/-- Conversely, it is such a computation that has succeeded. -/
theorem lift_ok {e : Except Error α} {y : α} {b b₁ : Bindings}
    (h : (liftM e : Binder α).run b = .ok (y, b₁)) : e = .ok y ∧ b₁ = b := by
  cases e with
  | error e => cases h
  | ok a =>
    cases h
    exact ⟨rfl, rfl⟩

end Binder

/-- A parameter is put into the next slot, with its cast. -/
theorem bindParam_run (p : Param) (b : Bindings) :
    (bindParam p).run b = .ok (.bound (b.toList.length + 1) p.cast, (b.push p.value).2) := by
  rw [← Bindings.push_fst b p.value]
  rfl

/-- Where the values of a key are, by the columns of the catalog. -/
theorem Catalog.resolve_cases {catalog : Catalog} {key : String} {target : Target}
    (h : catalog.resolve key = .ok target) :
    (∃ c, catalog.metadataColumn? key = some c ∧ target = .column c) ∨
      (catalog.metadataColumn? key = none ∧
        ∃ json, catalog.overflow = some json ∧ target = .member json.name) := by
  unfold Catalog.resolve at h
  split at h
  case h_1 c hc =>
    cases h
    exact .inl ⟨c, hc, rfl⟩
  case h_2 hc =>
    split at h
    case h_1 json hjson =>
      cases h
      exact .inr ⟨hc, json, hjson, rfl⟩
    -- A key with neither place is refused.
    case h_2 => cases h

namespace Target

/-- A column is compared as it is, so that its side binds nothing. -/
theorem left_column_run (c : Column) (key : String) (value : MetadataValue) (b : Bindings) :
    ((Target.column c).left key value).run b = .ok (.column c.name, b) := rfl

/-- For a member of the JSON column the key is bound, and it is compared as a number or as a text.
-/
theorem left_member_run (json key : String) (value : MetadataValue) (b : Bindings) :
    ((Target.member json).left key value).run b =
      .ok (if value.isNumeric then .memberNumber json (b.toList.length + 1)
        else .memberText json (b.toList.length + 1), (b.push (.text (some key))).2) := by
  rw [← Bindings.push_fst b (.text (some key))]
  cases h : value.isNumeric <;> simp [left, h] <;> rfl

/-- The right side of a comparison is the value's own parameter. -/
theorem right_ok {target : Target} {value : MetadataValue} {b b' : Bindings} {o : Operand}
    (h : (target.right value).run b = .ok (o, b')) :
    ∃ p, target.param value = .ok p ∧ o = .bound (b.toList.length + 1) p.cast ∧
      b' = (b.push p.value).2 := by
  obtain ⟨p, b₁, hparam, hbind⟩ := Binder.bind_ok h
  obtain ⟨hp, rfl⟩ := Binder.lift_ok hparam
  rw [bindParam_run] at hbind
  cases hbind
  exact ⟨p, hp, rfl, rfl⟩

/-- The left side of a comparison only adds to what is bound. -/
theorem left_extends {target : Target} {key : String} {value : MetadataValue}
    {b b' : Bindings} {o : Operand} (h : (target.left key value).run b = .ok (o, b')) :
    b.Extends b' := by
  cases target with
  | column c =>
    cases h
    exact .refl b
  | member json =>
    rw [left_member_run] at h
    cases h
    exact b.extends_push _

/-- Parameters as operands, in slots that follow each other. -/
def slots (start : Nat) (params : List Param) : List Operand :=
  (params.zipIdx (start + 1)).map fun (p, n) => .bound n p.cast

/-- The first parameter takes the next slot, and the others follow. -/
theorem slots_cons (start : Nat) (p : Param) (params : List Param) :
    slots start (p :: params) = .bound (start + 1) p.cast :: slots (start + 1) params := by
  simp [slots, List.zipIdx_cons]

/-- The right sides of a list are the parameters of its values, one slot after the other. -/
theorem rights_ok {target : Target} {values : List MetadataValue} {b b' : Bindings}
    {list : List Operand} (h : (values.mapM target.right).run b = .ok (list, b')) :
    ∃ params, values.mapM target.param = .ok params ∧ list = slots b.toList.length params ∧
      b'.toList = b.toList ++ params.map (·.value) := by
  induction values generalizing b list with
  | nil =>
    rw [List.mapM_nil] at h
    obtain ⟨rfl, rfl⟩ := Binder.pure_ok h
    exact ⟨[], rfl, rfl, by simp⟩
  | cons value rest ih =>
    rw [List.mapM_cons] at h
    obtain ⟨o, b₁, hfirst, hmore⟩ := Binder.bind_ok h
    obtain ⟨os, b₂, hrest, hpure⟩ := Binder.bind_ok hmore
    obtain ⟨rfl, rfl⟩ := Binder.pure_ok hpure
    -- The first value takes the next slot, and the others go on behind it.
    obtain ⟨p, hp, rfl, rfl⟩ := right_ok hfirst
    obtain ⟨params, hparams, rfl, hvalues⟩ := ih hrest
    refine ⟨p :: params, ?_, ?_, ?_⟩
    · rw [List.mapM_cons, hp, hparams]
      rfl
    · rw [slots_cons]
      simp
    · rw [hvalues, Bindings.toList_push]
      simp

/-- A list is looked up in one way, as numbers or as texts. -/
theorem rightList_ok {target : Target} {key : String} {first : MetadataValue}
    {rest : List MetadataValue} {b b' : Bindings} {list : List Operand}
    (h : (target.rightList key (first :: rest)).run b = .ok (list, b')) :
    (∀ v ∈ first :: rest, v.isNumeric = first.isNumeric) ∧
      ((first :: rest).mapM target.right).run b = .ok (list, b') := by
  unfold rightList at h
  split at h
  · cases h
  · rename_i hmixed
    refine ⟨fun v hv => ?_, h⟩
    rw [Bool.and_eq_true, List.any_eq_true, List.any_eq_true] at hmixed
    -- otherwise one of `first` and `v` is a number and the other is not
    cases hfirst : first.isNumeric with
    | true =>
      refine Decidable.by_contra fun hv' => hmixed ⟨⟨first, List.mem_cons_self, hfirst⟩, v, hv, ?_⟩
      simpa using hv'
    | false =>
      refine Decidable.by_contra fun hv' => hmixed ⟨⟨v, hv, ?_⟩, first, List.mem_cons_self, ?_⟩
      · simpa using hv'
      · simp [hfirst]

end Target

namespace Filter

/-- A comparison that succeeds: the key is bound first, then the value. -/
theorem compare_ok {catalog : Catalog} {op : Comparison} {key : String} {value : MetadataValue}
    {b b' : Bindings} {p : Predicate}
    (h : (comparePredicate catalog op key value).run b = .ok (p, b')) :
    ∃ target l b₁ param, catalog.resolve key = .ok target ∧
      (target.left key value).run b = .ok (l, b₁) ∧ target.param value = .ok param ∧
      b' = (b₁.push param.value).2 ∧
      p = if op = .ne then
          .or (.isNull l) (.compare .ne l (.bound (b₁.toList.length + 1) param.cast))
        else .compare op l (.bound (b₁.toList.length + 1) param.cast) := by
  obtain ⟨target, b₀, hresolve, hcompare⟩ := Binder.bind_ok h
  obtain ⟨l, b₁, hleft, hsides⟩ := Binder.bind_ok hcompare
  obtain ⟨r, b₂, hright, hpure⟩ := Binder.bind_ok hsides
  -- The key comes first and binds nothing, then the left side, then the value.
  obtain ⟨htarget, rfl⟩ := Binder.lift_ok hresolve
  obtain ⟨param, hparam, rfl, rfl⟩ := Target.right_ok hright
  obtain ⟨rfl, rfl⟩ := Binder.pure_ok hpure
  exact ⟨target, l, b₁, param, htarget, hleft, hparam, rfl, rfl⟩

/-- A comparison succeeds if both of its sides do. -/
theorem compare_run {catalog : Catalog} {op : Comparison} {key : String} {value : MetadataValue}
    {target : Target} {l : Operand} {param : Param} {b b₁ : Bindings}
    (htarget : catalog.resolve key = .ok target)
    (hleft : (target.left key value).run b = .ok (l, b₁))
    (hparam : target.param value = .ok param) :
    (comparePredicate catalog op key value).run b =
      .ok (if op = .ne then
          .or (.isNull l) (.compare .ne l (.bound (b₁.toList.length + 1) param.cast))
        else .compare op l (.bound (b₁.toList.length + 1) param.cast),
        (b₁.push param.value).2) := by
  have hright : (target.right value).run b₁ =
      .ok (.bound (b₁.toList.length + 1) param.cast, (b₁.push param.value).2) := by
    rw [Target.right, Binder.run_bind (Binder.run_lift hparam b₁), bindParam_run]
  rw [comparePredicate, Binder.run_bind (Binder.run_lift htarget b), Binder.run_bind hleft,
    Binder.run_bind hright]
  rfl

/-- A list that succeeds and is not empty: the key is bound first, then the values in order. -/
theorem list_ok {catalog : Catalog} {negative : Bool} {key : String} {first : MetadataValue}
    {rest : List MetadataValue} {b b' : Bindings} {p : Predicate}
    (h : (listPredicate catalog negative key (first :: rest)).run b = .ok (p, b')) :
    ∃ target l b₁ params, catalog.resolve key = .ok target ∧
      (target.left key first).run b = .ok (l, b₁) ∧
      (∀ v ∈ first :: rest, v.isNumeric = first.isNumeric) ∧
      (first :: rest).mapM target.param = .ok params ∧
      b'.toList = b₁.toList ++ params.map (·.value) ∧
      p = if negative then
          .or (.isNull l) (.notIn l (Target.slots b₁.toList.length params))
        else .isIn l (Target.slots b₁.toList.length params) := by
  obtain ⟨target, b₀, hresolve, hlist⟩ := Binder.bind_ok h
  obtain ⟨l, b₁, hleft, hsides⟩ := Binder.bind_ok hlist
  obtain ⟨list, b₂, hright, hpure⟩ := Binder.bind_ok hsides
  obtain ⟨htarget, rfl⟩ := Binder.lift_ok hresolve
  obtain ⟨hsame, hrights⟩ := Target.rightList_ok hright
  obtain ⟨params, hparams, rfl, hvalues⟩ := Target.rights_ok hrights
  obtain ⟨rfl, rfl⟩ := Binder.pure_ok hpure
  exact ⟨target, l, b₁, params, htarget, hleft, hsame, hparams, hvalues, rfl⟩

/-- An empty list is decided without a look-up, and binds nothing. -/
theorem list_nil_run (catalog : Catalog) (negative : Bool) (key : String) (b : Bindings) :
    (listPredicate catalog negative key []).run b = .ok (.constant negative, b) := rfl

/-- A comparison only adds to what is bound. -/
theorem compare_extends {catalog : Catalog} {op : Comparison} {key : String}
    {value : MetadataValue} {b b' : Bindings} {p : Predicate}
    (h : (comparePredicate catalog op key value).run b = .ok (p, b')) : b.Extends b' := by
  obtain ⟨target, l, b₁, param, -, hleft, -, rfl, -⟩ := compare_ok h
  exact (Target.left_extends hleft).trans (b₁.extends_push _)

/-- So does a comparison with a list. -/
theorem list_extends {catalog : Catalog} {negative : Bool} {key : String}
    {values : List MetadataValue} {b b' : Bindings} {p : Predicate}
    (h : (listPredicate catalog negative key values).run b = .ok (p, b')) : b.Extends b' := by
  cases values with
  | nil =>
    rw [list_nil_run] at h
    cases h
    exact .refl b
  | cons first rest =>
    obtain ⟨target, l, b₁, params, -, hleft, -, -, hvalues, -⟩ := list_ok h
    refine (Target.left_extends hleft).trans ?_
    rw [Bindings.Extends, hvalues]
    exact List.prefix_append _ _

/-- The two sides of a connective are translated one after the other. -/
theorem and_ok {catalog : Catalog} {left right : Filter} {b b' : Bindings} {p : Predicate}
    (h : ((Filter.and left right).toPredicate catalog).run b = .ok (p, b')) :
    ∃ l b₁ r, (left.toPredicate catalog).run b = .ok (l, b₁) ∧
      (right.toPredicate catalog).run b₁ = .ok (r, b') ∧ p = .and l r := by
  obtain ⟨l, b₁, hl, hright⟩ := Binder.bind_ok h
  obtain ⟨r, b₂, hr, hpure⟩ := Binder.bind_ok hright
  obtain ⟨rfl, rfl⟩ := Binder.pure_ok hpure
  exact ⟨l, b₁, r, hl, hr, rfl⟩

/-- A disjunction is translated from left to right. -/
theorem or_ok {catalog : Catalog} {left right : Filter} {b b' : Bindings} {p : Predicate}
    (h : ((Filter.or left right).toPredicate catalog).run b = .ok (p, b')) :
    ∃ l b₁ r, (left.toPredicate catalog).run b = .ok (l, b₁) ∧
      (right.toPredicate catalog).run b₁ = .ok (r, b') ∧ p = .or l r := by
  obtain ⟨l, b₁, hl, hright⟩ := Binder.bind_ok h
  obtain ⟨r, b₂, hr, hpure⟩ := Binder.bind_ok hright
  obtain ⟨rfl, rfl⟩ := Binder.pure_ok hpure
  exact ⟨l, b₁, r, hl, hr, rfl⟩

/-- What is negated is made false first where it is null. -/
theorem not_ok {catalog : Catalog} {inner : Filter} {b b' : Bindings} {p : Predicate}
    (h : ((Filter.not inner).toPredicate catalog).run b = .ok (p, b')) :
    ∃ q, (inner.toPredicate catalog).run b = .ok (q, b') ∧ p = .not (.orFalse q) := by
  obtain ⟨q, b₁, hq, hpure⟩ := Binder.bind_ok h
  obtain ⟨rfl, rfl⟩ := Binder.pure_ok hpure
  exact ⟨q, hq, rfl⟩

/-- A translation keeps what was bound before it. -/
theorem toPredicate_extends {catalog : Catalog} {f : Filter} {b b' : Bindings} {p : Predicate}
    (h : (f.toPredicate catalog).run b = .ok (p, b')) : b.Extends b' := by
  induction f generalizing b b' p with
  | compare op key value => exact compare_extends h
  | isIn key values => exact list_extends h
  | notIn key values => exact list_extends h
  | and left right ihLeft ihRight =>
    -- The right side goes on where the left one has ended.
    obtain ⟨l, b₁, r, hl, hr, -⟩ := and_ok h
    exact (ihLeft hl).trans (ihRight hr)
  | or left right ihLeft ihRight =>
    obtain ⟨l, b₁, r, hl, hr, -⟩ := or_ok h
    exact (ihLeft hl).trans (ihRight hr)
  | not inner ih =>
    obtain ⟨q, hq, -⟩ := not_ok h
    exact ih hq

/-- What becomes of the filter that a search may have: a predicate, with its values bound. -/
inductive TranslatesTo (catalog : Catalog) :
    Option Filter → Bindings → Option Predicate → Bindings → Prop where
  | absent (b : Bindings) : TranslatesTo catalog none b none b
  | present {f : Filter} {b b' : Bindings} {p : Predicate}
      (h : (f.toPredicate catalog).run b = .ok (p, b')) :
      TranslatesTo catalog (some f) b (some p) b'

end Filter

end VectorTable
