import VectorTable.Proofs.Except
import VectorTable.Proofs.Filter.Binding
import VectorTable.Proofs.Metadata.Kind
import VectorTable.Proofs.Sql.Related

/-!
# VectorTable — the shape of a filter

Filters of the same shape ask for the same comparisons, with other values and perhaps other keys.
Their translations are then the same, step by step: the same look-ups, the same slots and the same
casts. Only the values that are bound can differ, and these are not in the text.

* `Filter.Alike` — filters of the same shape;
* `Filter.toPredicate_related` — their predicates, over tables that differ in names.
-/

namespace VectorTable

/-- Filters of the same shape, whose keys are related: the same connectives and comparisons, with
values of the same kinds. -/
inductive Filter.Alike (K : String → String → Prop) : Filter → Filter → Prop where
  | compare (op : Comparison) {key key' : String} {value value' : MetadataValue}
      (hkey : K key key') (hkind : value.kind = value'.kind) :
      Alike K (.compare op key value) (.compare op key' value')
  | isIn {key key' : String} {values values' : List MetadataValue} (hkey : K key key')
      (hkinds : values.map MetadataValue.kind = values'.map MetadataValue.kind) :
      Alike K (.isIn key values) (.isIn key' values')
  | notIn {key key' : String} {values values' : List MetadataValue} (hkey : K key key')
      (hkinds : values.map MetadataValue.kind = values'.map MetadataValue.kind) :
      Alike K (.notIn key values) (.notIn key' values')
  | and {left left' right right' : Filter} (hleft : Alike K left left')
      (hright : Alike K right right') : Alike K (.and left right) (.and left' right')
  | or {left left' right right' : Filter} (hleft : Alike K left left')
      (hright : Alike K right right') : Alike K (.or left right) (.or left' right')
  | not {inner inner' : Filter} (hinner : Alike K inner inner') :
      Alike K (.not inner) (.not inner')

variable {N K : String → String → Prop} {catalog catalog' : Catalog}

/-- The keys have columns that are alike, or neither of them has one. -/
def Catalog.SameColumns (N K : String → String → Prop) (catalog catalog' : Catalog) : Prop :=
  ∀ key key', K key key' →
    Option.Rel (Column.Alike N) (catalog.metadataColumn? key) (catalog'.metadataColumn? key')

/-! ## Look-ups -/

/-- The same place to look in, but for names. -/
inductive Target.Alike (N : String → String → Prop) : Target → Target → Prop where
  | column {c c' : Column} (h : c.Alike N c') : Alike N (.column c) (.column c')
  | member {json json' : String} (h : N json json') : Alike N (.member json) (.member json')

section

variable {key key' : String} {value value' : MetadataValue} {target target' : Target}
  {b b₁ b' b₁' : Bindings}

/-- Keys that both tables treat alike are resolved alike. -/
theorem Catalog.resolve_alike (hcatalog : catalog.Alike N (Column.Alike N) catalog')
    (hkey : Option.Rel (Column.Alike N) (catalog.metadataColumn? key)
      (catalog'.metadataColumn? key'))
    (h : catalog.resolve key = .ok target) (h' : catalog'.resolve key' = .ok target') :
    target.Alike N target' := by
  -- One key with a column and the other without would contradict what relates the two.
  obtain ⟨c, hc, rfl⟩ | ⟨hc, json, hjson, rfl⟩ := Catalog.resolve_cases h
  all_goals
    obtain ⟨c', hc', rfl⟩ | ⟨hc', json', hjson', rfl⟩ := Catalog.resolve_cases h'
    all_goals rw [hc, hc'] at hkey
  · cases hkey with
    | some hcolumn => exact .column hcolumn
  · cases hkey
  · cases hkey
  · have hoverflow := hcatalog.overflow
    rw [hjson, hjson'] at hoverflow
    cases hoverflow with
    | some hcolumn => exact .member hcolumn.name

/-- The left sides of two comparisons have related texts, and take equally many slots. -/
theorem Target.left_related (htarget : target.Alike N target') (hkind : value.kind = value'.kind)
    (hlength : b.toList.length = b'.toList.length) {o o' : Operand}
    (h : (target.left key value).run b = .ok (o, b₁))
    (h' : (target'.left key' value').run b' = .ok (o', b₁')) :
    Sql.Related N o.sql o'.sql ∧ b₁.toList.length = b₁'.toList.length := by
  cases htarget with
  | column hcolumn =>
    rw [left_column_run] at h h'
    cases h
    cases h'
    exact ⟨.name hcolumn.name .nil, hlength⟩
  | member hjson =>
    rw [left_member_run] at h h'
    cases h
    cases h'
    rw [MetadataValue.isNumeric_congr hkind, hlength]
    refine ⟨?_, by simpa using hlength⟩
    -- the look-up of a number has the name and the slot of the key in it twice
    split
    · exact .text _ (.name hjson (.text _ (.slot _ (.text _ (.name hjson (.text _ (.slot _
        (.text _ .nil))))))))
    · exact .text _ (.name hjson (.text _ (.slot _ (.text _ .nil))))

/-- Values of one kind are bound alike: with a cast, or without. -/
theorem Column.param_alike {c c' : Column} (h : c.Alike N c') {value value' : Option MetadataValue}
    (hkind : value.map MetadataValue.kind = value'.map MetadataValue.kind) :
    (c.param value).Alike N (c'.param value') := by
  rw [Param.Alike, Column.cast_param, Column.cast_param, h.kind, hkind]
  split
  · exact .some h.typeName
  · exact .none

/-- Values of the same kind are cast alike. -/
theorem Target.param_alike (hnumeric : N "numeric" "numeric") (htarget : target.Alike N target')
    (hkind : value.kind = value'.kind) {p p' : Param} (h : target.param value = .ok p)
    (h' : target'.param value' = .ok p') : p.Alike N p' := by
  cases htarget with
  | column hcolumn =>
    cases h
    cases h'
    exact Column.param_alike hcolumn (congrArg some hkind)
  | member hjson =>
    simp only [Target.param, MetadataValue.isNumeric_congr hkind] at h h'
    split at h
    case isTrue hnumber =>
      rw [if_pos hnumber] at h'
      obtain ⟨json, -, hp⟩ := bind_eq_ok.mp h
      obtain ⟨json', -, hp'⟩ := bind_eq_ok.mp h'
      -- Numbers are both cast, whatever their texts are.
      cases hp
      cases hp'
      exact .some hnumeric
    case isFalse hnumber =>
      rw [if_neg hnumber] at h'
      cases h
      cases h'
      exact .none

/-- The same for a list of them. -/
theorem Target.params_alike (hnumeric : N "numeric" "numeric") (htarget : target.Alike N target')
    {values values' : List MetadataValue} {params params' : List Param}
    (hkinds : values.map MetadataValue.kind = values'.map MetadataValue.kind)
    (h : values.mapM target.param = .ok params) (h' : values'.mapM target'.param = .ok params') :
    List.Forall₂ (Param.Alike N) params params' := by
  rw [mapM_eq_ok_iff] at h h'
  induction h generalizing values' params' with
  | nil =>
    rw [List.map_nil, eq_comm, List.map_eq_nil_iff] at hkinds
    subst hkinds
    cases h'
    exact .nil
  | cons hp _ ih =>
    cases h' with
    | nil => cases hkinds
    | cons hp' hrest' =>
      obtain ⟨hkind, hkinds⟩ := List.cons.inj hkinds
      exact .cons (param_alike hnumeric htarget hkind hp hp') (ih hkinds hrest')

end

/-! ## Predicates -/

namespace Filter

variable {b b₁ b' b₁' : Bindings} {p p' : Predicate}

section

variable (hcatalog : catalog.Alike N (Column.Alike N) catalog') (hnumeric : N "numeric" "numeric")
  {key key' : String} (hkey : Option.Rel (Column.Alike N) (catalog.metadataColumn? key)
    (catalog'.metadataColumn? key')) (hlength : b.toList.length = b'.toList.length)

include hcatalog hnumeric hkey hlength

/-- Comparisons with values of one kind have related texts. -/
theorem compare_related {op : Comparison} {value value' : MetadataValue}
    (hkind : value.kind = value'.kind)
    (h : (comparePredicate catalog op key value).run b = .ok (p, b₁))
    (h' : (comparePredicate catalog' op key' value').run b' = .ok (p', b₁')) :
    Sql.Related N p.sql p'.sql ∧ b₁.toList.length = b₁'.toList.length := by
  obtain ⟨target, l, c, param, htarget, hleft, hparam, rfl, rfl⟩ := compare_ok h
  obtain ⟨target', l', c', param', htarget', hleft', hparam', rfl, rfl⟩ := compare_ok h'
  have halike := Catalog.resolve_alike hcatalog hkey htarget htarget'
  obtain ⟨hlookup, hsame⟩ := Target.left_related halike hkind hlength hleft hleft'
  have hright := Target.param_alike hnumeric halike hkind hparam hparam'
  have hcompare (op : Comparison) : Sql.Related N
      (Predicate.compare op l (.bound (c.toList.length + 1) param.cast)).sql
      (Predicate.compare op l' (.bound (c'.toList.length + 1) param'.cast)).sql := by
    -- Equally much is bound on the left, so that the value goes into the same slot.
    rw [hsame]
    exact (hlookup.append (.text _ (.text _ (.text _ .nil)))).append (.placeholder _ hright)
  refine ⟨?_, by simpa using hsame⟩
  split
  · exact (((Sql.Related.text "(" .nil).append (hlookup.append (.text _ .nil))).append
      (.text _ .nil)).append (hcompare .ne) |>.append (.text _ .nil)
  · exact hcompare op

/-- Comparisons with lists of the same kinds have related texts. -/
theorem list_related {negative : Bool} {values values' : List MetadataValue}
    (hkinds : values.map MetadataValue.kind = values'.map MetadataValue.kind)
    (h : (listPredicate catalog negative key values).run b = .ok (p, b₁))
    (h' : (listPredicate catalog' negative key' values').run b' = .ok (p', b₁')) :
    Sql.Related N p.sql p'.sql ∧ b₁.toList.length = b₁'.toList.length := by
  cases values with
  | nil =>
    -- An empty list is decided at once; the other one is empty too.
    rw [List.map_nil, eq_comm, List.map_eq_nil_iff] at hkinds
    subst hkinds
    cases h
    cases h'
    exact ⟨.text _ .nil, hlength⟩
  | cons first rest =>
    cases values' with
    | nil => cases hkinds
    | cons first' rest' =>
      obtain ⟨target, l, c, params, htarget, hleft, -, hparams, hbound, rfl⟩ := list_ok h
      obtain ⟨target', l', c', params', htarget', hleft', -, hparams', hbound', rfl⟩ := list_ok h'
      have halike := Catalog.resolve_alike hcatalog hkey htarget htarget'
      obtain ⟨hlookup, hsame⟩ :=
        Target.left_related halike (List.cons.inj hkinds).1 hlength hleft hleft'
      have hlist := Target.params_alike hnumeric halike hkinds hparams hparams'
      have hslots := Sql.Related.commas (Target.slots_related c.toList.length hlist)
      have hmembers (text : String) : Sql.Related N
          (l.sql ++ [.text text] ++
            Sql.commas ((Target.slots c.toList.length params).map Operand.sql) ++ [.text ")"])
          (l'.sql ++ [.text text] ++
            Sql.commas ((Target.slots c.toList.length params').map Operand.sql) ++ [.text ")"]) :=
        ((hlookup.append (.text _ .nil)).append hslots).append (.text _ .nil)
      refine ⟨?_, by simp [hbound, hbound', hsame, hlist.length_eq]⟩
      rw [← hsame]
      cases negative with
      | false => exact hmembers " IN ("
      | true =>
        exact (((Sql.Related.text "(" .nil).append (hlookup.append (.text _ .nil))).append
          (.text _ .nil)).append (hmembers " NOT IN (") |>.append (.text _ .nil)

end

/-- **Two translations.** Filters of the same shape, over tables that differ in names, become
predicates that differ in names, and bind equally many values. -/
theorem toPredicate_related {f f' : Filter} (hfilter : f.Alike K f')
    (hcatalog : catalog.Alike N (Column.Alike N) catalog') (hnumeric : N "numeric" "numeric")
    (hkeys : catalog.SameColumns N K catalog') (hlength : b.toList.length = b'.toList.length)
    (h : (f.toPredicate catalog).run b = .ok (p, b₁))
    (h' : (f'.toPredicate catalog').run b' = .ok (p', b₁')) :
    Sql.Related N p.sql p'.sql ∧ b₁.toList.length = b₁'.toList.length := by
  -- Slots are numbered by what has been bound, so equal lengths go with the induction from the
  -- left side of a connective to the right.
  induction hfilter generalizing b b₁ b' b₁' p p' with
  | compare op hkey hkind =>
    exact compare_related hcatalog hnumeric (hkeys _ _ hkey) hlength hkind h h'
  | isIn hkey hkinds =>
    exact list_related hcatalog hnumeric (hkeys _ _ hkey) hlength hkinds h h'
  | notIn hkey hkinds =>
    exact list_related hcatalog hnumeric (hkeys _ _ hkey) hlength hkinds h h'
  | and _ _ ihLeft ihRight =>
    obtain ⟨l, c, r, hl, hr, rfl⟩ := and_ok h
    obtain ⟨l', c', r', hl', hr', rfl⟩ := and_ok h'
    obtain ⟨hleft, hsame⟩ := ihLeft hlength hl hl'
    obtain ⟨hright, hboth⟩ := ihRight hsame hr hr'
    exact ⟨((((Sql.Related.text "(" .nil).append hleft).append (.text _ .nil)).append
      hright).append (.text _ .nil), hboth⟩
  | or _ _ ihLeft ihRight =>
    obtain ⟨l, c, r, hl, hr, rfl⟩ := or_ok h
    obtain ⟨l', c', r', hl', hr', rfl⟩ := or_ok h'
    obtain ⟨hleft, hsame⟩ := ihLeft hlength hl hl'
    obtain ⟨hright, hboth⟩ := ihRight hsame hr hr'
    exact ⟨((((Sql.Related.text "(" .nil).append hleft).append (.text _ .nil)).append
      hright).append (.text _ .nil), hboth⟩
  | not _ ih =>
    obtain ⟨q, hq, rfl⟩ := not_ok h
    obtain ⟨q', hq', rfl⟩ := not_ok h'
    obtain ⟨hinner, hsame⟩ := ih hlength hq hq'
    have hcoalesce := ((Sql.Related.text "COALESCE(" .nil).append hinner).append
      (.text ", FALSE)" .nil)
    exact ⟨((Sql.Related.text "(NOT " .nil).append hcoalesce).append (.text _ .nil), hsame⟩

/-- The same where there may be no filter. -/
theorem TranslatesTo.related {filter filter' : Option Filter}
    {predicate predicate' : Option Predicate} (h : TranslatesTo catalog filter b predicate b₁)
    (hfilter : Option.Rel (Filter.Alike K) filter filter')
    (hcatalog : catalog.Alike N (Column.Alike N) catalog') (hnumeric : N "numeric" "numeric")
    (hkeys : catalog.SameColumns N K catalog') (hlength : b.toList.length = b'.toList.length)
    (h' : TranslatesTo catalog' filter' b' predicate' b₁') :
    Option.Rel (fun p p' => Sql.Related N p.sql p'.sql) predicate predicate' ∧
      b₁.toList.length = b₁'.toList.length := by
  cases hfilter with
  | none =>
    cases h
    cases h'
    exact ⟨.none, hlength⟩
  | some halike =>
    cases h with
    | present h =>
      cases h' with
      | present h' =>
        obtain ⟨hpredicate, hsame⟩ :=
          toPredicate_related halike hcatalog hnumeric hkeys hlength h h'
        exact ⟨.some hpredicate, hsame⟩

end Filter

end VectorTable
