import VectorTable.Proofs.Catalog
import VectorTable.Proofs.Filter.Binding
import VectorTable.Proofs.Metadata.Json

/-!
# VectorTable — filters that cannot be translated

A translation stops at the first condition on a key that makes no sense for the table. What makes
sense can be said of each condition by itself, and the connectives around it play no part: so a
filter is first flattened into its leaves, from left to right.

* `Filter.Leaf.WellFormed` — what is asked of a leaf;
* `Filter.Leaf.Reports` — what is reported of a leaf otherwise;
* `Filter.outcome_toPredicate` — a translation checks its leaves one after the other;
* `Filter.toPredicate_reports_first_fault` — the filters that are translated, and the faults of the
  others.
-/

namespace VectorTable

/-! ## Floats that JSON cannot hold -/

namespace MetadataValue

/-- The value is an infinite float or `nan`, and `x` is the double that it is widened to. -/
inductive Infinite : MetadataValue → Double → Prop where
  | float {x : Single} (h : x.isFinite = false) : Infinite (.float x) x.widen
  | double {x : Double} (h : x.isFinite = false) : Infinite (.double x) x

/-- A float that is not finite has no JSON. -/
theorem Infinite.toJson {value : MetadataValue} {x : Double} (h : value.Infinite x) :
    value.toJson = .error (.encoding (.notFinite x)) := by
  have hnumber {y : Double} (hy : y.isFinite = false) :
      finiteNumber y = .error (.encoding (.notFinite y)) :=
    dif_neg (by simp [hy])
  cases h with
  | float h => exact hnumber (by rw [Binary.isFinite_widen, h])
  | double h => exact hnumber h

/-- What is not finite is a float with a value that is not. -/
theorem exists_infinite {value : MetadataValue} (h : ¬ value.IsFinite) :
    ∃ x, value.Infinite x := by
  cases value with
  | float x => exact ⟨_, .float (Bool.eq_false_iff.mpr h)⟩
  | double x => exact ⟨_, .double (Bool.eq_false_iff.mpr h)⟩
  | string s => exact absurd trivial h
  | integer i => exact absurd trivial h
  | long i => exact absurd trivial h
  | uuid u => exact absurd trivial h

/-- Nothing but a float that is not finite lacks a JSON form. -/
theorem toJson_eq_error_iff {value : MetadataValue} {error : Error} :
    value.toJson = .error error ↔ ∃ x, value.Infinite x ∧ error = .encoding (.notFinite x) := by
  constructor
  · intro h
    have hnot : ¬ value.IsFinite := by
      rw [← toJson_ok_iff, h]
      rintro ⟨v, hv⟩
      cases hv
    obtain ⟨x, hx⟩ := exists_infinite hnot
    rw [hx.toJson] at h
    exact ⟨x, hx, (Except.error.inj h).symm⟩
  · rintro ⟨x, hx, rfl⟩
    exact hx.toJson

end MetadataValue

/-! ## Leaves -/

namespace Filter

/-- A condition on one key: the key, with the values that it is compared with. -/
structure Leaf where
  key : String
  values : List MetadataValue
deriving DecidableEq

/-- The conditions of a filter, from left to right. A comparison has a single value. -/
def leaves : Filter → List Leaf
  | .compare _ key value => [⟨key, [value]⟩]
  | .isIn key values | .notIn key values => [⟨key, values⟩]
  | .and left right | .or left right => left.leaves ++ right.leaves
  | .not inner => inner.leaves

namespace Leaf

section

variable (catalog : Catalog) (leaf : Leaf)

/-- The table has a place for the key, a column of its own or the JSON column. Without values there
is nothing to be looked up. -/
def Placed : Prop :=
  leaf.values = [] ∨ (∃ c ∈ catalog.metadata, c.name = leaf.key) ∨ catalog.overflow ≠ none

/-- Numbers are not mixed with other values. -/
def Uniform : Prop :=
  ¬ ((∃ v ∈ leaf.values, v.isNumeric = true) ∧ ∃ v ∈ leaf.values, v.isNumeric = false)

/-- What is compared with the JSON column has a JSON form. -/
def Comparable : Prop :=
  (∀ c ∈ catalog.metadata, c.name ≠ leaf.key) → ∀ v ∈ leaf.values, v.IsFinite

/-- A leaf that makes sense for a table. -/
structure WellFormed : Prop where
  placed : leaf.Placed catalog
  uniform : leaf.Uniform
  comparable : leaf.Comparable catalog

/-- What is reported of a leaf that is not well formed: that its key has no place, or else that its
values are mixed, or else the first of its values that JSON cannot hold. -/
inductive Reports : Error → Prop where
  | unplaced (h : ¬ leaf.Placed catalog) :
    Reports (.violation (.unknownKey leaf.key catalog.tableText))
  | mixed (hplaced : leaf.Placed catalog) (h : ¬ leaf.Uniform) :
    Reports (.violation (.mixedValues leaf.key))
  | infinite (hplaced : leaf.Placed catalog) (huniform : leaf.Uniform)
    (hkey : ∀ c ∈ catalog.metadata, c.name ≠ leaf.key) {before after : List MetadataValue}
    {v : MetadataValue} {x : Double} (hvalues : leaf.values = before ++ v :: after)
    (hbefore : ∀ w ∈ before, w.IsFinite) (h : v.Infinite x) :
    Reports (.encoding (.notFinite x))

instance : Decidable (leaf.Placed catalog) := inferInstanceAs (Decidable (_ ∨ _))

instance : Decidable leaf.Uniform := inferInstanceAs (Decidable (¬ _))

def checkPlaced : Except Error Unit :=
  if leaf.Placed catalog then .ok ()
  else .error (.violation (.unknownKey leaf.key catalog.tableText))

def checkUniform : Except Error Unit :=
  if leaf.Uniform then .ok () else .error (.violation (.mixedValues leaf.key))

/-- A column takes any value, and the JSON column takes what JSON can hold. -/
def checkValue (value : MetadataValue) : Except Error Unit :=
  if ∃ c ∈ catalog.metadata, c.name = leaf.key then .ok () else outcome value.toJson

/-- A leaf as a row of checks. -/
def check : Except Error Unit := do
  leaf.checkPlaced catalog
  leaf.checkUniform
  leaf.values.forM (leaf.checkValue catalog)

end

/-! ## The checks of a leaf -/

section

variable {catalog : Catalog} {leaf : Leaf} {error : Error} {value : MetadataValue}

/-- The first check of a leaf passes if its key has a place. -/
theorem checkPlaced_eq_ok_iff : leaf.checkPlaced catalog = .ok () ↔ leaf.Placed catalog := by
  unfold checkPlaced
  split <;> simp_all

/-- Otherwise the key is reported with the table that does not know it. -/
theorem checkPlaced_eq_error_iff : leaf.checkPlaced catalog = .error error ↔
    ¬ leaf.Placed catalog ∧ error = .violation (.unknownKey leaf.key catalog.tableText) := by
  unfold checkPlaced
  split <;> simp_all [eq_comm]

/-- The second check passes if the values are all numbers, or none of them is. -/
theorem checkUniform_eq_ok_iff : leaf.checkUniform = .ok () ↔ leaf.Uniform := by
  unfold checkUniform
  split <;> simp_all

/-- Otherwise the key of the mixed values is reported. -/
theorem checkUniform_eq_error_iff : leaf.checkUniform = .error error ↔
    ¬ leaf.Uniform ∧ error = .violation (.mixedValues leaf.key) := by
  unfold checkUniform
  split <;> simp_all [eq_comm]

/-- The last check passes for every value that is finite, and for all values of a key with a column.
-/
theorem checkValue_eq_ok_iff : leaf.checkValue catalog value = .ok () ↔
    ((∀ c ∈ catalog.metadata, c.name ≠ leaf.key) → value.IsFinite) := by
  unfold checkValue
  split
  · rename_i hcolumn
    obtain ⟨c, hc, hname⟩ := hcolumn
    exact iff_of_true rfl fun hnone => absurd hname (hnone c hc)
  · rename_i hcolumn
    push Not at hcolumn
    rw [outcome_eq_ok, MetadataValue.toJson_ok_iff]
    exact (imp_iff_right hcolumn).symm

/-- Otherwise the value that is not finite is reported. -/
theorem checkValue_eq_error_iff : leaf.checkValue catalog value = .error error ↔
    (∀ c ∈ catalog.metadata, c.name ≠ leaf.key) ∧
      ∃ x, value.Infinite x ∧ error = .encoding (.notFinite x) := by
  unfold checkValue
  split
  · rename_i hcolumn
    obtain ⟨c, hc, hname⟩ := hcolumn
    exact iff_of_false nofun fun h => h.1 c hc hname
  · rename_i hcolumn
    push Not at hcolumn
    rw [outcome_eq_error, MetadataValue.toJson_eq_error_iff]
    exact (and_iff_right hcolumn).symm

/-- Values are mixed where one is a number and another is not. -/
theorem uniform_iff : leaf.Uniform ↔
    ¬ (leaf.values.any (·.isNumeric) && leaf.values.any (!·.isNumeric)) = true := by
  simp [Uniform]

/-- The checks accept the leaves that are well formed. -/
theorem check_eq_ok_iff : leaf.check catalog = .ok () ↔ leaf.WellFormed catalog := by
  unfold check
  rw [check_bind_eq_ok, check_bind_eq_ok, checkPlaced_eq_ok_iff, checkUniform_eq_ok_iff,
    forM_eq_ok_iff]
  simp only [checkValue_eq_ok_iff]
  constructor
  · rintro ⟨hplaced, huniform, hvalues⟩
    exact ⟨hplaced, huniform, fun hkey v hv => hvalues v hv hkey⟩
  · intro h
    exact ⟨h.placed, h.uniform, fun v hv hkey => h.comparable hkey v hv⟩

/-- The checks report what there is to report. -/
theorem check_eq_error_iff : leaf.check catalog = .error error ↔ leaf.Reports catalog error := by
  unfold check
  constructor
  · intro h
    rcases bind_eq_error.mp h with hplaced | ⟨⟨⟩, hplaced, h⟩
    · obtain ⟨hnot, rfl⟩ := checkPlaced_eq_error_iff.mp hplaced
      exact .unplaced hnot
    have hplaced := checkPlaced_eq_ok_iff.mp hplaced
    rcases bind_eq_error.mp h with huniform | ⟨⟨⟩, huniform, hvalues⟩
    · obtain ⟨hnot, rfl⟩ := checkUniform_eq_error_iff.mp huniform
      exact .mixed hplaced hnot
    have huniform := checkUniform_eq_ok_iff.mp huniform
    -- The values before the one that is reported have passed.
    obtain ⟨before, v, after, hsplit, hbefore, hv⟩ := forM_eq_error_iff.mp hvalues
    obtain ⟨hkey, x, hx, rfl⟩ := checkValue_eq_error_iff.mp hv
    exact .infinite hplaced huniform hkey hsplit
      (fun w hw => checkValue_eq_ok_iff.mp (hbefore w hw) hkey) hx
  · intro h
    cases h with
    | unplaced hnot =>
      exact bind_eq_error.mpr (.inl (checkPlaced_eq_error_iff.mpr ⟨hnot, rfl⟩))
    | mixed hplaced hnot =>
      refine bind_eq_error.mpr (.inr ⟨(), checkPlaced_eq_ok_iff.mpr hplaced, ?_⟩)
      exact bind_eq_error.mpr (.inl (checkUniform_eq_error_iff.mpr ⟨hnot, rfl⟩))
    | infinite hplaced huniform hkey hvalues hbefore hx =>
      refine bind_eq_error.mpr (.inr ⟨(), checkPlaced_eq_ok_iff.mpr hplaced, ?_⟩)
      refine bind_eq_error.mpr (.inr ⟨(), checkUniform_eq_ok_iff.mpr huniform, ?_⟩)
      refine forM_eq_error_iff.mpr ⟨_, _, _, hvalues, fun w hw => ?_, ?_⟩
      · exact checkValue_eq_ok_iff.mpr fun _ => hbefore w hw
      · exact checkValue_eq_error_iff.mpr ⟨hkey, _, hx, rfl⟩

end

end Leaf

/-! ## A translation as a row of checks -/

section

variable {catalog : Catalog} {b : Bindings}

/-- The steps of a translation fail like checks made one after the other, whatever is bound on the
way. -/
theorem outcome_run_bind {α β : Type} {x : Binder α} {g : α → Binder β}
    {first rest : Except Error Unit} (hx : outcome (x.run b) = first)
    (hg : ∀ a b', x.run b = .ok (a, b') → outcome ((g a).run b') = rest) :
    outcome ((x >>= g).run b) = first >>= fun _ => rest := by
  rw [StateT.run_bind]
  exact outcome_bind hx fun (a, b') h => hg a b' h

/-- A first step that never fails makes no difference, -/
theorem outcome_run_ok_bind {α β : Type} {x : Binder α} {g : α → Binder β}
    {rest : Except Error Unit} (hx : outcome (x.run b) = .ok ())
    (hg : ∀ a b', x.run b = .ok (a, b') → outcome ((g a).run b') = rest) :
    outcome ((x >>= g).run b) = rest :=
  outcome_run_bind hx hg

/-- and neither does such a last step. -/
theorem outcome_run_bind_ok {α β : Type} {x : Binder α} {g : α → Binder β}
    (hg : ∀ a b', outcome ((g a).run b') = .ok ()) :
    outcome ((x >>= g).run b) = outcome (x.run b) :=
  (outcome_run_bind rfl fun a b' _ => hg a b').trans (bind_pure _)

/-- A computation without bindings fails as it does by itself. -/
theorem outcome_run_lift {α : Type} (x : Except Error α) (b : Bindings) :
    outcome ((liftM x : Binder α).run b) = outcome x := by
  cases x <;> rfl

/-- The left side of a comparison never fails. -/
theorem outcome_left (target : Target) (key : String) (value : MetadataValue) (b : Bindings) :
    outcome ((target.left key value).run b) = .ok () := by
  cases target with
  | column c => rfl
  | member json =>
    rw [Target.left_member_run]
    rfl

/-- A key is resolved if it has a place. -/
theorem outcome_resolve (leaf : Leaf) (h : leaf.values ≠ []) :
    outcome (catalog.resolve leaf.key) = leaf.checkPlaced catalog := by
  unfold Catalog.resolve Leaf.checkPlaced
  cases hcolumn : catalog.metadataColumn? leaf.key with
  | some c =>
    obtain ⟨hmem, hname⟩ := Catalog.metadataColumn?_eq_some hcolumn
    rw [if_pos (.inr (.inl ⟨c, hmem, hname⟩))]
    rfl
  | none =>
    have hnone := Catalog.metadataColumn?_eq_none_iff.mp hcolumn
    cases hoverflow : catalog.overflow with
    | some json =>
      rw [if_pos (.inr (.inr (by simp [hoverflow])))]
      rfl
    | none =>
      -- Neither a column nor the JSON column takes the key.
      rw [if_neg]
      · rfl
      · rintro (hnil | ⟨c, hc, hname⟩ | hjson)
        · exact h hnil
        · exact hnone c hc hname
        · exact hjson hoverflow

/-- The right side of a comparison fails where its value has no form for its place. -/
theorem outcome_right (leaf : Leaf) {target : Target} (h : catalog.resolve leaf.key = .ok target)
    (value : MetadataValue) (b : Bindings) :
    outcome ((target.right value).run b) = leaf.checkValue catalog value := by
  have hparam : outcome (target.param value) = leaf.checkValue catalog value := by
    unfold Leaf.checkValue
    obtain ⟨c, hc, rfl⟩ | ⟨hc, json, -, rfl⟩ := Catalog.resolve_cases h
    · obtain ⟨hmem, hname⟩ := Catalog.metadataColumn?_eq_some hc
      rw [if_pos ⟨c, hmem, hname⟩]
      rfl
    · have hnone := Catalog.metadataColumn?_eq_none_iff.mp hc
      rw [if_neg (by push Not; exact hnone)]
      -- Only numbers are bound by their JSON form, but all other values have one.
      cases value with
      | string s => rfl
      | uuid u => rfl
      | integer i => rfl
      | long i => rfl
      | float x => exact outcome_map (MetadataValue.float x).toJson _
      | double x => exact outcome_map (MetadataValue.double x).toJson _
  refine (outcome_run_bind_ok fun p b' => ?_).trans ((outcome_run_lift _ b).trans hparam)
  rw [bindParam_run]
  rfl

/-- The right sides of a list fail with the first value that has no JSON, if the key needs one. -/
theorem outcome_rights (leaf : Leaf) {target : Target} (h : catalog.resolve leaf.key = .ok target)
    (values : List MetadataValue) (b : Bindings) :
    outcome ((values.mapM target.right).run b) = values.forM (leaf.checkValue catalog) := by
  induction values generalizing b with
  | nil => rfl
  | cons value rest ih =>
    rw [List.mapM_cons]
    refine outcome_run_bind (outcome_right leaf h value b) fun o b₁ _ => ?_
    rw [← ih b₁]
    exact outcome_run_bind_ok fun _ _ => rfl

/-- A list is checked as a whole before any of its values is bound. -/
theorem outcome_rightList (leaf : Leaf) {target : Target}
    (h : catalog.resolve leaf.key = .ok target) (b : Bindings) :
    outcome ((target.rightList leaf.key leaf.values).run b) =
      leaf.checkUniform >>= fun _ => leaf.values.forM (leaf.checkValue catalog) := by
  unfold Target.rightList Leaf.checkUniform
  by_cases huniform : leaf.Uniform
  · rw [if_neg (Leaf.uniform_iff.mp huniform), if_pos huniform]
    exact outcome_rights leaf h leaf.values b
  · rw [if_pos (not_not.mp (mt Leaf.uniform_iff.mpr huniform)), if_neg huniform]
    rfl

/-- A comparison fails as the leaf of its key and value does. -/
theorem outcome_compare (op : Comparison) (key : String) (value : MetadataValue) (b : Bindings) :
    outcome ((comparePredicate catalog op key value).run b) =
      (Leaf.mk key [value]).check catalog := by
  have huniform : (Leaf.mk key [value]).checkUniform = .ok () :=
    Leaf.checkUniform_eq_ok_iff.mpr (by cases h : value.isNumeric <;> simp [Leaf.Uniform, h])
  unfold comparePredicate Leaf.check
  refine outcome_run_bind ?_ fun target b₁ htarget => ?_
  · rw [outcome_run_lift, ← outcome_resolve ⟨key, [value]⟩ (List.cons_ne_nil _ _)]
  obtain ⟨hresolve, rfl⟩ := Binder.lift_ok htarget
  -- The left side never fails, and the values of one comparison are not mixed.
  rw [huniform]
  refine outcome_run_ok_bind (outcome_left target key value b₁) fun left b₂ _ => ?_
  rw [outcome_run_bind_ok fun _ _ => rfl]
  exact (outcome_right ⟨key, [value]⟩ hresolve value b₂).trans (bind_pure _).symm

/-- A comparison with a list fails as the leaf of its key and values does. -/
theorem outcome_list (negative : Bool) (key : String) (values : List MetadataValue)
    (b : Bindings) :
    outcome ((listPredicate catalog negative key values).run b) =
      (Leaf.mk key values).check catalog := by
  cases values with
  | nil => rfl
  | cons first rest =>
    unfold listPredicate Leaf.check
    refine outcome_run_bind ?_ fun target b₁ htarget => ?_
    · rw [outcome_run_lift, ← outcome_resolve ⟨key, first :: rest⟩ (List.cons_ne_nil _ _)]
    obtain ⟨hresolve, rfl⟩ := Binder.lift_ok htarget
    -- Of the first value only the kind counts here, so that it binds without a fault.
    refine outcome_run_ok_bind (outcome_left target key first b₁) fun left b₂ _ => ?_
    rw [outcome_run_bind_ok fun _ _ => rfl]
    exact outcome_rightList ⟨key, first :: rest⟩ hresolve b₂

/-- **A translation is a row of checks**, one for each leaf, from left to right. -/
theorem outcome_toPredicate (f : Filter) (b : Bindings) :
    outcome ((f.toPredicate catalog).run b) = f.leaves.forM (·.check catalog) := by
  have hleaf (leaf : Leaf) : [leaf].forM (·.check catalog) = leaf.check catalog := bind_pure _
  induction f generalizing b with
  | compare op key value => exact (outcome_compare op key value b).trans (hleaf _).symm
  | isIn key values => exact (outcome_list false key values b).trans (hleaf _).symm
  | notIn key values => exact (outcome_list true key values b).trans (hleaf _).symm
  | and left right ihLeft ihRight =>
    rw [leaves, forM_append_eq]
    refine outcome_run_bind (ihLeft b) fun l b₁ _ => ?_
    -- What the left side has bound does not matter to the faults of the right one.
    exact (outcome_run_bind_ok fun _ _ => rfl).trans (ihRight b₁)
  | or left right ihLeft ihRight =>
    rw [leaves, forM_append_eq]
    refine outcome_run_bind (ihLeft b) fun l b₁ _ => ?_
    exact (outcome_run_bind_ok fun _ _ => rfl).trans (ihRight b₁)
  | not inner ih =>
    exact (outcome_run_bind_ok fun _ _ => rfl).trans (ih b)

end

/-- **Faults of filters.** A filter is translated exactly if all its leaves are well formed, and
otherwise the leftmost one that is not decides what is reported. An empty list needs no place for
its key and is decided at once. -/
theorem toPredicate_reports_first_fault (catalog : Catalog) (f : Filter) (b : Bindings) :
    ((∃ p b', (f.toPredicate catalog).run b = .ok (p, b')) ↔
      ∀ leaf ∈ f.leaves, leaf.WellFormed catalog) ∧
    (∀ error, (f.toPredicate catalog).run b = .error error ↔
      ∃ before leaf after, f.leaves = before ++ leaf :: after ∧
        (∀ l ∈ before, l.WellFormed catalog) ∧ leaf.Reports catalog error) ∧
    ∀ key, ((Filter.isIn key []).toPredicate catalog).run b = .ok (.constant false, b) ∧
      ((Filter.notIn key []).toPredicate catalog).run b = .ok (.constant true, b) := by
  have hchecks : outcome ((f.toPredicate catalog).run b) = f.leaves.forM (·.check catalog) :=
    outcome_toPredicate f b
  refine ⟨?_, fun error => ?_, fun key => ⟨rfl, rfl⟩⟩
  · rw [← Prod.exists (p := fun r => (f.toPredicate catalog).run b = .ok r), ← outcome_eq_ok,
      hchecks, forM_eq_ok_iff]
    simp only [Leaf.check_eq_ok_iff]
  · -- The first check that fails is that of the first leaf that is not well-formed.
    rw [← outcome_eq_error, hchecks, forM_eq_error_iff]
    simp only [Leaf.check_eq_ok_iff, Leaf.check_eq_error_iff]

/-- Of three conditions on notes the second one mixes tags with numbers. That the third one asks for
a score that is not a number is not reported any more. -/
theorem toPredicate_reports_first_fault_mixed_tags :
    let f : Filter := .and (.compare .ge "page" (.integer 1))
      (.or (.not (.isIn "tag" [.string "a", .integer 1])) (.compare .eq "score" (.double .nan)))
    (f.toPredicate .notes).run .empty = .error (.violation (.mixedValues "tag")) := by
  intro f
  obtain ⟨-, hreports, -⟩ := toPredicate_reports_first_fault .notes f .empty
  refine (hreports _).mpr ⟨[⟨"page", [.integer 1]⟩], ⟨"tag", [.string "a", .integer 1]⟩,
    [⟨"score", [.double .nan]⟩], rfl, ?_, .mixed (by decide) (by decide)⟩
  refine List.forall_mem_singleton.mpr ⟨by decide, by decide, fun hkey => ?_⟩
  exact absurd rfl (hkey ⟨"page", "integer", "int4", -1⟩ (by decide))

end Filter

end VectorTable
