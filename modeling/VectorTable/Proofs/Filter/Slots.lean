import VectorTable.Proofs.Filter.Translation
import VectorTable.Proofs.Sql.StatementText

/-!
# VectorTable — slots and their values

A translation numbers its slots as it binds values, and the text it makes is read by someone who
has only the numbers. So the numbers must be right in two ways: they are those of the new values,
all of them and no others, and each stands where its value is meant to be.

* `Sql.Covers` — numbers that run through a range, from left to right;
* `Filter.StatedBy` — an expression states a filter, given the values in its slots;
* `Filter.Translated` — both, of the text of a predicate;
* `Filter.Condition` — the same for the condition of a search, which may be missing.
-/

namespace VectorTable

/-! ## Numbers in order -/

/-- The numbers behind `start` up to `stop`, each at least once, in their order. -/
structure Sql.Covers (start stop : Nat) (slots : List Nat) : Prop where
  le : start ≤ stop
  sorted : slots.Pairwise (· ≤ ·)
  mem (n : Nat) : n ∈ slots ↔ start < n ∧ n ≤ stop

namespace Sql.Covers

theorem nil (n : Nat) : Covers n n [] where
  le := Nat.le_refl n
  sorted := .nil
  mem m := iff_of_false List.not_mem_nil (by omega)

/-- One number, any number of times. -/
theorem replicate (start : Nat) {count : Nat} (h : count ≠ 0) :
    Covers start (start + 1) (List.replicate count (start + 1)) where
  le := Nat.le_succ start
  sorted := List.pairwise_replicate_of_refl
  mem n := by
    rw [List.mem_replicate]
    constructor
    · rintro ⟨-, rfl⟩
      exact ⟨Nat.lt_succ_self start, Nat.le_refl _⟩
    · rintro ⟨hlt, hle⟩
      exact ⟨h, by omega⟩

/-- Slots that go on where others end cover what both cover. -/
theorem append {a b c : Nat} {l m : List Nat} (hl : Covers a b l) (hm : Covers b c m) :
    Covers a c (l ++ m) where
  le := Nat.le_trans hl.le hm.le
  sorted := by
    -- Nothing on the left is above `b`, and everything on the right is.
    refine List.pairwise_append.mpr ⟨hl.sorted, hm.sorted, fun i hi j hj => ?_⟩
    have hleft := ((hl.mem i).mp hi).2
    have hright := ((hm.mem j).mp hj).1
    omega
  mem n := by
    have hb := hl.le
    have hc := hm.le
    rw [List.mem_append, hl.mem, hm.mem]
    omega

theorem range' (start count : Nat) : Covers start (start + count) (List.range' (start + 1) count)
    where
  le := Nat.le_add_right _ _
  sorted := List.pairwise_le_range'
  mem n := by
    rw [List.mem_range'_1]
    omega

end Sql.Covers

/-! ## What an expression states -/

section Stated

variable (catalog : Catalog) (values : List SqlValue) (key : String) (value : MetadataValue)

/-- The expression finds what a row has under a key, to be compared with a value: the key's column
or, for a key without one, the member of the JSON column whose key is in a slot. -/
inductive Sql.Expression.LooksUp : Expression → Prop where
  | column {c : Column} (hkey : catalog.metadataColumn? key = some c) : LooksUp (.column c.name)
  | member {json : Column} {n : Nat} (hkey : catalog.metadataColumn? key = none)
      (hjson : catalog.overflow = some json) (hslot : values[n]? = some (.text (some key))) :
      LooksUp (if value.isNumeric then Operand.memberNumber json.name (n + 1)
        else Operand.memberText json.name (n + 1)).expression

/-- The parameter that a value is for a key: that of the key's column or, for a key without one,
the text of the number in JSON, or the plain text. -/
inductive MetadataValue.EncodedAs : Param → Prop where
  | column {c : Column} (hkey : catalog.metadataColumn? key = some c) :
      EncodedAs (c.param (some value))
  | number {json : Json} (hkey : catalog.metadataColumn? key = none)
      (hnumeric : value.isNumeric = true) (hjson : value.toJson = .ok json) :
      EncodedAs (.casted (.text (some json.render)) "numeric")
  | text (hkey : catalog.metadataColumn? key = none) (hnumeric : value.isNumeric = false) :
      EncodedAs (.plain (.text (some value.toText)))

/-- The expression is a slot, with the parameter in it that a value is for a key. -/
inductive Sql.Expression.Gives : Expression → Prop where
  | slot {p : Param} {n : Nat} (hparam : value.EncodedAs catalog key p)
      (hslot : values[n]? = some p.value) : Gives (Operand.bound (n + 1) p.cast).expression

end Stated

/-- The expression states the filter when the values are in its slots. A negative condition also
holds where the look-up has no result, and an empty list is decided without one. -/
def Filter.StatedBy (catalog : Catalog) (values : List SqlValue) :
    Filter → Sql.Expression → Prop
  | .compare op key value, e => ∃ l r, l.LooksUp catalog values key value ∧
      r.Gives catalog values key value ∧
      e = if op = .ne then .or (.isNull l) (.compare .ne l r) else .compare op l r
  | .isIn _ [], e => e = .truth false
  | .isIn key (first :: rest), e => ∃ l list, l.LooksUp catalog values key first ∧
      List.Forall₂ (fun r value => r.Gives catalog values key value) list (first :: rest) ∧
      e = .isIn l list
  | .notIn _ [], e => e = .truth true
  | .notIn key (first :: rest), e => ∃ l list, l.LooksUp catalog values key first ∧
      List.Forall₂ (fun r value => r.Gives catalog values key value) list (first :: rest) ∧
      e = .or (.isNull l) (.notIn l list)
  | .and left right, e => ∃ l r, left.StatedBy catalog values l ∧
      right.StatedBy catalog values r ∧ e = .and l r
  | .or left right, e => ∃ l r, left.StatedBy catalog values l ∧
      right.StatedBy catalog values r ∧ e = .or l r
  | .not inner, e => ∃ i, inner.StatedBy catalog values i ∧ e = .not (.coalesce [i, .truth false])

/-! ## Sides of a comparison -/

section Sides

variable {catalog : Catalog} {key : String} {value : MetadataValue} {target : Target}
  {b b' : Bindings} {o : Operand} {values : List SqlValue}

/-- The left side of a comparison looks the key up where the table keeps it. -/
theorem Target.left_looksUp (htarget : catalog.resolve key = .ok target)
    (h : (target.left key value).run b = .ok (o, b')) (hvalues : b'.toList <+: values) :
    o.expression.LooksUp catalog values key value := by
  obtain ⟨c, hc, rfl⟩ | ⟨hc, json, hjson, rfl⟩ := Catalog.resolve_cases htarget
  · rw [Target.left_column_run] at h
    cases h
    exact .column hc
  · rw [Target.left_member_run] at h
    cases h
    refine .member hc hjson ?_
    obtain ⟨more, rfl⟩ := hvalues
    simp

/-- A look-up has the number of the next value in it, once or twice, if it binds the key. -/
theorem Target.slots_left (htarget : catalog.resolve key = .ok target)
    (h : (target.left key value).run b = .ok (o, b')) :
    (o.sql.slots = [] ∧ b' = b) ∨
      ∃ count, count ≠ 0 ∧ o.sql.slots = List.replicate count (b.toList.length + 1) ∧
        b'.toList.length = b.toList.length + 1 := by
  obtain ⟨c, hc, rfl⟩ | ⟨hc, json, hjson, rfl⟩ := Catalog.resolve_cases htarget
  · rw [Target.left_column_run] at h
    cases h
    exact .inl ⟨rfl, rfl⟩
  · rw [Target.left_member_run] at h
    cases h
    rw [Bindings.toList_push, List.length_append, List.length_singleton]
    -- The condition on the kind of the member reads the key a second time.
    cases value.isNumeric with
    | true => exact .inr ⟨2, by decide, rfl, rfl⟩
    | false => exact .inr ⟨1, by decide, rfl, rfl⟩

/-- So the numbers are covered, however often the look-up is written. -/
theorem Target.covers_left (htarget : catalog.resolve key = .ok target)
    (h : (target.left key value).run b = .ok (o, b')) :
    Sql.Covers b.toList.length b'.toList.length o.sql.slots ∧
      Sql.Covers b.toList.length b'.toList.length (o.sql.slots ++ o.sql.slots) := by
  obtain ⟨hslots, rfl⟩ | ⟨count, hcount, hslots, hlength⟩ := Target.slots_left htarget h
  · rw [hslots]
    exact ⟨.nil _, .nil _⟩
  · rw [hslots, hlength, List.replicate_append_replicate]
    exact ⟨.replicate _ hcount, .replicate _ (by omega)⟩

/-- What is bound for a value is its encoding for the place of the key. -/
theorem Target.param_encodedAs (htarget : catalog.resolve key = .ok target) {p : Param}
    (h : target.param value = .ok p) : value.EncodedAs catalog key p := by
  obtain ⟨c, hc, rfl⟩ | ⟨hc, json, hjson, rfl⟩ := Catalog.resolve_cases htarget
  · cases h
    exact .column hc
  · -- Without a column the kind of the value decides between the two forms.
    unfold Target.param at h
    cases hnumeric : value.isNumeric with
    | true =>
      simp only [hnumeric, if_true] at h
      obtain ⟨v, hv, hp⟩ := bind_eq_ok.mp h
      cases hp
      exact .number hc hnumeric hv
    | false =>
      simp only [hnumeric, Bool.false_eq_true, if_false] at h
      cases h
      exact .text hc hnumeric

/-- The next slot gives the value that is bound to it. -/
theorem Target.gives_bound (htarget : catalog.resolve key = .ok target) {p : Param}
    (hparam : target.param value = .ok p) (hvalues : (b.push p.value).2.toList <+: values) :
    (Operand.bound (b.toList.length + 1) p.cast).expression.Gives catalog values key value := by
  refine .slot (Target.param_encodedAs htarget hparam) ?_
  obtain ⟨more, rfl⟩ := hvalues
  simp

/-- The slots of a list give its values in their order. -/
theorem Target.gives_slots (htarget : catalog.resolve key = .ok target)
    {list : List MetadataValue} {params : List Param}
    (hparams : list.mapM target.param = .ok params)
    {start : List SqlValue} (hvalues : start ++ params.map (·.value) <+: values) :
    List.Forall₂ (fun r value => r.Gives catalog values key value)
      ((Target.slots start.length params).map Operand.expression) list := by
  rw [mapM_eq_ok_iff] at hparams
  -- By induction on the list: its first value is in the slot behind `start`.
  induction hparams generalizing start with
  | nil => exact .nil
  | @cons v p vs ps hp _ ih =>
    have hstep : start ++ (p :: ps).map (·.value) = (start ++ [p.value]) ++ ps.map (·.value) := by
      simp
    rw [hstep] at hvalues
    have hrest := ih hvalues
    rw [List.length_append, List.length_singleton] at hrest
    rw [Target.slots_cons]
    refine .cons (.slot (Target.param_encodedAs htarget hp) ?_) hrest
    obtain ⟨more, rfl⟩ := List.IsPrefix.trans (List.prefix_append _ _) hvalues
    simp

/-- The parameters of a list take slots one after the other, each once. -/
theorem Target.slots_slots (start : Nat) (params : List Param) :
    ((Target.slots start params).map Operand.sql).flatMap Sql.slots =
      List.range' (start + 1) params.length := by
  have hslot (p : Param × Nat) :
      (Operand.bound p.2 p.1.cast).sql.slots = [p.2] := Sql.slots_placeholder p.2 p.1.cast
  rw [Target.slots, List.map_map, List.flatMap_map]
  simp only [Function.comp_def, hslot]
  rw [← List.map_eq_flatMap, List.zipIdx_map_snd]

end Sides

/-! ## Predicates -/

namespace Filter

variable {catalog : Catalog} {f : Filter} {b b' : Bindings} {p : Predicate}
  {values : List SqlValue}

/-- A comparison is stated by its expression, with the values in the slots. -/
theorem compare_statedBy {op : Comparison} {key : String} {value : MetadataValue}
    (h : (comparePredicate catalog op key value).run b = .ok (p, b'))
    (hvalues : b'.toList <+: values) :
    (Filter.compare op key value).StatedBy catalog values p.expression := by
  obtain ⟨target, l, b₁, param, htarget, hleft, hparam, rfl, rfl⟩ := compare_ok h
  have hbefore := List.IsPrefix.trans (b₁.extends_push param.value) hvalues
  refine ⟨l.expression, _, Target.left_looksUp htarget hleft hbefore,
    Target.gives_bound htarget hparam hvalues, ?_⟩
  split <;> rfl

/-- A list that is not empty states its filter, whether it is negated or not. -/
theorem list_stated {negative : Bool} {key : String} {first : MetadataValue}
    {rest : List MetadataValue}
    (h : (listPredicate catalog negative key (first :: rest)).run b = .ok (p, b'))
    (hvalues : b'.toList <+: values) :
    ∃ l list, l.LooksUp catalog values key first ∧
      List.Forall₂ (fun r value => r.Gives catalog values key value) list (first :: rest) ∧
      p.expression = if negative then .or (.isNull l) (.notIn l list) else .isIn l list := by
  obtain ⟨target, l, b₁, params, htarget, hleft, -, hparams, hbound, rfl⟩ := list_ok h
  rw [hbound] at hvalues
  have hbefore := List.IsPrefix.trans (List.prefix_append _ _) hvalues
  refine ⟨l.expression, _, Target.left_looksUp htarget hleft hbefore,
    Target.gives_slots htarget hparams hvalues, ?_⟩
  cases negative <;> rfl

/-- The predicate of a filter states it. -/
theorem toPredicate_statedBy (h : (f.toPredicate catalog).run b = .ok (p, b'))
    (hvalues : b'.toList <+: values) : f.StatedBy catalog values p.expression := by
  -- The left side of a connective is translated before the right side binds its values, but it
  -- keeps its slots: so the induction is for all values that what is bound is a prefix of.
  induction f generalizing b b' p with
  | compare op key value => exact compare_statedBy h hvalues
  | isIn key list =>
    cases list with
    | nil => cases h; rfl
    | cons first rest => exact list_stated h hvalues
  | notIn key list =>
    cases list with
    | nil => cases h; rfl
    | cons first rest => exact list_stated h hvalues
  | and left right ihLeft ihRight =>
    obtain ⟨l, b₁, r, hl, hr, rfl⟩ := and_ok h
    exact ⟨_, _, ihLeft hl (List.IsPrefix.trans (toPredicate_extends hr) hvalues),
      ihRight hr hvalues, rfl⟩
  | or left right ihLeft ihRight =>
    obtain ⟨l, b₁, r, hl, hr, rfl⟩ := or_ok h
    exact ⟨_, _, ihLeft hl (List.IsPrefix.trans (toPredicate_extends hr) hvalues),
      ihRight hr hvalues, rfl⟩
  | not inner ih =>
    obtain ⟨q, hq, rfl⟩ := not_ok h
    exact ⟨_, ih hq hvalues, rfl⟩

/-- The slots of a comparison are those that it binds. -/
theorem compare_covers {op : Comparison} {key : String} {value : MetadataValue}
    (h : (comparePredicate catalog op key value).run b = .ok (p, b')) :
    Sql.Covers b.toList.length b'.toList.length p.sql.slots := by
  obtain ⟨target, l, b₁, param, htarget, hleft, -, rfl, rfl⟩ := compare_ok h
  obtain ⟨honce, htwice⟩ := Target.covers_left htarget hleft
  have hright : Sql.Covers b₁.toList.length (b₁.push param.value).2.toList.length
      [b₁.toList.length + 1] := by
    rw [Bindings.toList_push, List.length_append, List.length_singleton]
    exact .replicate _ Nat.one_ne_zero
  -- The look-up is written twice for a negative condition, with the same slot both times.
  by_cases hop : op = .ne
  · have hslots : Sql.slots (Predicate.sql (.or (.isNull l)
        (.compare .ne l (.bound (b₁.toList.length + 1) param.cast)))) =
        l.sql.slots ++ l.sql.slots ++ [b₁.toList.length + 1] := by
      simp [Predicate.sql, Operand.sql]
    rw [if_pos hop, hslots]
    exact htwice.append hright
  · have hslots : Sql.slots (Predicate.sql
        (.compare op l (.bound (b₁.toList.length + 1) param.cast))) =
        l.sql.slots ++ [b₁.toList.length + 1] := by
      simp [Predicate.sql, Operand.sql]
    rw [if_neg hop, hslots]
    exact honce.append hright

/-- So are the slots of a comparison with a list. -/
theorem list_covers {negative : Bool} {key : String} {list : List MetadataValue}
    (h : (listPredicate catalog negative key list).run b = .ok (p, b')) :
    Sql.Covers b.toList.length b'.toList.length p.sql.slots := by
  cases list with
  | nil =>
    cases h
    exact .nil _
  | cons first rest =>
    obtain ⟨target, l, b₁, params, htarget, hleft, -, -, hbound, rfl⟩ := list_ok h
    obtain ⟨honce, htwice⟩ := Target.covers_left htarget hleft
    have hright : Sql.Covers b₁.toList.length b'.toList.length
        (List.range' (b₁.toList.length + 1) params.length) := by
      rw [hbound, List.length_append, List.length_map]
      exact .range' _ _
    -- The list follows the key, which a negated list reads twice.
    rw [← Target.slots_slots] at hright
    cases negative with
    | false => simpa [Predicate.sql] using honce.append hright
    | true => simpa [Predicate.sql] using htwice.append hright

/-- The slots of a predicate are those of the values that its translation binds. -/
theorem toPredicate_covers (h : (f.toPredicate catalog).run b = .ok (p, b')) :
    Sql.Covers b.toList.length b'.toList.length p.sql.slots := by
  induction f generalizing b b' p with
  | compare op key value => exact compare_covers h
  | isIn key list => exact list_covers h
  | notIn key list => exact list_covers h
  | and left right ihLeft ihRight =>
    obtain ⟨l, b₁, r, hl, hr, rfl⟩ := and_ok h
    -- The right side starts with the slot behind the last one of the left side.
    simpa [Predicate.sql] using (ihLeft hl).append (ihRight hr)
  | or left right ihLeft ihRight =>
    obtain ⟨l, b₁, r, hl, hr, rfl⟩ := or_ok h
    simpa [Predicate.sql] using (ihLeft hl).append (ihRight hr)
  | not inner ih =>
    obtain ⟨q, hq, rfl⟩ := not_ok h
    simpa [Predicate.sql] using ih hq

/-- What a translation makes of a filter: a text, and values behind those that were bound before
it. The text has the numbers of the new values in it, in their order, and read as an expression it
states the filter with these values. -/
structure Translated (catalog : Catalog) (f : Filter) (before after : List SqlValue)
    (text : String) : Prop where
  kept : before <+: after
  slots (n : Nat) : .slot n ∈ Sql.scan text ↔ before.length < n ∧ n ≤ after.length
  sorted : ((Sql.scan text).filterMap Sql.Lexeme.slot?).Pairwise (· ≤ ·)
  stated : ∃ e, Sql.read text = some e ∧ f.StatedBy catalog after e

/-- The text of a predicate takes the slots that it binds, and states the filter with them. -/
theorem toPredicate_translated (h : (f.toPredicate catalog).run b = .ok (p, b')) :
    f.Translated catalog b.toList b'.toList p.sql.render := by
  have hlisted := toPredicate_listed h
  have hreadable := Predicate.readable hlisted
  have hcovers := toPredicate_covers h
  constructor
  · exact toPredicate_extends h
  · intro n
    rw [Sql.mem_scan_slot hreadable]
    exact hcovers.mem n
  · rw [Sql.slots_scan hreadable]
    exact hcovers.sorted
  · exact ⟨p.expression, p.read_render hlisted, toPredicate_statedBy h List.prefix_rfl⟩

/-! ## Conditions -/

/-- The condition of a search as it stands in its text, with the values that it adds to the query
vector: a translation of the filter, if there is one. -/
inductive Condition (catalog : Catalog) (vector : SqlValue) :
    Option Filter → List SqlValue → List Sql.Lexeme → Prop where
  | absent : Condition catalog vector none [] []
  | present {f : Filter} {values : List SqlValue} {text : String}
      (h : f.Translated catalog [vector] (vector :: values) text) :
      Condition catalog vector (some f) values (.word "where" :: Sql.scan text)

namespace TranslatesTo

variable {filter : Option Filter} {predicate : Option Predicate}

/-- The predicate of a filter lists at least one value wherever it lists any. -/
theorem listed (h : TranslatesTo catalog filter b predicate b') :
    ∀ p, predicate = some p → p.Listed := by
  cases h with
  | absent => rintro _ ⟨⟩
  | present h =>
    rintro _ ⟨⟩
    exact toPredicate_listed h

/-- The predicate of a filter has the slots that it binds; without a filter there are none. -/
theorem covers (h : TranslatesTo catalog filter b predicate b') :
    Sql.Covers b.toList.length b'.toList.length (predicate.elim [] (·.sql.slots)) := by
  cases h with
  | absent => exact .nil _
  | present h => exact toPredicate_covers h

/-- A translation behind the query vector is the condition of its filter. -/
theorem condition (h : TranslatesTo catalog filter b predicate b') {vector : SqlValue}
    (hb : b.toList = [vector]) :
    ∃ values, b'.toList = vector :: values ∧ Condition catalog vector filter values
      (predicate.elim [] fun p => .word "where" :: p.sql.lexemes) := by
  cases h with
  | absent => exact ⟨[], hb, .absent⟩
  | @present f _ _ p h =>
    have htranslated := toPredicate_translated h
    -- The vector is bound first, so that the values of the filter stand behind it.
    obtain ⟨values, hvalues⟩ := htranslated.kept
    rw [hb] at htranslated hvalues
    rw [← hvalues] at htranslated
    refine ⟨values, hvalues.symm, ?_⟩
    have hscan := Sql.scan_render (Predicate.phrase (toPredicate_listed h)).parted
    rw [Option.elim_some, ← hscan]
    exact .present htranslated

end TranslatesTo

end Filter

end VectorTable
