import VectorTable.Proofs.Filter.Binding
import VectorTable.Proofs.Row.Parameter
import VectorTable.Proofs.Sql.Evaluation
import VectorTable.Proofs.Sql.PredicateText

/-!
# VectorTable — what a filter means

A filter has a meaning of its own on a row, with two truth values: a comparison holds if the key
has a value that compares, and the comparison is true of it; the negative conditions are the
complements of the positive ones, so that they hold of a row without the key. The database knows
nothing of filters. It reads the operands of a predicate, and here they are shown to be what the
meaning of the filter speaks of.

* `Filter.Matches` — the meaning of a filter on a row;
* `Target.left_denotes` — the left side of a comparison is what the row holds under the key;
* `Target.param_denotes` — the right side is the value of the filter.
-/

namespace VectorTable

/-! ## What a filter means -/

namespace Engine

variable (db : Engine)

/-- The JSON object in a column of a row. The column may have any type that converts to one. -/
def document (row : db.Tuple) (json : String) : Option (Dictionary JsonScalar) :=
  match (row json).map (db.cast "jsonb") with
  | some (.object members) => some members
  | _ => none

/-- A member of a JSON object as far as it compares with a value: a number only with a JSON
number, anything else with the text of the member. -/
def comparable (member : JsonScalar) (value : MetadataValue) : Option (Datum db.Native) :=
  if value.isNumeric then
    match member with
    | .number numeral => some (db.cast "numeric" (.text numeral))
    | _ => none
  else member.text?.map .text

/-- What a row holds under a key, as far as it compares with a value: the value of the key's own
column or, for a key without one, the member of the JSON column. -/
def stored (catalog : Catalog) (row : db.Tuple) (key : String) (value : MetadataValue) :
    Option (Datum db.Native) :=
  match catalog.metadataColumn? key with
  | some column => row column.name
  | none => catalog.overflow.bind fun json =>
      (db.document row json.name).bind fun members =>
        (members.get? key).bind (db.comparable · value)

/-- A metadata value as a value of the database, for comparison with a column: a text beside a
column of texts; a number or a UUID of the database in the form that the column takes as it is;
and otherwise what the database makes of the text in the type of the column. -/
def inColumn (column : Column) (value : MetadataValue) : Datum db.Native :=
  if column.typeName ∈ Catalog.textTypes then .text value.toText
  else match value.valueIn column.typeName with
    | some native => .native (db.native native)
    | none => db.cast column.typeName (.text value.toText)

/-- The value of a filter as a value of the database: in the type of the key's column or, for a key
without one, the number that its JSON text denotes, or its plain text. -/
def given (catalog : Catalog) (key : String) (value : MetadataValue) :
    Option (Datum db.Native) :=
  match catalog.metadataColumn? key with
  | some column => some (db.inColumn column value)
  | none =>
    if value.isNumeric then
      value.toJson.toOption.map fun json => db.cast "numeric" (.text json.render)
    else some (.text value.toText)

/-- The key has a value that compares, and the comparison holds of it. -/
def Agrees (catalog : Catalog) (row : db.Tuple) (op : Comparison) (key : String)
    (value : MetadataValue) : Prop :=
  ∃ a b, db.stored catalog row key value = some a ∧ db.given catalog key value = some b ∧
    db.holds op a b = true

end Engine

/-- The filter holds of a row. -/
def Filter.Matches (db : Engine) (catalog : Catalog) (row : db.Tuple) : Filter → Prop
  | .compare .ne key value => ¬ db.Agrees catalog row .eq key value
  | .compare op key value => db.Agrees catalog row op key value
  | .isIn key values => ∃ value ∈ values, db.Agrees catalog row .eq key value
  | .notIn key values => ¬ ∃ value ∈ values, db.Agrees catalog row .eq key value
  | .and left right => left.Matches db catalog row ∧ right.Matches db catalog row
  | .or left right => left.Matches db catalog row ∨ right.Matches db catalog row
  | .not inner => ¬ inner.Matches db catalog row

/-! ## Operands -/

/-- The value of an operand does not change with what is bound after it. -/
def Operand.Denotes (db : Engine) (row : db.Tuple) (b : Bindings) (o : Operand)
    (value : Option (Datum db.Native)) : Prop :=
  ∀ values, b.toList <+: values → o.expression.eval db row values = value

/-- What an operand denotes stays the same when more values are bound. -/
theorem Operand.Denotes.mono {db : Engine} {row : db.Tuple} {b b' : Bindings} {o : Operand}
    {value : Option (Datum db.Native)} (h : o.Denotes db row b value) (hb : b.Extends b') :
    o.Denotes db row b' value :=
  fun values hvalues => h values (List.IsPrefix.trans hb hvalues)

section Operands

variable {db : Engine} {catalog : Catalog} {row : db.Tuple} {key json : String}
  {value : MetadataValue} {target : Target} {b b' : Bindings} {o : Operand}

/-- A slot denotes the parameter that was bound to it. -/
theorem Operand.denotes_bound (row : db.Tuple) {n : Nat} {p : Param}
    (h : b.toList[n]? = some p.value) :
    (Operand.bound (n + 1) p.cast).Denotes db row b (db.param p) := by
  intro values hvalues
  have hslot : values[n]? = some p.value := by
    obtain ⟨more, rfl⟩ := hvalues
    rw [List.getElem?_append_left (List.getElem?_eq_some_iff.mp h).1, h]
  cases hcast : p.cast with
  | none => simp [Operand.expression, Engine.param, hcast, Sql.Expression.eval, hslot]
  | some type => simp [Operand.expression, Engine.param, hcast, Sql.Expression.eval, hslot]

/-- A bound value is found in the slot that it was given. -/
theorem Bindings.getElem?_push (b : Bindings) (v : SqlValue) :
    (b.push v).2.toList[b.toList.length]? = some v := by
  simp

/-- The text of a member whose key is bound. -/
theorem Sql.Expression.eval_memberText {values : List SqlValue} {n : Nat}
    (h : values[n]? = some (.text (some key))) :
    (Sql.Expression.memberText (Sql.documentExpression json) (.slot (n + 1))).eval db row values =
      (((db.document row json).bind (·.get? key)).bind JsonScalar.text?).map .text := by
  have hkey : db.bound (.text (some key)) = some (.text key) := rfl
  simp only [Sql.Expression.eval, Sql.documentExpression, h, Option.bind_some, hkey,
    Engine.document]
  cases (row json).map (db.cast "jsonb") with
  | none => rfl
  | some d => cases d <;> rfl

/-- The same member as JSON. -/
theorem Sql.Expression.eval_member {values : List SqlValue} {n : Nat}
    (h : values[n]? = some (.text (some key))) :
    (Sql.Expression.member (Sql.documentExpression json) (.slot (n + 1))).eval db row values =
      ((db.document row json).bind (·.get? key)).map .scalar := by
  have hkey : db.bound (.text (some key)) = some (.text key) := rfl
  simp only [Sql.Expression.eval, Sql.documentExpression, h, Option.bind_some, hkey,
    Engine.document]
  cases (row json).map (db.cast "jsonb") with
  | none => rfl
  | some d => cases d <;> rfl

/-- The number of a member whose key is bound: what is not a number is never converted. -/
theorem Operand.eval_memberNumber (lawful : db.Lawful) {values : List SqlValue} {n : Nat}
    (h : values[n]? = some (.text (some key))) :
    (Operand.memberNumber json (n + 1)).expression.eval db row values =
      ((db.document row json).bind (·.get? key)).bind fun member =>
        match member with
        | .number numeral => some (db.cast "numeric" (.text numeral))
        | _ => none := by
  -- The condition looks at the kind of the member, and the value at its text.
  have hkind : (Sql.Expression.kind
      (.member (Sql.documentExpression json) (.slot (n + 1)))).eval db row values =
      ((db.document row json).bind (·.get? key)).map fun member => .text member.kind := by
    rw [Sql.Expression.eval, Sql.Expression.eval_member h]
    cases (db.document row json).bind (·.get? key) <;> rfl
  have hwhen : (Operand.memberNumber json (n + 1)).expression.eval db row values =
      if ((db.compare .eq ((Sql.Expression.kind
          (.member (Sql.documentExpression json) (.slot (n + 1)))).eval db row values)
          (some (.text "number"))).map Datum.truth).bind Datum.truth? = some true then
        ((Sql.Expression.memberText (Sql.documentExpression json) (.slot (n + 1))).eval
          db row values).map (db.cast "numeric")
      else none := rfl
  rw [hwhen, hkind, Sql.Expression.eval_memberText h]
  cases (db.document row json).bind (·.get? key) with
  | none => rfl
  | some member =>
    cases member <;>
      simp [Engine.compare, lawful.holds_eq_text, JsonScalar.kind, JsonScalar.text?, Datum.truth?]

/-- The left side of a comparison denotes what the row holds under the key. -/
theorem Target.left_denotes (lawful : db.Lawful) (row : db.Tuple)
    (htarget : catalog.resolve key = .ok target)
    (h : (target.left key value).run b = .ok (o, b')) :
    o.Denotes db row b' (db.stored catalog row key value) := by
  obtain ⟨c, hc, rfl⟩ | ⟨hc, json, hjson, rfl⟩ := Catalog.resolve_cases htarget
  · rw [Target.left_column_run] at h
    cases h
    intro values _
    simp [Operand.expression, Sql.Expression.eval, Engine.stored, hc]
  · rw [Target.left_member_run] at h
    cases h
    intro values hvalues
    -- The key went into the next free slot, and later values leave it there.
    have hkey : values[b.toList.length]? = some (.text (some key)) := by
      obtain ⟨more, rfl⟩ := hvalues
      simp
    simp only [Engine.stored, hc, hjson, Option.bind_some, Engine.comparable]
    cases hnumeric : value.isNumeric with
    | true =>
      rw [if_pos rfl, Operand.eval_memberNumber lawful hkey]
      simp only [if_true, Option.bind_assoc]
    | false =>
      rw [if_neg (by decide), Operand.expression, Sql.Expression.eval_memberText hkey]
      cases db.document row json.name with
      | none => rfl
      | some members => cases hmember : members.get? key <;> simp [hmember]

/-- The form in which a column takes a value is that of a number or of a UUID, and never null. -/
theorem Engine.bound_valueIn (db : Engine) {typeName : String} {native : SqlValue}
    (h : value.valueIn typeName = some native) :
    db.bound native = some (.native (db.native native)) := by
  cases value <;> simp only [MetadataValue.valueIn] at h
  case string => cases h
  all_goals
    repeat' split at h
    all_goals first
      | cases h
        rfl
      | cases h

/-- What is bound for a column denotes the value in the type of the column. -/
theorem Engine.param_column (db : Engine) (column : Column) (value : MetadataValue) :
    db.param (column.param (some value)) = some (db.inColumn column value) := by
  rw [Column.param_some, Engine.inColumn]
  split
  · rfl
  · cases hvalue : value.valueIn column.typeName with
    | none => rfl
    | some native =>
      rw [Option.elim_some]
      exact db.bound_valueIn hvalue

/-- The parameter of a value denotes the value, which is not null. -/
theorem Target.param_denotes (db : Engine) (htarget : catalog.resolve key = .ok target) {p : Param}
    (h : target.param value = .ok p) :
    ∃ d, db.param p = some d ∧ db.given catalog key value = some d := by
  obtain ⟨c, hc, rfl⟩ | ⟨hc, json, hjson, rfl⟩ := Catalog.resolve_cases htarget
  · cases h
    exact ⟨_, db.param_column c value, by rw [Engine.given, hc]⟩
  · -- A number is bound as the text of its JSON, anything else as its plain text.
    simp only [Engine.given, hc]
    unfold Target.param at h
    cases hnumeric : value.isNumeric with
    | true =>
      simp only [hnumeric, if_true] at h ⊢
      cases hjson : value.toJson with
      | error e =>
        rw [hjson] at h
        cases h
      | ok json =>
        rw [hjson] at h
        cases h
        exact ⟨_, rfl, rfl⟩
    | false =>
      simp only [hnumeric, Bool.false_eq_true, if_false] at h ⊢
      cases h
      exact ⟨_, rfl, rfl⟩

/-- A comparison of what the row holds with a value that is not null. -/
theorem Engine.compare_eq_true_iff {op : Comparison} {d : Datum db.Native}
    (hgiven : db.given catalog key value = some d) :
    db.compare op (db.stored catalog row key value) (some d) = some true ↔
      db.Agrees catalog row op key value := by
  constructor
  · intro h
    -- A row without the key is compared with null, which is not true.
    cases hstored : db.stored catalog row key value with
    | none =>
      rw [hstored] at h
      cases h
    | some a =>
      rw [hstored] at h
      exact ⟨a, d, hstored, hgiven, Option.some.inj h⟩
  · rintro ⟨a, d', hstored, hd, hholds⟩
    rw [hd] at hgiven
    cases hgiven
    rw [hstored]
    exact congrArg some hholds

/-- What a row holds under a key depends on the value it is compared with only as far as that is
a number or not. -/
theorem Engine.stored_congr {other : MetadataValue} (h : value.isNumeric = other.isNumeric) :
    db.stored catalog row key value = db.stored catalog row key other := by
  simp only [Engine.stored, Engine.comparable, h]

end Operands

end VectorTable
