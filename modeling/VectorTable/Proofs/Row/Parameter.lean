import VectorTable.Proofs.Catalog.Faults
import VectorTable.Proofs.Number.WholeText
import VectorTable.Proofs.Sql.Evaluation
import VectorTable.Row.Encode

/-!
# VectorTable — parameters of columns

The database converts a parameter to the type of its column in two ways only: a cast says so, or
the parameter has a type that is assigned to the column's without one. A column takes values of all
kinds, and whichever way is chosen for one of them, no integer, UUID or text is changed by it.

* `MetadataValue.valueIn` — the form of a value that a column takes without a conversion;
* `Column.param_some` — values are bound in this form, as texts for columns of texts, and otherwise
  as texts to be converted;
* `Column.Binds` — the ways to bind a value for a column;
* `Param.Suits` — parameters that the database accepts for a column;
* `MetadataValue.CarriedBy` — a bound value says the same as a metadata value;
* `Column.param_suits_and_carries` — every parameter suits its column and carries its value.
-/

namespace VectorTable

/-! ## Types of columns -/

/-- The types of numbers that are bound as numbers. -/
def Column.numberTypes : List String := ["int2", "int4", "int8", "float4", "float8"]

namespace ColumnKind

/-- The columns of the kind have one of the types of numbers. -/
def IsNumber (kind : ColumnKind) : Prop :=
  kind = .smallInt ∨ kind = .integer ∨ kind = .bigInt ∨ kind = .real ∨ kind = .double

end ColumnKind

namespace Column

/-- Each type of numbers has a kind of its own. -/
theorem number_cases {c : Column} (h : c.kind.IsNumber) :
    c.kind = .smallInt ∧ c.typeName = "int2" ∨ c.kind = .integer ∧ c.typeName = "int4" ∨
      c.kind = .bigInt ∧ c.typeName = "int8" ∨ c.kind = .real ∧ c.typeName = "float4" ∨
      c.kind = .double ∧ c.typeName = "float8" := by
  unfold kind ColumnKind.IsNumber at h
  unfold kind
  split at h <;> simp_all

/-- A column that takes numbers as they are has a type of numbers. -/
theorem mem_numberTypes_of_kind {c : Column} (h : c.kind.IsNumber) :
    c.typeName ∈ numberTypes := by
  rcases number_cases h with ⟨_, h⟩ | ⟨_, h⟩ | ⟨_, h⟩ | ⟨_, h⟩ | ⟨_, h⟩ <;>
    simp [h, numberTypes]

/-- The kind of a column goes by the name of its type: there are kinds for texts, for numbers and
for UUIDs, and columns of all other types are written as texts that are converted. -/
theorem kind_cases (c : Column) :
    c.kind = .text ∧ c.typeName ∈ Catalog.textTypes ∨
    c.kind.IsNumber ∧ c.typeName ∉ Catalog.textTypes ∨
    c.kind = .uuid ∧ c.typeName = "uuid" ∨
    (c.kind = .numeric ∨ c.kind = .vector ∨ c.kind = .other) ∧
      c.typeName ∉ Catalog.textTypes ∧ c.typeName ∉ numberTypes ∧ c.typeName ≠ "uuid" := by
  unfold kind ColumnKind.IsNumber Catalog.textTypes numberTypes
  split <;> simp_all

end Column

/-! ## Values in the types of columns -/

/-- The form in which a column with a type of a given name takes a value without a conversion.
UUIDs have one in columns of UUIDs and numbers in columns of numbers. A whole number has the width
of the column, if it fits there, and a float the precision of the column. -/
def MetadataValue.valueIn (typeName : String) : MetadataValue → Option SqlValue
  | .string _ => none
  | .uuid u => if typeName = "uuid" then some (.uuid (some u)) else none
  | .integer i =>
    if typeName = "int8" then some (.bigint (some i.toInt64))
    else if typeName ∈ Column.numberTypes then some (.integer (some i))
    else none
  | .long i =>
    if typeName ∈ ["int2", "int4"] ∧ -2 ^ 31 ≤ i.toInt ∧ i.toInt < 2 ^ 31 then
      some (.integer (some (Int32.ofInt i.toInt)))
    else if typeName ∈ Column.numberTypes then some (.bigint (some i))
    else none
  | .float x =>
    if typeName = "float8" then some (.double (some x.widenDecimal))
    else if typeName ∈ Column.numberTypes then some (.real (some x))
    else none
  | .double x =>
    if typeName = "float4" then some (.real (some x.narrow))
    else if typeName ∈ Column.numberTypes then some (.double (some x))
    else none

/-! ## Bound numbers -/

namespace SqlValue

/-- The value is bound as a number, which may be null. -/
inductive IsNumber : SqlValue → Prop where
  | integer (i : Option Int32) : IsNumber (.integer i)
  | bigint (i : Option Int64) : IsNumber (.bigint i)
  | real (x : Option Single) : IsNumber (.real x)
  | double (x : Option Double) : IsNumber (.double x)

/-- The value stands for a whole number, as a number or as a text. -/
inductive DenotesInt (i : Int) : SqlValue → Prop where
  | integer (n : Int32) (h : n.toInt = i) : DenotesInt i (.integer (some n))
  | bigint (n : Int64) (h : n.toInt = i) : DenotesInt i (.bigint (some n))
  | text (s : String) (h : Decimal.WritesInt s.toList i) : DenotesInt i (.text (some s))

end SqlValue

/-- A bound value says the same as a metadata value. A float may be rounded to the width of its
column, or widened by its decimal digits; nothing else changes its meaning. -/
def MetadataValue.CarriedBy : MetadataValue → SqlValue → Prop
  | .string s, bound => bound = .text (some s)
  | .integer i, bound => bound.DenotesInt i.toInt
  | .long i, bound => bound.DenotesInt i.toInt
  | .float x, bound => bound = .real (some x) ∨ bound = .double (some x.widenDecimal) ∨
      bound = .text (some x.display)
  | .double x, bound => bound = .double (some x) ∨ bound = .real (some x.narrow) ∨
      bound = .text (some x.display)
  | .uuid u, bound => bound = .uuid (some u) ∨ bound = .text (some (toString u))

/-- The text of a value says the same as the value. -/
theorem MetadataValue.carriedBy_text (value : MetadataValue) :
    value.CarriedBy (.text (some value.toText)) := by
  cases value with
  | string s => exact rfl
  | integer i => exact .text _ (Decimal.writesInt_toString i.toInt)
  | long i => exact .text _ (Decimal.writesInt_toString i.toInt)
  | float x => exact .inr (.inr rfl)
  | double x => exact .inr (.inr rfl)
  | uuid u => exact .inr rfl

namespace ColumnKind

/-- The null of a column of numbers has a type of numbers, too. -/
theorem isNumber_typedNull {kind : ColumnKind} (h : kind.IsNumber) : kind.typedNull.IsNumber := by
  rcases h with rfl | rfl | rfl | rfl | rfl
  · exact .integer none
  · exact .integer none
  · exact .bigint none
  · exact .real none
  · exact .double none

/-- A number is never bound as a null. -/
theorem numericValue_isNull (kind : ColumnKind) (value : MetadataValue) :
    (kind.numericValue value).isNull = false := by
  unfold numericValue
  split <;> try rfl
  all_goals split <;> rfl

theorem isNull_typedNull (kind : ColumnKind) : kind.typedNull.isNull = true := by
  cases kind <;> rfl

/-- A long keeps its width, unless the column is narrower and the number fits it. -/
theorem numericValue_long (kind : ColumnKind) (i : Int64) :
    kind.numericValue (.long i) = .bigint (some i) ∨
      (-0x80000000 ≤ i.toInt ∧ i.toInt < 0x80000000) ∧
        kind.numericValue (.long i) = .integer (some (Int32.ofInt i.toInt)) := by
  by_cases hshort : -0x80000000 ≤ i.toInt ∧ i.toInt < 0x80000000
  · cases kind with
    | smallInt => exact .inr ⟨hshort, if_pos hshort⟩
    | integer => exact .inr ⟨hshort, if_pos hshort⟩
    | _ => exact .inl rfl
  · cases kind with
    | smallInt => exact .inl (if_neg hshort)
    | integer => exact .inl (if_neg hshort)
    | _ => exact .inl rfl

/-- A number is bound as a number. -/
theorem isNumber_numericValue (kind : ColumnKind) {value : MetadataValue}
    (h : value.isNumeric = true) : (kind.numericValue value).IsNumber := by
  cases value with
  | string s => cases h
  | uuid u => cases h
  | integer i => cases kind <;> constructor
  | float x => cases kind <;> constructor
  | double x => cases kind <;> constructor
  | long i =>
    rcases kind.numericValue_long i with hvalue | ⟨-, hvalue⟩
    · exact hvalue ▸ .bigint _
    · exact hvalue ▸ .integer _

/-- A number that is bound as a number is carried by it. -/
theorem carriedBy_numericValue (kind : ColumnKind) {value : MetadataValue}
    (h : value.isNumeric = true) : value.CarriedBy (kind.numericValue value) := by
  cases value with
  | string s => cases h
  | uuid u => cases h
  | integer i =>
    cases kind with
    | bigInt => exact .bigint _ (Int32.toInt_toInt64 i)
    | _ => exact .integer i rfl
  | long i =>
    rcases kind.numericValue_long i with hvalue | ⟨hshort, hvalue⟩
    · -- Unless the column is narrower, the number keeps its own width.
      exact hvalue ▸ .bigint i rfl
    · -- Nothing wraps, because the number fits.
      exact hvalue ▸ .integer _ (Int32.toInt_ofInt_of_le hshort.1 hshort.2)
  | float x =>
    cases kind with
    | double => exact .inr (.inl rfl)
    | _ => exact .inl rfl
  | double x =>
    cases kind with
    | real => exact .inr (.inl rfl)
    | _ => exact .inl rfl

end ColumnKind

/-! ## Parameters -/

/-- The ways to bind a value, or the absence of one, for a column. -/
inductive Column.Binds (c : Column) : Option MetadataValue → Param → Prop where
  /-- Every value has a text. -/
  | text (h : c.typeName ∈ Catalog.textTypes) (value : Option MetadataValue) :
    Binds c value (.plain (.text (value.map MetadataValue.toText)))
  | cast (value : Option MetadataValue) : Binds c value (c.textCast value)
  | uuid (h : c.typeName = "uuid") (u : Option Uuid) : Binds c (u.map .uuid) (.plain (.uuid u))
  | null (h : c.kind.IsNumber) : Binds c none (.plain c.kind.typedNull)
  | number (h : c.kind.IsNumber) (value : MetadataValue) (hvalue : value.isNumeric = true) :
    Binds c (some value) (.plain (c.kind.numericValue value))

/-- A parameter that the database accepts for a column: a text that is cast to the column's type, or
a value of a type that is assigned to it. -/
inductive Param.Suits (c : Column) : Param → Prop where
  | cast (s : Option String) : Suits c (.casted (.text s) c.typeName)
  | text (h : c.typeName ∈ Catalog.textTypes) (s : Option String) : Suits c (.plain (.text s))
  | uuid (h : c.typeName = "uuid") (u : Option Uuid) : Suits c (.plain (.uuid u))
  | number (h : c.typeName ∈ Column.numberTypes) {n : SqlValue} (hn : n.IsNumber) :
    Suits c (.plain n)

namespace Column

variable {c : Column} {value : Option MetadataValue} {p : Param}

/-- A column of texts takes the text of every value. -/
theorem param_of_text (h : c.kind = .text) :
    c.param value = .plain (.text (value.map MetadataValue.toText)) := by
  unfold param
  rw [h]

/-- A column without a form of its own takes texts that are converted. -/
theorem param_of_cast (h : c.kind = .numeric ∨ c.kind = .vector ∨ c.kind = .other) :
    c.param value = c.textCast value := by
  unfold param
  rcases h with h | h | h <;> rw [h]

/-- A column of numbers takes numbers as they are, and other values as texts. -/
theorem param_of_number (h : c.kind.IsNumber) :
    c.param value = value.elim (.plain c.kind.typedNull) fun v =>
      if v.isNumeric then .plain (c.kind.numericValue v) else c.textCast (some v) := by
  unfold param
  rcases h with h | h | h | h | h <;> rw [h] <;> cases value <;> rfl

/-- In a column of numbers, numbers have the form that they are bound in, and nothing else has. -/
theorem valueIn_of_number (v : MetadataValue) (h : c.kind.IsNumber) :
    v.valueIn c.typeName = if v.isNumeric then some (c.kind.numericValue v) else none := by
  rcases number_cases h with ⟨hkind, htype⟩ | ⟨hkind, htype⟩ | ⟨hkind, htype⟩ |
      ⟨hkind, htype⟩ | ⟨hkind, htype⟩ <;>
    rw [hkind, htype] <;> cases v <;>
    simp [MetadataValue.valueIn, MetadataValue.isNumeric, ColumnKind.numericValue, numberTypes,
      apply_ite]

/-- **How values are bound**, by the name of the column's type: in columns of texts as texts, else
in the form that the column takes without a conversion or, where there is none, as texts that the
database converts. -/
theorem param_some (c : Column) (v : MetadataValue) :
    c.param (some v) =
      if c.typeName ∈ Catalog.textTypes then .plain (.text (some v.toText))
      else (v.valueIn c.typeName).elim (c.textCast (some v)) .plain := by
  rcases c.kind_cases with ⟨hkind, htype⟩ | ⟨hkind, htext⟩ | ⟨hkind, htype⟩ |
    ⟨hkind, htext, hnumber, huuid⟩
  · rw [param_of_text hkind, if_pos htype]
    rfl
  · rw [param_of_number hkind, Option.elim_some, if_neg htext, valueIn_of_number v hkind]
    cases v.isNumeric <;> rfl
  · -- Only a UUID is bound as one; any other value is left to the database to convert.
    unfold param
    rw [hkind, htype, if_neg (by decide)]
    cases v <;> simp [MetadataValue.valueIn, numberTypes]
  · -- No value has this column's type, so the text is cast to it.
    have hnone : v.valueIn c.typeName = none := by
      simp only [numberTypes, List.mem_cons, List.not_mem_nil, or_false, not_or] at hnumber
      cases v <;> simp [MetadataValue.valueIn, numberTypes, hnumber, huuid]
    rw [param_of_cast hkind, if_neg htext, hnone]
    rfl

/-- A parameter is bound in one of these ways. -/
theorem binds_param (c : Column) (value : Option MetadataValue) :
    c.Binds value (c.param value) := by
  rcases c.kind_cases with ⟨hkind, htype⟩ | ⟨hkind, -⟩ | ⟨hkind, htype⟩ | ⟨hkind, -⟩
  · rw [param_of_text hkind]
    exact .text htype value
  · rw [param_of_number hkind]
    cases value with
    | none => exact .null hkind
    | some v =>
      rw [Option.elim_some]
      split
      · rename_i hv
        exact .number hkind v hv
      · exact .cast (some v)
  · unfold param
    rw [hkind]
    cases value with
    | none => exact .uuid htype none
    | some v =>
      cases v with
      | uuid u => exact .uuid htype (some u)
      | _ => exact .cast _
  · rw [param_of_cast hkind]
    exact .cast value

/-- Whichever way a value is bound, the database accepts it for the column. -/
theorem Binds.suits (h : c.Binds value p) : p.Suits c := by
  cases h with
  | text h value => exact .text h _
  | cast value => exact .cast _
  | uuid h u => exact .uuid h u
  | null h => exact .number (mem_numberTypes_of_kind h) (ColumnKind.isNumber_typedNull h)
  | number h value hvalue =>
    exact .number (mem_numberTypes_of_kind h) (c.kind.isNumber_numericValue hvalue)

/-- Only the absence of a value is bound as null. -/
theorem Binds.isNull_iff (h : c.Binds value p) : p.value.isNull = true ↔ value = none := by
  cases h with
  | text h value => cases value <;> simp [Param.plain, SqlValue.isNull]
  | cast value => cases value <;> simp [Column.textCast, Param.casted, SqlValue.isNull]
  | uuid h u => cases u <;> simp [Param.plain, SqlValue.isNull]
  | null h => exact iff_of_true c.kind.isNull_typedNull rfl
  | number h value hvalue =>
    exact iff_of_false (by simp [Param.plain, ColumnKind.numericValue_isNull]) nofun

/-- Whichever way a value is bound, its meaning stays. -/
theorem Binds.carriedBy {v : MetadataValue} (h : c.Binds (some v) p) : v.CarriedBy p.value := by
  generalize hv : some v = value at h
  cases h with
  | text h value => exact hv ▸ v.carriedBy_text
  | cast value => exact hv ▸ v.carriedBy_text
  | uuid h u =>
    cases u <;> cases hv
    exact .inl rfl
  | null h => cases hv
  | number h value hvalue =>
    cases hv
    exact c.kind.carriedBy_numericValue hvalue

/-- **Parameters of columns.** Whatever the type of a column is, the parameter of a value suits the
column, is null only for want of a value, and carries the value. -/
theorem param_suits_and_carries (c : Column) :
    (∀ value, (c.param value).Suits c ∧ ((c.param value).value.isNull = true ↔ value = none)) ∧
      ∀ value : MetadataValue, value.CarriedBy (c.param (some value)).value :=
  ⟨fun value => ⟨(c.binds_param value).suits, (c.binds_param value).isNull_iff⟩,
    fun value => (c.binds_param (some value)).carriedBy⟩

end Column

end VectorTable
