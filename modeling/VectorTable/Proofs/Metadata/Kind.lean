import VectorTable.Row.Encode

/-!
# VectorTable — kinds of metadata values

What a value is bound with beside itself, a cast or none, is decided without looking at it: by its
kind and the kind of its column.

* `MetadataValue.kind` — what a value is, without the value;
* `Column.cast_param` — the cast of a value for a column.
-/

namespace VectorTable

/-- What a metadata value may be. -/
inductive MetadataValue.Kind where
  | string
  | integer
  | long
  | float
  | double
  | uuid
deriving DecidableEq

namespace MetadataValue

def kind : MetadataValue → Kind
  | .string _ => .string
  | .integer _ => .integer
  | .long _ => .long
  | .float _ => .float
  | .double _ => .double
  | .uuid _ => .uuid

def Kind.isNumeric : Kind → Bool
  | .integer | .long | .float | .double => true
  | .string | .uuid => false

/-- Whether a value is a number is a matter of its kind. -/
@[simp] theorem isNumeric_kind (value : MetadataValue) :
    value.kind.isNumeric = value.isNumeric := by
  cases value <;> rfl

/-- Values of one kind are both numbers, or neither is. -/
theorem isNumeric_congr {value value' : MetadataValue} (h : value.kind = value'.kind) :
    value.isNumeric = value'.isNumeric := by
  rw [← isNumeric_kind, h, isNumeric_kind]

end MetadataValue

/-- A value of some kind, or the absence of one, is cast to the type of a column: always where the
database reads the column as text only, and otherwise where the kind does not suit the column. -/
def ColumnKind.casts : ColumnKind → Option MetadataValue.Kind → Bool
  | .text, _ => false
  | .numeric, _ | .vector, _ | .other, _ => true
  | _, none => false
  | .uuid, some kind => kind ≠ .uuid
  | _, some kind => !kind.isNumeric

/-- Whether a parameter is cast is a matter of the kinds of its column and its value. -/
theorem Column.cast_param (c : Column) (value : Option MetadataValue) :
    (c.param value).cast =
      if c.kind.casts (value.map MetadataValue.kind) then some c.typeName else none := by
  unfold Column.param
  cases c.kind <;> cases value with
  | none => rfl
  | some value => cases value <;> rfl

/-- An id is cast exactly where its column has another type. -/
theorem Column.cast_idParam (c : Column) (id : Uuid) :
    (c.idParam id).cast = if c.kind = .uuid then none else some c.typeName := by
  unfold Column.idParam
  split <;> rfl

end VectorTable
