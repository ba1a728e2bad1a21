import VectorTable.Proofs.Dictionary
import VectorTable.Proofs.Metadata.Json
import VectorTable.Row.Encode

/-!
# VectorTable — rows that can be written

A row has one value for each column of an insert, and it can be written unless a float that
JSON cannot hold would go into the JSON column.

* `Metadata.Storable` — the metadata that a table can take;
* `exists_encodeRow_iff` — the rows that can be written;
* `encodeRow_length` — the width of a row.
-/

namespace VectorTable

namespace Metadata

variable (catalog : Catalog)

/-- Nothing that goes into the JSON column is an infinite float or `nan`. -/
def Storable (m : Metadata) : Prop :=
  ∀ column, catalog.overflow = some column → ∀ key value, m.get? key = some value →
    catalog.metadataColumn? key = none → value.IsFinite

/-- The values for the metadata columns. -/
def columnParams (m : Option Metadata) : List Param :=
  catalog.metadata.map fun c => c.param (m.bind (·.get? c.name))

/-- The object for the JSON column. -/
def overflowJson (m : Option Metadata) : Except Error (Option Json) :=
  m.mapM fun m => entriesToJson (m.withoutColumn catalog)

variable {catalog}

/-- The entries without a column are those of the metadata whose keys have none. -/
theorem mem_withoutColumn {m : Metadata} {key : String} {value : MetadataValue} :
    (key, value) ∈ m.withoutColumn catalog ↔
      m.get? key = some value ∧ catalog.metadataColumn? key = none := by
  rw [withoutColumn, List.mem_filter, Dictionary.mem_entries, Option.isNone_iff_eq_none]

/-- A look-up among them finds nothing under a key with a column. -/
theorem get?_withoutColumn (m : Metadata) (key : String) :
    Entries.get? key (m.withoutColumn catalog) =
      if (catalog.metadataColumn? key).isSome then none else m.get? key := by
  -- The entries that are left are still in order, so that looking up finds what is among them.
  have hasc : (m.withoutColumn catalog).Ascending := m.ascending.filter _
  refine Option.ext fun value => ?_
  rw [hasc.get?_eq_some_iff, mem_withoutColumn]
  cases hcolumn : catalog.metadataColumn? key with
  | none => exact and_iff_left rfl
  | some c => exact iff_of_false (fun h => nomatch h.2) nofun

theorem overflowJson_some (m : Metadata) :
    overflowJson catalog (some m) = (entriesToJson (m.withoutColumn catalog)).map some := by
  unfold overflowJson
  cases h : entriesToJson (m.withoutColumn catalog) <;> simp only [Option.mapM_some, h] <;> rfl

/-! ## Splitting -/

/-- A table without a column for other metadata only takes what has a column of its own. -/
theorem split_of_none (h : catalog.overflow = none) (m : Option Metadata) :
    Metadata.split catalog m = .ok ⟨columnParams catalog m, none⟩ := by
  unfold Metadata.split
  rw [h]
  rfl

/-- A table with such a column takes the rest as the text of a JSON object. -/
theorem split_of_some {column : Column} (h : catalog.overflow = some column)
    (m : Option Metadata) :
    Metadata.split catalog m = (overflowJson catalog m).map fun json =>
      ⟨columnParams catalog m, some (.casted (.text (json.map Json.render)) column.typeName)⟩ := by
  unfold Metadata.split
  rw [h]
  rfl

/-- Without metadata the JSON column is null, and so is every other. -/
theorem split_none : Metadata.split catalog none = .ok ⟨columnParams catalog none,
    catalog.overflow.map fun c => .casted (.text none) c.typeName⟩ := by
  cases h : catalog.overflow with
  | none => rw [split_of_none h, Option.map_none]
  | some column =>
    rw [split_of_some h]
    rfl

/-- Metadata are bound for the columns one by one, whatever becomes of the rest. -/
theorem split_columns {m : Option Metadata} {split : SplitMetadata}
    (h : Metadata.split catalog m = .ok split) : split.columns = columnParams catalog m := by
  cases hoverflow : catalog.overflow with
  | none =>
    rw [split_of_none hoverflow] at h
    cases h
    rfl
  | some column =>
    rw [split_of_some hoverflow] at h
    obtain ⟨json, -, rfl⟩ := map_eq_ok.mp h
    rfl

/-- The JSON value is cast to the type of its column. -/
theorem split_overflow_cast {m : Option Metadata} {split : SplitMetadata}
    (h : Metadata.split catalog m = .ok split) :
    split.overflow.map (·.cast) = catalog.overflow.map fun c => some c.typeName := by
  cases hoverflow : catalog.overflow with
  | none =>
    rw [split_of_none hoverflow] at h
    cases h
    rfl
  | some column =>
    rw [split_of_some hoverflow] at h
    obtain ⟨json, -, rfl⟩ := map_eq_ok.mp h
    rfl

/-- There is a JSON value exactly if the table has a JSON column. -/
theorem split_overflow_isSome {m : Option Metadata} {split : SplitMetadata}
    (h : Metadata.split catalog m = .ok split) :
    split.overflow.isSome = catalog.overflow.isSome := by
  have hcast := congrArg Option.isSome (split_overflow_cast h)
  rwa [Option.isSome_map, Option.isSome_map] at hcast

/-- The rest has a JSON form if all its values are finite. -/
theorem exists_overflowJson_iff (m : Metadata) :
    (∃ json, overflowJson catalog (some m) = .ok json) ↔
      ∀ key value, m.get? key = some value → catalog.metadataColumn? key = none →
        value.IsFinite := by
  have hentries := entriesToJson_ok_iff (m.withoutColumn catalog)
  rw [overflowJson_some]
  constructor
  · rintro ⟨json, hjson⟩ key value hget hcolumn
    obtain ⟨object, hobject, -⟩ := map_eq_ok.mp hjson
    exact hentries.mp ⟨object, hobject⟩ (key, value) (mem_withoutColumn.mpr ⟨hget, hcolumn⟩)
  · intro h
    obtain ⟨object, hobject⟩ := hentries.mpr fun (key, value) he =>
      h key value (mem_withoutColumn.mp he).1 (mem_withoutColumn.mp he).2
    exact ⟨some object, map_eq_ok.mpr ⟨object, hobject, rfl⟩⟩

/-- Metadata can be spread over the columns exactly if it is storable. -/
theorem exists_split_iff (m : Option Metadata) :
    (∃ split, Metadata.split catalog m = .ok split) ↔ ∀ d, m = some d → d.Storable catalog := by
  cases hoverflow : catalog.overflow with
  | none =>
    -- Without a JSON column there is no value that would have to fit one.
    refine iff_of_true ⟨_, split_of_none hoverflow m⟩ fun d _ column hcolumn => ?_
    rw [hoverflow] at hcolumn
    cases hcolumn
  | some column =>
    rw [split_of_some hoverflow]
    cases m with
    | none => exact iff_of_true ⟨_, rfl⟩ (fun d h => by cases h)
    | some d =>
      have hjson : (∃ json, overflowJson catalog (some d) = .ok json) ↔ _ :=
        exists_overflowJson_iff d
      constructor
      · rintro ⟨split, hsplit⟩ d' hd column' -
        cases hd
        obtain ⟨json, hj, -⟩ := map_eq_ok.mp hsplit
        exact hjson.mp ⟨json, hj⟩
      · intro h
        obtain ⟨json, hj⟩ := hjson.mpr (h d rfl column hoverflow)
        exact ⟨_, map_eq_ok.mpr ⟨json, hj, rfl⟩⟩

end Metadata

/-! ## Rows -/

/-- An id is bound as a UUID, also where it is cast. -/
theorem Column.idParam_value (c : Column) (id : Uuid) : (c.idParam id).value = .uuid (some id) := by
  unfold Column.idParam
  split <;> rfl

variable {catalog : Catalog} {id : Uuid} {embedding : Embedding} {segment : Option TextSegment}

/-- A row is the id, the text and the vector, and then the metadata as they are split. -/
theorem encodeRow_eq_ok {row : List Param} :
    encodeRow catalog id embedding segment = .ok row ↔
      ∃ split, Metadata.split catalog (segment.map (·.metadata)) = .ok split ∧
        row = [catalog.id.idParam id, .plain (.text (segment.map (·.text))),
          .plain (.vector embedding.vector)] ++ split.columns ++ split.overflow.toList := by
  unfold encodeRow
  rw [bind_eq_ok]
  constructor
  · rintro ⟨split, hsplit, hrow⟩
    cases hrow
    exact ⟨split, hsplit, rfl⟩
  · rintro ⟨split, hsplit, rfl⟩
    exact ⟨split, hsplit, rfl⟩

/-- A row can be written exactly if the metadata of its segment is storable. -/
theorem exists_encodeRow_iff :
    (∃ row, encodeRow catalog id embedding segment = .ok row) ↔
      ∀ s, segment = some s → s.metadata.Storable catalog := by
  have hsplit : (∃ split, Metadata.split catalog (segment.map (·.metadata)) = .ok split) ↔ _ :=
    Metadata.exists_split_iff (segment.map (·.metadata))
  -- Only the split of the metadata can fail.
  constructor
  · rintro ⟨row, hrow⟩ s rfl
    obtain ⟨split, hs, -⟩ := encodeRow_eq_ok.mp hrow
    exact hsplit.mp ⟨split, hs⟩ s.metadata rfl
  · intro h
    obtain ⟨split, hs⟩ := hsplit.mpr fun d hd => by
      obtain ⟨s, hsegment, rfl⟩ := Option.map_eq_some_iff.mp hd
      exact h s hsegment
    exact ⟨_, encodeRow_eq_ok.mpr ⟨split, hs, rfl⟩⟩

/-- A row has one value for each column of an insert. -/
theorem encodeRow_length {row : List Param}
    (h : encodeRow catalog id embedding segment = .ok row) :
    row.length = catalog.insertColumns.length := by
  obtain ⟨split, hsplit, rfl⟩ := encodeRow_eq_ok.mp h
  have hcolumns := congrArg List.length (Metadata.split_columns hsplit)
  have hoverflow : split.overflow.toList.length = catalog.overflow.toList.length := by
    have := Metadata.split_overflow_isSome hsplit
    cases ho : split.overflow <;> cases hc : catalog.overflow <;> simp_all
  simp only [Metadata.columnParams, List.length_map] at hcolumns
  simp only [Catalog.insertColumns, List.length_append, List.length_cons, List.length_nil,
    hcolumns, hoverflow]

end VectorTable
