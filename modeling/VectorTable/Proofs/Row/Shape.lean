import VectorTable.Proofs.Filter.Shape
import VectorTable.Proofs.Row.Encode
import VectorTable.Proofs.Sql.Statement

/-!
# VectorTable — the shape of a row

A row is bound with a cast here and there, and where it has one depends on the kinds of its
metadata values only. So rows of the same shape are inserted by the same text, whatever ids,
texts, vectors and values they hold.

* `TextSegment.kindOf?` — all that the text of an insert shows of a segment;
* `insertStatements_related` — the statements that insert two batches of the same shape.
-/

namespace VectorTable

variable {N : String → String → Prop} {catalog catalog' : Catalog}

/-- The kind of the value that a segment has under a key, if there is one. -/
def TextSegment.kindOf? (segment : Option TextSegment) (key : String) :
    Option MetadataValue.Kind :=
  ((segment.map (·.metadata)).bind (·.get? key)).map MetadataValue.kind

/-- Segments with values of the same kinds under the keys of corresponding columns. -/
def TextSegment.Alike (catalog catalog' : Catalog) (segment segment' : Option TextSegment) : Prop :=
  List.Forall₂ (fun c c' => kindOf? segment c.name = kindOf? segment' c'.name)
    catalog.metadata catalog'.metadata

/-- The rows of a batch. -/
def encodeRows (catalog : Catalog) (batch : List (Uuid × Embedding × Option TextSegment)) :
    Except Error (List (List Param)) :=
  batch.mapM fun (id, embedding, segment) => encodeRow catalog id embedding segment

/-! ## Casts of a row -/

/-- The column receives a parameter as it is, or cast to the type of the column. -/
def Column.Receives (c : Column) (p : Param) : Prop := p.cast = none ∨ p.cast = some c.typeName

/-- A column casts a parameter to its own type, or not at all. -/
theorem Column.receives_param (c : Column) (value : Option MetadataValue) :
    c.Receives (c.param value) := by
  rw [Receives, cast_param]
  split
  · exact .inr rfl
  · exact .inl rfl

/-- So does the id column with an id. -/
theorem Column.receives_idParam (c : Column) (id : Uuid) : c.Receives (c.idParam id) := by
  rw [Receives, cast_idParam]
  split
  · exact .inl rfl
  · exact .inr rfl

/-- Each value of a row is received by the column at its place. -/
theorem encodeRow_receives {id : Uuid} {embedding : Embedding} {segment : Option TextSegment}
    {row : List Param} (h : encodeRow catalog id embedding segment = .ok row) :
    List.Forall₂ Column.Receives catalog.insertColumns row := by
  obtain ⟨split, hsplit, rfl⟩ := encodeRow_eq_ok.mp h
  have hroles : List.Forall₂ Column.Receives [catalog.id, catalog.content, catalog.embedding]
      [catalog.id.idParam id, .plain (.text (segment.map (·.text))),
        .plain (.vector embedding.vector)] :=
    .cons (catalog.id.receives_idParam id) (.cons (.inl rfl) (.cons (.inl rfl) .nil))
  have hcolumns : List.Forall₂ Column.Receives catalog.metadata split.columns := by
    rw [Metadata.split_columns hsplit, Metadata.columnParams]
    exact List.forall₂_map_right_iff.mpr (List.forall₂_same.mpr fun c _ => c.receives_param _)
  have hoverflow : List.Forall₂ Column.Receives catalog.overflow.toList split.overflow.toList := by
    have hcast := Metadata.split_overflow_cast hsplit
    cases hcolumn : catalog.overflow with
    | none =>
      rw [hcolumn] at hcast
      -- Without an overflow column nothing is bound for one.
      rw [Option.map_eq_none_iff.mp hcast]
      exact .nil
    | some column =>
      rw [hcolumn] at hcast
      obtain ⟨p, hp, htype⟩ := Option.map_eq_some_iff.mp hcast
      rw [hp]
      exact .cons (.inr htype) .nil
  exact List.rel_append (List.rel_append hroles hcolumns) hoverflow

/-- Ids are bound alike for columns of one kind. -/
theorem Column.idParam_alike {c c' : Column} (h : c.Alike N c') (id id' : Uuid) :
    (c.idParam id).Alike N (c'.idParam id') := by
  rw [Param.Alike, Column.cast_idParam, Column.cast_idParam, h.kind]
  split
  · exact .none
  · exact .some h.typeName

/-- The values for metadata columns are cast alike. -/
theorem Metadata.columnParams_alike {columns columns' : List Column} {m m' : Option Metadata}
    (hcolumns : List.Forall₂ (Column.Alike N) columns columns')
    (hkinds : List.Forall₂ (fun c c' => (m.bind (·.get? c.name)).map MetadataValue.kind =
      (m'.bind (·.get? c'.name)).map MetadataValue.kind) columns columns') :
    List.Forall₂ (Param.Alike N) (columns.map fun c => c.param (m.bind (·.get? c.name)))
      (columns'.map fun c => c.param (m'.bind (·.get? c.name))) := by
  induction hcolumns with
  | nil => exact .nil
  | cons hcolumn _ ih =>
    cases hkinds with
    | cons hkind hrest => exact .cons (Column.param_alike hcolumn hkind) (ih hrest)

section

variable (hcatalog : catalog.Alike N (Column.Alike N) catalog')

include hcatalog

/-- Segments of one shape make rows of one shape. -/
theorem encodeRow_alike {id id' : Uuid} {embedding embedding' : Embedding}
    {segment segment' : Option TextSegment}
    (hsegment : TextSegment.Alike catalog catalog' segment segment')
    {row row' : List Param} (h : encodeRow catalog id embedding segment = .ok row)
    (h' : encodeRow catalog' id' embedding' segment' = .ok row') :
    List.Forall₂ (Param.Alike N) row row' := by
  obtain ⟨split, hsplit, rfl⟩ := encodeRow_eq_ok.mp h
  obtain ⟨split', hsplit', rfl⟩ := encodeRow_eq_ok.mp h'
  have hcolumns : List.Forall₂ (Param.Alike N) split.columns split'.columns := by
    rw [Metadata.split_columns hsplit, Metadata.split_columns hsplit']
    exact Metadata.columnParams_alike hcatalog.metadata hsegment
  have hoverflow : Option.Rel (Param.Alike N) split.overflow split'.overflow := by
    have hcast := Metadata.split_overflow_cast hsplit
    have hcast' := Metadata.split_overflow_cast hsplit'
    have hcolumn := hcatalog.overflow
    -- Either both tables have a JSON column or neither, and its value is always cast.
    generalize catalog.overflow = o at hcast hcolumn
    generalize catalog'.overflow = o' at hcast' hcolumn
    cases hcolumn with
    | none =>
      rw [Option.map_eq_none_iff.mp hcast, Option.map_eq_none_iff.mp hcast']
      exact .none
    | some hcolumn =>
      obtain ⟨p, hp, hcast⟩ := Option.map_eq_some_iff.mp hcast
      obtain ⟨p', hp', hcast'⟩ := Option.map_eq_some_iff.mp hcast'
      rw [hp, hp']
      refine .some ?_
      rw [Param.Alike, hcast, hcast']
      exact .some hcolumn.typeName
  have hroles : List.Forall₂ (Param.Alike N)
      [catalog.id.idParam id, .plain (.text (segment.map (·.text))),
        .plain (.vector embedding.vector)]
      [catalog'.id.idParam id', .plain (.text (segment'.map (·.text))),
        .plain (.vector embedding'.vector)] :=
    .cons (Column.idParam_alike hcatalog.id id id') (.cons .none (.cons .none .nil))
  exact List.rel_append (List.rel_append hroles hcolumns) (forall₂_toList hoverflow)

/-- Batches of one shape make rows of one shape. -/
theorem encodeRows_alike {batch batch' : List (Uuid × Embedding × Option TextSegment)}
    (hbatch : List.Forall₂ (fun r r' => TextSegment.Alike catalog catalog' r.2.2 r'.2.2)
      batch batch')
    {rows rows' : List (List Param)} (h : encodeRows catalog batch = .ok rows)
    (h' : encodeRows catalog' batch' = .ok rows') :
    List.Forall₂ (List.Forall₂ (Param.Alike N)) rows rows' := by
  unfold encodeRows at h h'
  rw [mapM_eq_ok_iff] at h h'
  induction hbatch generalizing rows rows' with
  | nil =>
    cases h
    cases h'
    exact .nil
  | cons hsegment _ ih =>
    cases h with
    | cons hrow hrest =>
      cases h' with
      | cons hrow' hrest' =>
        exact .cons (encodeRow_alike hcatalog hsegment hrow hrow') (ih hrest hrest')

/-! ## Inserts -/

/-- **Two batches.** Rows of the same shape are inserted by statements that differ in names. -/
theorem insertStatements_related {rows rows' : List (List Param)}
    (hrows : List.Forall₂ (List.Forall₂ (Param.Alike N)) rows rows') :
    List.Forall₂ (fun s s' => Sql.Related N s.sql s'.sql) (insertStatements catalog rows)
      (insertStatements catalog' rows') := by
  -- The tables are equally wide, so their batches are cut at the same rows.
  have hsize : rowsPerStatement catalog = rowsPerStatement catalog' := by
    rw [rowsPerStatement, rowsPerStatement, hcatalog.insertColumns.length_eq]
  rw [insertStatements, insertStatements, hsize, List.forall₂_map_left_iff,
    List.forall₂_map_right_iff]
  exact (forall₂_chunks _ hrows).imp fun _ _ hpart => related_insertStatement hcatalog hpart

end

end VectorTable
