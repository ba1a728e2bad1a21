import VectorTable.Proofs.Catalog
import VectorTable.Proofs.Row.Encode
import VectorTable.Proofs.Row.Merge
import VectorTable.Sql.Statement

/-!
# VectorTable — rows as written and read

A row is written under the column list of an insert and read under the select list of a search.
A database that gives back for each selected column what was bound for it gives back the
row.

* `Catalog.returnedRow` — the row that such a database returns;
* `Column.Suits` — the values that are of a column's own type;
* `decodeMatch_returnedRow` — the match that is read from it.
-/

namespace VectorTable

/-! ## What the database returns -/

/-- The cell that holds a bound value, null for a typed null. -/
def SqlValue.cell : SqlValue → Cell
  | .text v => v.elim .null .text
  | .integer v => v.elim .null .int4
  | .bigint v => v.elim .null .int8
  | .real v => v.elim .null .float4
  | .double v => v.elim .null .float8
  | .uuid v => v.elim .null .uuid
  | .uuids _ => .null
  | .vector v => .vector v

/-- A cell read as text. A UUID has a text of its own; of the other values only texts are ever
stored in columns that are read in this way. -/
def Cell.asText : Cell → Cell
  | .uuid u => .text (toString u)
  | c => c

/-- The cell is null where there is no value, and otherwise is read as the value. -/
inductive Cell.ReadsAs {α : Type} (read : Cell → Option α) : Cell → Option α → Prop where
  | null : ReadsAs read .null none
  | value {cell : Cell} {v : α} (hcell : cell ≠ .null) (h : read cell = some v) :
    ReadsAs read cell (some v)

/-- A text is read back as itself, and null as none. -/
theorem Cell.ReadsAs.text (text : Option String) :
    (SqlValue.text text).cell.ReadsAs Cell.text? text := by
  cases text with
  | none => exact .null
  | some s => exact .value nofun rfl

/-- A vector is read back as itself. -/
theorem Cell.ReadsAs.vector (values : List Single) :
    (Cell.vector values).ReadsAs Cell.vector? (some values) := .value nofun rfl

/-- A float is read back as itself. -/
theorem Cell.ReadsAs.float8 (x : Double) :
    (Cell.float8 x).ReadsAs Cell.float8? (some x) := .value nofun rfl

namespace Catalog

/-- What an inserted row holds in the column with a name. -/
def storedCell (catalog : Catalog) (params : List Param) (name : String) : Cell :=
  (((catalog.insertColumns.map (·.name)).zip params).lookup name).elim .null (·.value.cell)

/-- What a selected expression reads from an inserted row: a column, or a column as text. -/
def selectedCell (catalog : Catalog) (params : List Param) : Sql → Cell
  | [.name name] => catalog.storedCell params name
  | [.name name, .text "::text"] => (catalog.storedCell params name).asText
  | _ => .null

/-- An inserted row as a search returns it, at some distance from the query. -/
def returnedRow (catalog : Catalog) (strategy : DistanceStrategy) (params : List Param)
    (distance : Double) : Row :=
  (selectList catalog strategy).dropLast.map (catalog.selectedCell params) ++ [.float8 distance]

end Catalog

/-! ## Columns and their own values -/

namespace Column

/-- The value is of the type that the column has. -/
def Suits (c : Column) (value : MetadataValue) : Prop :=
  match c.kind, value with
  | .text, .string _ | .integer, .integer _ | .bigInt, .integer _ | .bigInt, .long _
  | .real, .float _ | .double, .double _ | .uuid, .uuid _ => True
  | _, _ => False

/-- A value of a column's own type as the column gives it back. -/
def reread (c : Column) (value : MetadataValue) : MetadataValue :=
  match c.kind, value with
  | .bigInt, .integer i => .long i.toInt64
  | _, value => value

/-- What a column gives back for a value is what it stores for it. -/
theorem storedAs_reread (c : Column) (value : MetadataValue) : value.StoredAs (c.reread value) := by
  unfold reread
  split
  · exact .widened _
  · exact .same _

/-- What a select list reads of a bound value for the column. -/
def readCell (c : Column) (p : Param) : Cell :=
  if c.readsAsText then p.value.cell.asText else p.value.cell

/-- A column reads back what was bound for it, if that is of its own type. -/
theorem readsAs_param (c : Column) {value : Option MetadataValue}
    (h : ∀ v, value = some v → c.Suits v) :
    (c.readCell (c.param value)).ReadsAs c.kind.readCell (value.map c.reread) := by
  cases value with
  | none =>
    have hnull : c.readCell (c.param none) = .null := by
      unfold readCell readsAsText param
      cases c.kind <;> rfl
    rw [hnull]
    exact .null
  | some v =>
    have hsuits := h v rfl
    unfold Suits at hsuits
    unfold readCell readsAsText param reread
    -- Every kind of column against every kind of value; few of the pairs suit.
    cases hkind : c.kind <;> cases v <;> simp only [hkind] at hsuits <;>
      first | exact hsuits.elim | exact .value nofun rfl

end Column

/-! ## Reading cells -/

namespace Row

variable {α : Type} {row : Row} {i : Nat} {cell : Cell} {read : Cell → Option α}

/-- A cell that may be null is read from its place. -/
theorem optional_eq_ok {value : Option α} (hcell : row[i]? = some cell)
    (h : cell.ReadsAs read value) : row.optional i read = .ok value := by
  unfold Row.optional
  rw [hcell]
  cases h with
  | null => rfl
  | value hcell hread => cases cell <;> first | exact absurd rfl hcell | simp only [hread]

/-- A cell that may not be null is read from its place. -/
theorem required_eq_ok {value : α} (hcell : row[i]? = some cell)
    (h : cell.ReadsAs read (some value)) : row.required i read = .ok value := by
  unfold Row.required
  rw [optional_eq_ok hcell h]
  rfl

end Row

/-- **The layout of a search row**: metadata columns, id, text, vector, JSON column, distance. -/
theorem RawMatch.ofRow_eq_ok {catalog : Catalog} {cellOf : Column → Cell}
    {valueOf : Column → Option MetadataValue}
    (h : ∀ c ∈ catalog.metadata, (cellOf c).ReadsAs c.kind.readCell (valueOf c))
    (id : String) (content overflow : Option String) (vector : List Single) (distance : Double) :
    RawMatch.ofRow catalog
        (catalog.metadata.map cellOf ++ .text id :: (SqlValue.text content).cell ::
          .vector vector :: (catalog.overflow.toList.map (fun _ => (SqlValue.text overflow).cell) ++
            [.float8 distance])) =
      .ok ⟨catalog.metadata.map fun c => (c.name, valueOf c), id, content, vector,
        catalog.overflow.bind fun _ => overflow, distance⟩ := by
  generalize hrest : Cell.text id :: (SqlValue.text content).cell :: .vector vector ::
    (catalog.overflow.toList.map (fun _ => (SqlValue.text overflow).cell) ++
      [.float8 distance]) = rest
  generalize hrow : catalog.metadata.map cellOf ++ rest = row
  -- A place after the metadata columns is a place in the rest of the row.
  have hplace (k : Nat) : row[catalog.metadata.length + k]? = rest[k]? := by
    rw [← hrow, List.getElem?_append_right (by simp), List.length_map, Nat.add_sub_cancel_left]
  have hcolumn (i : Nat) (c : Column) (hc : catalog.metadata[i]? = some c) :
      Row.optional row (0 + i) c.kind.readCell = .ok (valueOf c) := by
    refine Row.optional_eq_ok ?_ (h c (List.mem_of_getElem? hc))
    rw [← hrow, Nat.zero_add, List.getElem?_append_left]
    · rw [List.getElem?_map, hc]
      rfl
    · rw [List.length_map]
      exact (List.getElem?_eq_some_iff.mp hc).1
  have hid : Row.required row (catalog.metadata.length + 0) Cell.text? = .ok id :=
    Row.required_eq_ok ((hplace 0).trans (hrest ▸ rfl)) (.text (some id))
  have hcontent : Row.optional row (catalog.metadata.length + 1) Cell.text? = .ok content :=
    Row.optional_eq_ok ((hplace 1).trans (hrest ▸ rfl)) (.text content)
  have hvector : Row.required row (catalog.metadata.length + 2) Cell.vector? = .ok vector :=
    Row.required_eq_ok ((hplace 2).trans (hrest ▸ rfl)) (.vector vector)
  unfold RawMatch.ofRow
  refine bind_eq_ok.mpr ⟨catalog.metadata.map fun c => (c.name, valueOf c),
    mapM_zipIdx_eq_ok 0 fun i c hc => bind_eq_ok.mpr ⟨_, hcolumn i c hc, rfl⟩, ?_⟩
  refine bind_eq_ok.mpr ⟨_, hid, bind_eq_ok.mpr ⟨_, hcontent, bind_eq_ok.mpr ⟨_, hvector, ?_⟩⟩⟩
  cases hoverflow : catalog.overflow with
  | none =>
    have hlast : rest[3]? = some (.float8 distance) := by rw [← hrest, hoverflow]; rfl
    have hdistance := Row.required_eq_ok ((hplace 3).trans hlast) (.float8 distance)
    simp only [Catalog.searchLayout, hoverflow]
    exact bind_eq_ok.mpr ⟨_, rfl, bind_eq_ok.mpr ⟨_, hdistance, rfl⟩⟩
  | some column =>
    have hthird : rest[3]? = some (SqlValue.text overflow).cell := by rw [← hrest, hoverflow]; rfl
    have hlast : rest[4]? = some (.float8 distance) := by rw [← hrest, hoverflow]; rfl
    have htext := Row.optional_eq_ok ((hplace 3).trans hthird) (.text overflow)
    have hdistance := Row.required_eq_ok ((hplace 4).trans hlast) (.float8 distance)
    simp only [Catalog.searchLayout, hoverflow]
    exact bind_eq_ok.mpr ⟨_, htext, bind_eq_ok.mpr ⟨_, hdistance, rfl⟩⟩

/-! ## The returned row -/

/-- Where names are distinct, each is looked up beside its own value. -/
theorem lookup_zip_of_mem {α : Type} {names : List String} (hnodup : names.Nodup) {values : List α}
    {name : String} {value : α} (h : (name, value) ∈ names.zip values) :
    (names.zip values).lookup name = some value := by
  induction names generalizing values with
  | nil => cases h
  | cons head rest ih =>
    obtain ⟨hhead, hrest⟩ := List.nodup_cons.mp hnodup
    cases values with
    | nil => cases h
    | cons first values =>
      rw [List.zip_cons_cons] at h ⊢
      rw [List.lookup_cons]
      rcases List.mem_cons.mp h with heq | hmem
      · cases heq
        rw [beq_self_eq_true]
      · -- The names differ, or the head would stand in the list twice.
        have hne : name ≠ head := fun heq => hhead (heq ▸ (List.of_mem_zip hmem).1)
        rw [beq_false_of_ne hne]
        exact ih hrest hmem

section

variable {catalog : Catalog} {id : Uuid} {embedding : Embedding} {segment : Option TextSegment}
  {params : List Param}

/-- Each value of a row stands under its column. -/
theorem zip_encodeRow (h : encodeRow catalog id embedding segment = .ok params) :
    ∃ split, Metadata.split catalog (segment.map (·.metadata)) = .ok split ∧
      (catalog.insertColumns.map (·.name)).zip params =
        [(catalog.id.name, catalog.id.idParam id),
          (catalog.content.name, .plain (.text (segment.map (·.text)))),
          (catalog.embedding.name, .plain (.vector embedding.vector))] ++
        catalog.metadata.map (fun c =>
          (c.name, c.param ((segment.map (·.metadata)).bind (·.get? c.name)))) ++
        (catalog.overflow.toList.map (·.name)).zip split.overflow.toList := by
  obtain ⟨split, hsplit, rfl⟩ := encodeRow_eq_ok.mp h
  refine ⟨split, hsplit, ?_⟩
  -- Columns and values are both put together from the same parts.
  rw [Metadata.split_columns hsplit, Metadata.columnParams, Catalog.insertColumns, List.map_append,
    List.map_append, List.zip_append (by simp), List.zip_append (by simp), List.zip_map']
  rfl

variable (hnodup : (catalog.insertColumns.map (·.name)).Nodup)

include hnodup

/-- A column stores the parameter that stands at its place in the row. -/
theorem storedCell_of_mem {name : String} {p : Param}
    (h : (name, p) ∈ (catalog.insertColumns.map (·.name)).zip params) :
    catalog.storedCell params name = p.value.cell := by
  rw [Catalog.storedCell, lookup_zip_of_mem hnodup h]
  rfl

/-- What is selected of a column is its parameter in the form in which the column is read. -/
theorem selectedCell_selectExpression {c : Column} {p : Param}
    (h : (c.name, p) ∈ (catalog.insertColumns.map (·.name)).zip params) :
    catalog.selectedCell params c.selectExpression = c.readCell p := by
  have hstored := storedCell_of_mem hnodup h
  unfold Column.selectExpression Column.readCell
  split
  · rw [← hstored]
    rfl
  · rw [← hstored]
    rfl

/-- The row that is returned for an inserted one. -/
theorem returnedRow_eq (strategy : DistanceStrategy) (distance : Double)
    (h : encodeRow catalog id embedding segment = .ok params) :
    ∃ split, Metadata.split catalog (segment.map (·.metadata)) = .ok split ∧
      catalog.returnedRow strategy params distance =
        catalog.metadata.map (fun c =>
          c.readCell (c.param ((segment.map (·.metadata)).bind (·.get? c.name)))) ++
        .text (toString id) :: (SqlValue.text (segment.map (·.text))).cell ::
          .vector embedding.vector ::
            (split.overflow.toList.map (·.value.cell.asText) ++ [.float8 distance]) := by
  obtain ⟨split, hsplit, hzip⟩ := zip_encodeRow h
  refine ⟨split, hsplit, ?_⟩
  -- In the order of the select list, each expression with what it reads.
  have hmetadata : ∀ c ∈ catalog.metadata, catalog.selectedCell params c.selectExpression
      = c.readCell (c.param ((segment.map (·.metadata)).bind (·.get? c.name))) := by
    intro c hc
    refine selectedCell_selectExpression hnodup ?_
    rw [hzip]
    exact List.mem_append_left _ (List.mem_append_right _ (List.mem_map.mpr ⟨c, hc, rfl⟩))
  have hid : catalog.selectedCell params (asText catalog.id) = .text (toString id) := by
    have hstored : catalog.storedCell params catalog.id.name = .uuid id := by
      rw [storedCell_of_mem hnodup (by rw [hzip]; exact List.mem_cons_self)]
      unfold Column.idParam
      split <;> rfl
    exact congrArg Cell.asText hstored
  have hcontent : catalog.selectedCell params (asText catalog.content)
      = (SqlValue.text (segment.map (·.text))).cell := by
    have hstored := storedCell_of_mem hnodup
      (show (catalog.content.name, Param.plain (.text (segment.map (·.text)))) ∈ _ by
        rw [hzip]
        exact List.mem_cons_of_mem _ List.mem_cons_self)
    refine (congrArg Cell.asText hstored).trans ?_
    cases segment <;> rfl
  have hembedding : catalog.selectedCell params [.name catalog.embedding.name]
      = .vector embedding.vector :=
    storedCell_of_mem hnodup
      (show (catalog.embedding.name, Param.plain (.vector embedding.vector)) ∈ _ by
        rw [hzip]
        exact List.mem_cons_of_mem _ (List.mem_cons_of_mem _ List.mem_cons_self))
  have hoverflow : (catalog.overflow.toList.map asText).map (catalog.selectedCell params)
      = split.overflow.toList.map (·.value.cell.asText) := by
    have hsome := Metadata.split_overflow_isSome hsplit
    cases hcolumn : catalog.overflow with
    | none =>
      rw [hcolumn] at hsome
      rw [Option.isNone_iff_eq_none.mp (Option.isSome_eq_false_iff.mp hsome)]
      rfl
    | some column =>
      rw [hcolumn] at hsome
      obtain ⟨p, hp⟩ := Option.isSome_iff_exists.mp hsome
      have hstored := storedCell_of_mem hnodup (show (column.name, p) ∈ _ by
        rw [hzip, hcolumn, hp]
        exact List.mem_append_right _ List.mem_cons_self)
      rw [hp]
      exact congrArg (fun cell => [Cell.asText cell]) hstored
  rw [Catalog.returnedRow, selectList, List.dropLast_concat, List.map_append, List.map_append,
    List.map_map, hoverflow, List.append_assoc, List.append_assoc]
  simp only [List.map_cons, List.map_nil, hid, hcontent, hembedding]
  exact congrArg (· ++ _) (List.map_congr_left hmetadata)

end

/-! ## The metadata of the row -/

namespace Metadata

variable {catalog : Catalog} {m : Option Metadata}

/-- What the JSON column gives back: the keys without a column, each in the kind of JSON. -/
theorem ofOverflow_overflowJson {json : Option Json} (h : overflowJson catalog m = .ok json) :
    ∃ stored, ofOverflow (json.map Json.render) = .ok stored ∧ ∀ key, stored.get? key =
      if (catalog.metadataColumn? key).isSome then none
      else (m.bind (·.get? key)).map MetadataValue.normal := by
  cases m with
  | none =>
    cases h
    refine ⟨∅, rfl, fun key => ?_⟩
    split <;> rfl
  | some m =>
    rw [overflowJson_some] at h
    obtain ⟨object, hobject, rfl⟩ := map_eq_ok.mp h
    -- What was written fits the reader, so the text gives back the tree.
    obtain ⟨hfits, stored, hread, hget⟩ := ofJson_entriesToJson (m.ascending.filter _) hobject
    refine ⟨stored, ?_, fun key => ?_⟩
    · rw [Option.map_some, ofOverflow, Json.parse?_render object hfits]
      exact hread
    · rw [hget, ← withoutColumn, get?_withoutColumn]
      split <;> rfl

/-- The value that comes back under a key: from its column or else, if the table has a JSON
column, from there. -/
def returned? (catalog : Catalog) (m : Option Metadata) (key : String) : Option MetadataValue :=
  match catalog.metadataColumn? key with
  | some c => (m.bind (·.get? key)).map c.reread
  | none =>
    if catalog.overflow.isSome then (m.bind (·.get? key)).map MetadataValue.normal else none

/-- The text of the JSON column is read back as the metadata that have no column. -/
theorem overflow_returned {split : SplitMetadata} (h : Metadata.split catalog m = .ok split) :
    ∃ text : Option String,
      split.overflow.toList.map (·.value.cell.asText) =
        catalog.overflow.toList.map (fun _ => (SqlValue.text text).cell) ∧
      ∃ stored, ofOverflow (catalog.overflow.bind fun _ => text) = .ok stored ∧
        ∀ key, stored.get? key =
          if (catalog.metadataColumn? key).isSome then none else returned? catalog m key := by
  unfold returned?
  cases hoverflow : catalog.overflow with
  | none =>
    rw [split_of_none hoverflow] at h
    cases h
    refine ⟨none, rfl, ∅, rfl, fun key => ?_⟩
    cases catalog.metadataColumn? key <;> rfl
  | some column =>
    rw [split_of_some hoverflow] at h
    obtain ⟨json, hjson, rfl⟩ := map_eq_ok.mp h
    obtain ⟨stored, hstored, hget⟩ := ofOverflow_overflowJson hjson
    refine ⟨json.map Json.render, ?_, stored, hstored, fun key => ?_⟩
    · cases json <;> rfl
    · rw [hget]
      cases catalog.metadataColumn? key <;> rfl

/-- Columns and JSON together give back every key. -/
theorem get?_overlay_returned (hnodup : (catalog.metadata.map (·.name)).Nodup) {stored : Metadata}
    (hstored : ∀ key, stored.get? key =
      if (catalog.metadataColumn? key).isSome then none else returned? catalog m key)
    (key : String) :
    (overlay (catalog.metadata.map fun c => (c.name, (m.bind (·.get? c.name)).map c.reread))
      stored).get? key = returned? catalog m key := by
  -- A value among the columns is one that the metadata has under the column's name.
  have hmem {value : MetadataValue} (h : (key, some value) ∈ catalog.metadata.map fun c =>
      (c.name, (m.bind (·.get? c.name)).map c.reread)) :
      ∃ c ∈ catalog.metadata, c.name = key ∧ (m.bind (·.get? key)).isSome := by
    obtain ⟨c, hc, heq⟩ := List.mem_map.mp h
    obtain ⟨rfl, hvalue⟩ := Prod.mk.inj heq
    exact ⟨c, hc, rfl, by rw [← Option.isSome_map, hvalue]; rfl⟩
  cases hcolumn : catalog.metadataColumn? key with
  | none =>
    -- No column can hide what the JSON column has under the key.
    rw [get?_overlay_of_forall, hstored, hcolumn]
    · rfl
    · intro value h
      obtain ⟨c, hc, hname, -⟩ := hmem h
      exact List.find?_eq_none.mp hcolumn c hc (decide_eq_true hname)
  | some c =>
    obtain ⟨hc, hname⟩ := Catalog.metadataColumn?_eq_some hcolumn
    rw [returned?, hcolumn]
    cases hvalue : m.bind (·.get? key) with
    | none =>
      -- The column is null, and the key is not in the JSON column either.
      rw [get?_overlay_of_forall, hstored, hcolumn]
      · rfl
      · intro value h
        obtain ⟨-, -, -, hsome⟩ := hmem h
        rw [hvalue] at hsome
        cases hsome
    | some value =>
      refine get?_overlay_of_mem (by rwa [List.map_map]) (List.mem_map.mpr ⟨c, hc, ?_⟩) stored
      rw [hname, hvalue]
      rfl

end Metadata

/-! ## The whole row -/

/-- What comes back of a segment: its text, the entries that the table has a place for, and
under each of their keys the answers of all getters. -/
structure TextSegment.Returned (catalog : Catalog) (s s' : TextSegment) : Prop where
  text : s'.text = s.text
  keys (key : String) : (s'.metadata.get? key).isSome ↔ (s.metadata.get? key).isSome ∧
    ((catalog.metadataColumn? key).isSome ∨ catalog.overflow.isSome)
  getters (key : String) :
    (s'.metadata.get? key).isSome → s.metadata.GettersKept s'.metadata key

/-- A segment is returned if each key has the value that is returned for it. -/
theorem TextSegment.returned_of_get? {catalog : Catalog} {s : TextSegment} {m : Metadata}
    (h : ∀ key, m.get? key = Metadata.returned? catalog (some s.metadata) key) :
    s.Returned catalog ⟨s.text, m⟩ := by
  refine ⟨rfl, fun key => ?_, fun key hsome => ?_⟩
  · rw [h, Metadata.returned?]
    split
    · next hcolumn => simp [hcolumn]
    · -- The value stands in the overflow, if there is one.
      next hcolumn => split <;> simp_all
  · obtain ⟨stored, hstored⟩ := Option.isSome_iff_exists.mp hsome
    have hreturned := (h key).symm.trans hstored
    unfold Metadata.returned? at hreturned
    split at hreturned
    · obtain ⟨value, hvalue, rfl⟩ := Option.map_eq_some_iff.mp hreturned
      -- A column returns the value as its type stores it.
      exact Metadata.getters_kept hvalue hstored (Column.storedAs_reread _ value)
    · split at hreturned
      · obtain ⟨value, hvalue, rfl⟩ := Option.map_eq_some_iff.mp hreturned
        -- The overflow returns the value as JSON writes it.
        exact Metadata.getters_kept hvalue hstored (.normal value)
      · cases hreturned

/-- A row without a segment comes back without one, and no other does. -/
theorem embeddedSegment_returned {catalog : Catalog} {segment : Option TextSegment} {m : Metadata}
    (h : ∀ key, m.get? key = Metadata.returned? catalog (segment.map (·.metadata)) key) :
    segment.Rel (TextSegment.Returned catalog)
      (embeddedSegment (segment.map (·.text)) m) := by
  cases segment with
  | none =>
    -- A segment that is there always has a text; one that is not has no metadata either.
    have hempty : m.isEmpty = true := by
      refine (Dictionary.isEmpty_iff m).mpr fun key => ?_
      rw [h, Metadata.returned?]
      split
      · rfl
      · split <;> rfl
    rw [embeddedSegment, hempty]
    exact .none
  | some s => exact .some (TextSegment.returned_of_get? h)

/-- **Rows come back as they were written**, whatever the distance. -/
theorem decodeMatch_returnedRow {config : StoreConfig} {columns : List Column} {catalog : Catalog}
    (hvalid : config.validate = .ok ()) (hdistinct : (columns.map (·.name)).Nodup)
    (hverify : Catalog.verify config columns = .ok catalog)
    {id : Uuid} {embedding : Embedding} {segment : Option TextSegment} {params : List Param}
    (h : encodeRow catalog id embedding segment = .ok params)
    (hsuits : ∀ s, segment = some s → ∀ c ∈ catalog.metadata, ∀ v,
      s.metadata.get? c.name = some v → c.Suits v)
    (strategy : DistanceStrategy) (distance : Double) :
    ∃ segment', decodeMatch catalog (catalog.returnedRow strategy params distance)
        = .ok ⟨distance, toString id, embedding, segment'⟩ ∧
      segment.Rel (TextSegment.Returned catalog) segment' := by
  have hnodup := Catalog.nodup_insertColumns hvalid hdistinct hverify
  -- The metadata columns are among the columns of an insert.
  have hmetadata : (catalog.metadata.map (·.name)).Nodup := by
    refine hnodup.sublist (List.Sublist.map _ ?_)
    exact (List.sublist_append_right _ _).trans (List.sublist_append_left _ _)
  obtain ⟨split, hsplit, hrow⟩ := returnedRow_eq hnodup strategy distance h
  obtain ⟨text, htext, stored, hstored, hget⟩ := Metadata.overflow_returned hsplit
  have hreads : ∀ c ∈ catalog.metadata,
      (c.readCell (c.param ((segment.map (·.metadata)).bind (·.get? c.name)))).ReadsAs
        c.kind.readCell (((segment.map (·.metadata)).bind (·.get? c.name)).map c.reread) := by
    intro c hc
    refine c.readsAs_param fun v hv => ?_
    obtain ⟨m, hm, hvalue⟩ := Option.bind_eq_some_iff.mp hv
    obtain ⟨s, hs, rfl⟩ := Option.map_eq_some_iff.mp hm
    exact hsuits s hs c hc v hvalue
  have hraw := RawMatch.ofRow_eq_ok hreads (toString id) (segment.map (·.text)) text
    embedding.vector distance
  rw [← htext, ← hrow] at hraw
  have hmerge := Metadata.merge_eq (catalog.metadata.map fun c =>
    (c.name, ((segment.map (·.metadata)).bind (·.get? c.name)).map c.reread))
    (catalog.overflow.bind fun _ => text)
  rw [hstored] at hmerge
  refine ⟨_, ?_, embeddedSegment_returned (Metadata.get?_overlay_returned hmetadata hget)⟩
  refine bind_eq_ok.mpr ⟨_, by rw [hraw]; rfl, bind_eq_ok.mpr ⟨_, hmerge, rfl⟩⟩

/-- A note with a page, which has a column, and an author, who has none. -/
def TextSegment.note : TextSegment :=
  ⟨"Tides", .ofList [("page", .integer 3), ("author", .string "Ada")]⟩

/-- A note with a page in a column of its own and an author in the JSON column comes back. -/
theorem decodeMatch_returnedRow_note :
    ∃ segment', decodeMatch .notes (Catalog.notes.returnedRow .cosine
          [.plain (.uuid (some ⟨List.replicate 32 7, rfl⟩)), .plain (.text (some "Tides")),
            .plain (.vector [.zero false, .zero true]), .plain (.integer (some 3)),
            .casted (.text (some "\x7b\"author\":\"Ada\"\x7d")) "json"] (.zero false))
        = .ok ⟨.zero false, "77777777-7777-7777-7777-777777777777",
            ⟨[.zero false, .zero true]⟩, segment'⟩ ∧
      (some TextSegment.note).Rel (TextSegment.Returned .notes) segment' := by
  refine decodeMatch_returnedRow StoreConfig.validate_notes
    (show (Catalog.notes.columns.map (·.name)).Nodup by decide) rfl
    (show encodeRow .notes ⟨List.replicate 32 7, rfl⟩ ⟨[.zero false, .zero true]⟩
      (some TextSegment.note) = .ok _ from rfl) ?_ .cosine (.zero false)
  rintro s ⟨⟩ c hc v hv
  obtain rfl := List.mem_singleton.mp hc
  cases hv
  trivial

end VectorTable
