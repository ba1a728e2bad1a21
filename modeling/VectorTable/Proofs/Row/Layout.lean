import VectorTable.Proofs.Row.RoundTrip
import VectorTable.Proofs.Sql.SelectList

/-!
# VectorTable — the layout of a search row

Three parts of the program know where a column stands in a search row: the text of the search, the
layout, and the code that reads the row. Nothing but their agreement keeps a value from being read
as that of another column.

* `RawMatch.ReadFrom` — what is read at which place, which is all that a match is made of;
* `Catalog.places` — the places of the layout, one after the other;
* `Column.SelectedAs` — a metadata column is selected in the form in which its cell is read;
* `searchStatement_matches_layout` — the expressions of a search stand at the places that are read.
-/

namespace VectorTable

/-! ## What is read -/

namespace Row

variable {α : Type} {row : Row} {i : Nat} {read : Cell → Option α}

/-- There is a cell at the place, and it is read as the value. -/
def ReadsAt (row : Row) (i : Nat) (read : Cell → Option α) (value : Option α) : Prop :=
  ∃ cell, row[i]? = some cell ∧ cell.ReadsAs read value

/-- A cell that may be null is read where its place has a value that can be read, or null. -/
theorem optional_eq_ok_iff {value : Option α} :
    row.optional i read = .ok value ↔ row.ReadsAt i read value := by
  constructor
  · intro h
    unfold Row.optional at h
    split at h
    · -- A cell that is missing is an error, and so is one of another type.
      cases h
    · rename_i hcell
      cases h
      exact ⟨.null, hcell, .null⟩
    · rename_i cell hnull hcell
      split at h
      · rename_i v hread
        cases h
        exact ⟨cell, hcell, .value hnull hread⟩
      · cases h
  · rintro ⟨cell, hcell, hreads⟩
    exact optional_eq_ok hcell hreads

/-- A cell that may not be null has a value that can be read. -/
theorem required_eq_ok_iff {value : α} :
    row.required i read = .ok value ↔ row.ReadsAt i read (some value) := by
  constructor
  · intro h
    obtain ⟨v, hv, hvalue⟩ := bind_eq_ok.mp h
    cases v with
    | none => cases hvalue
    | some v =>
      cases hvalue
      exact optional_eq_ok_iff.mp hv
  · rintro ⟨cell, hcell, hreads⟩
    exact required_eq_ok hcell hreads

/-- A cell that is neither null nor of the type that is asked for cannot be read. -/
theorem not_readsAt {cell : Cell} {value : Option α} (hcell : row[i]? = some cell)
    (hnull : cell ≠ .null) (hread : read cell = none) : ¬ row.ReadsAt i read value := by
  rintro ⟨cell', hcell', hreads⟩
  obtain rfl := Option.some.inj (hcell.symm.trans hcell')
  cases hreads with
  | null => exact hnull rfl
  | value _ hvalue =>
    rw [hread] at hvalue
    cases hvalue

end Row

/-- The metadata column at a place of the row, with its value. -/
structure Column.ReadFrom (row : Row) (place : Column × Nat)
    (column : String × Option MetadataValue) : Prop where
  name : column.1 = place.1.name
  value : row.ReadsAt place.2 place.1.kind.readCell column.2

/-- All parts of a match are read from the row, each at its place. -/
structure RawMatch.ReadFrom (catalog : Catalog) (row : Row) (raw : RawMatch) : Prop where
  /-- The metadata columns come first, in the order of the catalog. -/
  columns : List.Forall₂ (Column.ReadFrom row) catalog.metadata.zipIdx raw.columns
  id : row.ReadsAt catalog.searchLayout.id Cell.text? (some raw.id)
  content : row.ReadsAt catalog.searchLayout.content Cell.text? raw.content
  embedding : row.ReadsAt catalog.searchLayout.embedding Cell.vector? (some raw.vector)
  overflow : ∀ i, catalog.searchLayout.overflow = some i → row.ReadsAt i Cell.text? raw.overflow
  noOverflow : catalog.searchLayout.overflow = none → raw.overflow = none
  distance : row.ReadsAt catalog.searchLayout.distance Cell.float8? (some raw.distance)

section

variable {catalog : Catalog} {row : Row}

/-- A metadata column is read from its own place, in the form of its kind. -/
theorem Column.readFrom_iff {place : Column × Nat} {column : String × Option MetadataValue} :
    (do return (place.1.name, ← row.optional place.2 place.1.kind.readCell)) =
        (.ok column : Except String _) ↔ Column.ReadFrom row place column := by
  rw [bind_eq_ok]
  constructor
  · rintro ⟨value, hvalue, hcolumn⟩
    cases hcolumn
    exact ⟨rfl, Row.optional_eq_ok_iff.mp hvalue⟩
  · rintro ⟨hname, hvalue⟩
    refine ⟨column.2, Row.optional_eq_ok_iff.mpr hvalue, ?_⟩
    rw [← hname]
    rfl

/-- A cell that is only read where there is a place for it. -/
theorem Row.placed_bind_eq_ok {α β : Type} {place : Option Nat} {read : Cell → Option α}
    {f : Option α → Except String β} {b : β} :
    (match place with
      | some i => row.optional i read >>= f
      | none => (Except.ok none : Except String (Option α)) >>= f) = .ok b ↔
      ∃ value, ((∀ i, place = some i → row.ReadsAt i read value) ∧ (place = none → value = none)) ∧
        f value = .ok b := by
  cases place with
  | none =>
    constructor
    · intro h
      exact ⟨none, ⟨nofun, fun _ => rfl⟩, h⟩
    · rintro ⟨value, ⟨-, hnone⟩, h⟩
      obtain rfl := hnone rfl
      exact h
  | some i =>
    constructor
    · intro h
      obtain ⟨value, hvalue, h⟩ := bind_eq_ok.mp h
      refine ⟨value, ⟨?_, nofun⟩, h⟩
      rintro _ ⟨⟩
      exact optional_eq_ok_iff.mp hvalue
    · rintro ⟨value, ⟨hread, -⟩, h⟩
      exact bind_eq_ok.mpr ⟨value, optional_eq_ok_iff.mpr (hread i rfl), h⟩

/-- A row is read if each of its places is. -/
theorem RawMatch.ofRow_eq_ok_iff {raw : RawMatch} :
    RawMatch.ofRow catalog row = .ok raw ↔ raw.ReadFrom catalog row := by
  unfold RawMatch.ofRow
  constructor
  · -- Nothing fails, so each part has been read.
    intro h
    obtain ⟨columns, hcolumns, h⟩ := bind_eq_ok.mp h
    obtain ⟨id, hid, h⟩ := bind_eq_ok.mp h
    obtain ⟨content, hcontent, h⟩ := bind_eq_ok.mp h
    obtain ⟨vector, hvector, h⟩ := bind_eq_ok.mp h
    obtain ⟨overflow, ⟨hoverflow, hnone⟩, h⟩ := Row.placed_bind_eq_ok.mp h
    obtain ⟨distance, hdistance, h⟩ := bind_eq_ok.mp h
    cases h
    exact {
      columns := (mapM_eq_ok_iff.mp hcolumns).imp fun _ _ => Column.readFrom_iff.mp
      id := Row.required_eq_ok_iff.mp hid
      content := Row.optional_eq_ok_iff.mp hcontent
      embedding := Row.required_eq_ok_iff.mp hvector
      overflow := hoverflow
      noOverflow := hnone
      distance := Row.required_eq_ok_iff.mp hdistance }
  · -- Each part can be read, so nothing fails.
    rintro ⟨hcolumns, hid, hcontent, hvector, hoverflow, hnone, hdistance⟩
    refine bind_eq_ok.mpr ⟨raw.columns,
      mapM_eq_ok_iff.mpr (hcolumns.imp fun _ _ => Column.readFrom_iff.mpr), ?_⟩
    refine bind_eq_ok.mpr ⟨raw.id, Row.required_eq_ok_iff.mpr hid, ?_⟩
    refine bind_eq_ok.mpr ⟨raw.content, Row.optional_eq_ok_iff.mpr hcontent, ?_⟩
    refine bind_eq_ok.mpr ⟨raw.vector, Row.required_eq_ok_iff.mpr hvector, ?_⟩
    refine Row.placed_bind_eq_ok.mpr ⟨raw.overflow, ⟨hoverflow, hnone⟩, ?_⟩
    exact bind_eq_ok.mpr ⟨raw.distance, Row.required_eq_ok_iff.mpr hdistance, rfl⟩

/-- A match is made of what is read at these places, and of nothing else. -/
theorem decodeMatch_eq_ok_iff {m : Match} :
    decodeMatch catalog row = .ok m ↔
      ∃ raw metadata, RawMatch.ReadFrom catalog row raw ∧
        Metadata.merge raw.columns raw.overflow = .ok metadata ∧
        m = ⟨raw.distance, raw.id, ⟨raw.vector⟩, embeddedSegment raw.content metadata⟩ := by
  unfold decodeMatch
  constructor
  · intro h
    obtain ⟨raw, hraw, h⟩ := bind_eq_ok.mp h
    obtain ⟨metadata, hmetadata, h⟩ := bind_eq_ok.mp h
    cases h
    exact ⟨raw, metadata, RawMatch.ofRow_eq_ok_iff.mp (mapError_eq_ok.mp hraw), hmetadata, rfl⟩
  · rintro ⟨raw, metadata, hraw, hmetadata, rfl⟩
    refine bind_eq_ok.mpr ⟨raw, mapError_eq_ok.mpr (RawMatch.ofRow_eq_ok_iff.mpr hraw), ?_⟩
    exact bind_eq_ok.mpr ⟨metadata, hmetadata, rfl⟩

end

/-! ## The places -/

/-- The places of the metadata columns and, after them, those of the layout. -/
def Catalog.places (catalog : Catalog) : List Nat :=
  List.range catalog.metadata.length ++
    [catalog.searchLayout.id, catalog.searchLayout.content, catalog.searchLayout.embedding] ++
    catalog.searchLayout.overflow.toList ++ [catalog.searchLayout.distance]

/-- They are all different, and none is left out. -/
theorem Catalog.places_eq (catalog : Catalog) :
    catalog.places = List.range (catalog.searchLayout.distance + 1) := by
  unfold places searchLayout
  cases catalog.overflow with
  | none => simp [List.range_succ]
  | some column => simp [List.range_succ]

/-- Columns of every kind refuse some cell. -/
theorem ColumnKind.exists_refused (kind : ColumnKind) :
    ∃ cell : Cell, cell ≠ .null ∧ kind.readCell cell = none := by
  by_cases h : kind.readCell (.text "") = none
  · exact ⟨.text "", nofun, h⟩
  · refine ⟨.int2 0, nofun, ?_⟩
    cases kind <;> first | rfl | exact absurd rfl h

/-- A row with a cell that its reader refuses is not decoded. -/
theorem decodeMatch_refuses {catalog : Catalog} {i : Nat} {α : Type} {read : Cell → Option α}
    {cell : Cell} (hnull : cell ≠ .null) (hrefused : read cell = none)
    (hreads : ∀ row raw, RawMatch.ReadFrom catalog row raw → ∃ value, row.ReadsAt i read value) :
    ∃ cell : Cell, ∀ row : Row, row[i]? = some cell → ∀ m, decodeMatch catalog row ≠ .ok m := by
  refine ⟨cell, ?_⟩
  intro row hcell m hm
  obtain ⟨raw, -, hraw, -, -⟩ := decodeMatch_eq_ok_iff.mp hm
  obtain ⟨value, hvalue⟩ := hreads row raw hraw
  exact Row.not_readsAt hcell hnull hrefused hvalue

/-- At each place there is a cell with which the row cannot be read. -/
theorem exists_refused_cell {catalog : Catalog} {i : Nat} (hi : i ∈ catalog.places) :
    ∃ cell : Cell, ∀ row : Row, row[i]? = some cell → ∀ m, decodeMatch catalog row ≠ .ok m := by
  have hother : Cell.int2 0 ≠ .null := nofun
  unfold Catalog.places at hi
  simp only [List.mem_append, List.mem_range, List.mem_cons, List.not_mem_nil, or_false,
    Option.mem_toList] at hi
  rcases hi with ((hmetadata | rfl | rfl | rfl) | hoverflow) | rfl
  · -- Which cell is refused depends on the kind of the column.
    obtain ⟨cell, hnull, hrefused⟩ := (catalog.metadata[i]).kind.exists_refused
    refine decodeMatch_refuses hnull hrefused ?_
    intro row raw hraw
    have hcolumn : catalog.metadata.zipIdx[i]? = some (catalog.metadata[i], i) := by
      simp [hmetadata]
    obtain ⟨column, -, hread⟩ := exists_getElem?_of_forall₂ hraw.columns hcolumn
    exact ⟨_, hread.value⟩
  · exact decodeMatch_refuses hother rfl fun _ _ hraw => ⟨_, hraw.id⟩
  · exact decodeMatch_refuses hother rfl fun _ _ hraw => ⟨_, hraw.content⟩
  · exact decodeMatch_refuses hother rfl fun _ _ hraw => ⟨_, hraw.embedding⟩
  · exact decodeMatch_refuses hother rfl fun _ _ hraw => ⟨_, hraw.overflow i hoverflow⟩
  · exact decodeMatch_refuses hother rfl fun _ _ hraw => ⟨_, hraw.distance⟩

/-! ## What is selected -/

namespace Sql

theorem render_name (name : String) : render [.name name] = Identifier.quote name := by
  simp [render, Token.render]

theorem render_asText (c : Column) :
    (VectorTable.asText c).render = Identifier.quote c.name ++ "::text" := by
  simp [VectorTable.asText, render, Token.render]

end Sql

/-- How a metadata column is selected: as text if text is all that is read from its cell, and as it
is if text is never read from it. -/
inductive Column.SelectedAs (c : Column) : String → Prop where
  | text (h : ∀ cell, (c.kind.readCell cell).isSome ↔ ∃ s, cell = .text s) :
    SelectedAs c (Identifier.quote c.name ++ "::text")
  | native (h : ∀ s, c.kind.readCell (.text s) = none) : SelectedAs c (Identifier.quote c.name)

/-- Columns are selected as they are read: as a text, or as they are. -/
theorem Column.selectedAs_selectExpression (c : Column) :
    c.SelectedAs c.selectExpression.render := by
  unfold selectExpression
  split
  · rename_i htext
    have hexpression := Sql.render_asText c
    unfold asText at hexpression
    rw [hexpression]
    refine .text ?_
    intro cell
    unfold readsAsText at htext
    -- Every kind of column that is read as text, against every cell.
    cases hkind : c.kind <;> simp only [hkind, Bool.false_eq_true] at htext <;>
      cases cell <;> simp [ColumnKind.readCell]
  · rename_i htext
    rw [Sql.render_name]
    refine .native ?_
    intro s
    unfold readsAsText at htext
    cases hkind : c.kind <;> simp only [hkind, not_true_eq_false] at htext <;> rfl

/-- The text of the distance between the vectors of a table and the query. -/
def Catalog.distanceText (catalog : Catalog) (strategy : DistanceStrategy) : String :=
  (strategy.distanceExpression [.name catalog.embedding.name] [.slot 1]).render

/-- The expressions of a search, each at the place where its column is read: first the metadata
columns in the order of the catalog, then the others as the layout has them. -/
structure Catalog.Selects (catalog : Catalog) (strategy : DistanceStrategy)
    (expressions : List String) : Prop where
  length : expressions.length = catalog.searchLayout.distance + 1
  metadata : ∀ (j : Nat) (c : Column), catalog.metadata[j]? = some c →
    ∃ text, expressions[j]? = some text ∧ c.SelectedAs text
  id : expressions[catalog.searchLayout.id]? =
    some (Identifier.quote catalog.id.name ++ "::text")
  content : expressions[catalog.searchLayout.content]? =
    some (Identifier.quote catalog.content.name ++ "::text")
  embedding : expressions[catalog.searchLayout.embedding]? =
    some (Identifier.quote catalog.embedding.name)
  overflow : catalog.searchLayout.overflow.map (fun i => expressions[i]?) =
    catalog.overflow.map fun c => some (Identifier.quote c.name ++ "::text")
  distance : expressions[catalog.searchLayout.distance]? =
    some (catalog.distanceText strategy ++ " AS distance")

/-- **The list of a search** selects each role and each metadata column at the place where a row is
read, and the score behind them. -/
theorem Catalog.selects_selectList (catalog : Catalog) (strategy : DistanceStrategy) :
    catalog.Selects strategy ((selectList catalog strategy).map Sql.render) := by
  have hdistance : Sql.render ((strategy.distanceExpression [.name catalog.embedding.name]
      [.slot 1]) ++ [.text " AS distance"]) = catalog.distanceText strategy ++ " AS distance" := by
    rw [Sql.render_append]
    rfl
  generalize hrest : [asText catalog.id, asText catalog.content, [.name catalog.embedding.name]] ++
    (catalog.overflow.toList.map asText ++
      [strategy.distanceExpression [.name catalog.embedding.name] [.slot 1] ++
        [.text " AS distance"]]) = rest
  have hlist : selectList catalog strategy =
      catalog.metadata.map Column.selectExpression ++ rest := by
    rw [← hrest]
    simp only [selectList, List.append_assoc]
  -- A place after the metadata columns is a place in the rest of the list.
  have hplace (k : Nat) :
      ((selectList catalog strategy).map Sql.render)[catalog.metadata.length + k]? =
        rest[k]?.map Sql.render := by
    rw [List.getElem?_map, hlist, List.getElem?_append_right (by simp), List.length_map,
      Nat.add_sub_cancel_left]
  constructor
  · rw [hlist, ← hrest]
    unfold searchLayout
    simp only [List.length_map, List.length_append, List.length_cons, List.length_nil]
    omega
  · intro j c hc
    refine ⟨_, ?_, c.selectedAs_selectExpression⟩
    have hj : j < catalog.metadata.length := (List.getElem?_eq_some_iff.mp hc).1
    rw [List.getElem?_map, hlist, List.getElem?_append_left (by simpa using hj),
      List.getElem?_map, hc]
    rfl
  · rw [← Sql.render_asText]
    exact (hplace 0).trans (hrest ▸ rfl)
  · rw [← Sql.render_asText]
    exact (hplace 1).trans (hrest ▸ rfl)
  · rw [← Sql.render_name]
    exact (hplace 2).trans (hrest ▸ rfl)
  · cases hoverflow : catalog.overflow with
    | none => simp only [searchLayout, hoverflow, Option.map_none]
    | some c =>
      have hthird : rest[3]? = some (asText c) := by rw [← hrest, hoverflow]; rfl
      have hcell := hplace 3
      rw [hthird, Option.map_some, Sql.render_asText] at hcell
      simp only [searchLayout, hoverflow, Option.map_some, hcell]
  · rw [← hdistance]
    cases hoverflow : catalog.overflow with
    | none =>
      simp only [searchLayout, hoverflow]
      exact (hplace 3).trans (by rw [← hrest, hoverflow]; rfl)
    | some c =>
      simp only [searchLayout, hoverflow]
      exact (hplace 4).trans (by rw [← hrest, hoverflow]; rfl)

/-! ## Agreement -/

/-- **Text, layout and reader agree.** The expressions that the text of a search selects stand at
the places of the layout, a metadata column being cast to text exactly if it is read as text. The
places are all different, a match is made of what is read at them, and at each of them there is a
cell with which no match can be made. -/
theorem searchStatement_matches_layout (catalog : Catalog) (strategy : DistanceStrategy)
    (predicate : Option Predicate) (limit : UInt64) (b : Bindings) :
    (∃ expressions,
      Sql.selected? (searchStatement catalog strategy predicate limit b).sql.render =
        some expressions ∧ catalog.Selects strategy expressions) ∧
      catalog.places = List.range (catalog.searchLayout.distance + 1) ∧
      (∀ row m, decodeMatch catalog row = .ok m ↔
        ∃ raw metadata, RawMatch.ReadFrom catalog row raw ∧
          Metadata.merge raw.columns raw.overflow = .ok metadata ∧
          m = ⟨raw.distance, raw.id, ⟨raw.vector⟩, embeddedSegment raw.content metadata⟩) ∧
      ∀ i ∈ catalog.places, ∃ cell : Cell, ∀ row : Row, row[i]? = some cell →
        ∀ m, decodeMatch catalog row ≠ .ok m := by
  refine ⟨⟨_, Sql.selected?_searchStatement catalog strategy predicate limit b,
    catalog.selects_selectList strategy⟩, catalog.places_eq, fun row m => decodeMatch_eq_ok_iff, ?_⟩
  intro i hi
  exact exists_refused_cell hi

end VectorTable
