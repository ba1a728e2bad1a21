import VectorTable.Config.Table
import VectorTable.Proofs.Catalog.Roles
import VectorTable.Proofs.Sql.Quoting
import VectorTable.Proofs.Store.Open

/-!
# VectorTable — a store over a new table

The layout of a new table and the configuration of a store are checked each on its own, and verified
against a table in a third place. Here the three are shown to agree: a store can be opened over
every table that is made, and it writes the columns of the table in their order.

* `TableConfig.declarations` — the columns that the table is made with;
* `TableConfig.reported` — the same columns as the database reports them;
* `TableConfig.storeConfig` — the configuration of a store over the table;
* `TableConfig.created_table_opens` — such a store is opened.
-/

namespace VectorTable

/-! ## The statement -/

/-- A column as a statement declares it: its name, and its type with all else that is said
about it. -/
structure Declaration where
  name : String
  type : String

def Declaration.text (d : Declaration) : String := Identifier.quote d.name ++ " " ++ d.type

/-- A name and a type behind it are written as the declaration of a column. -/
theorem Declaration.render_eq (name type : String) :
    Sql.render [.name name, .text (" " ++ type)] = text ⟨name, type⟩ := by
  simp [Sql.render, Sql.Token.render, text, String.append_assoc]

def MetadataColumn.declaration (m : MetadataColumn) : Declaration :=
  ⟨m.name, m.dataType ++ if m.nullable then "" else " NOT NULL"⟩

/-- A metadata column is declared with its name and its type as they are configured. -/
theorem MetadataColumn.render_definition (m : MetadataColumn) :
    m.definition.render = m.declaration.text := by
  obtain ⟨name, dataType, nullable⟩ := m
  cases nullable <;> simp [definition, declaration, Declaration.text, Sql.render, Sql.Token.render,
    String.append_assoc]

/-- A vector column has the dimension that it was declared with, as long as a modifier can hold it.
-/
theorem Column.dimension?_ofVector {name : String} {size : UInt32} (hpos : size ≠ 0)
    (hsize : size.toNat < 0x80000000) : (ofVector name size).dimension? = some size.toNat := by
  have hmodifier : (ofVector name size).modifier = Int32.ofNat size.toNat := if_pos hsize
  have hvalue : (ofVector name size).modifier.toInt = size.toNat := by
    rw [hmodifier, Int32.toInt_ofNat_of_lt hsize]
  have hnat : 0 < size.toNat := Nat.pos_of_ne_zero fun h => hpos (UInt32.toNat.inj h)
  unfold dimension?
  rw [hvalue, if_pos ⟨rfl, by omega⟩, Int.toNat_natCast]

namespace TableConfig

variable {c : TableConfig}

/-- The columns that the table is made with, in order. -/
def declarations (c : TableConfig) : List Declaration :=
  [⟨c.idColumn, "UUID PRIMARY KEY"⟩, ⟨c.contentColumn, "TEXT NULL"⟩,
    ⟨c.embeddingColumn, s!"vector({c.vectorSize}) NOT NULL"⟩] ++
    c.metadataColumns.map MetadataColumn.declaration ++
    if c.storeMetadata then [⟨c.overflowColumn, "JSON"⟩] else []

/-- The list in the text of a new table declares its columns one by one. -/
theorem render_columnDefinitions :
    c.columnDefinitions.map Sql.render = c.declarations.map Declaration.text := by
  have hid : Sql.render [.name c.idColumn, .text " UUID PRIMARY KEY"] =
      Declaration.text ⟨c.idColumn, "UUID PRIMARY KEY"⟩ := by
    rw [← Declaration.render_eq]
    rfl
  have hcontent : Sql.render [.name c.contentColumn, .text " TEXT NULL"] =
      Declaration.text ⟨c.contentColumn, "TEXT NULL"⟩ := by
    rw [← Declaration.render_eq]
    rfl
  have hembedding :
      Sql.render [.name c.embeddingColumn, .text s!" vector({c.vectorSize}) NOT NULL"] =
        Declaration.text ⟨c.embeddingColumn, s!"vector({c.vectorSize}) NOT NULL"⟩ := by
    rw [← Declaration.render_eq, ← String.append_assoc, ← String.append_assoc]
    rfl
  have hmetadata : (c.metadataColumns.map MetadataColumn.definition).map Sql.render =
      (c.metadataColumns.map MetadataColumn.declaration).map Declaration.text := by
    rw [List.map_map, List.map_map]
    refine List.map_congr_left ?_
    intro m _
    rw [Function.comp_apply, Function.comp_apply, m.render_definition]
  have hoverflow : Sql.render (MetadataColumn.definition ⟨c.overflowColumn, "JSON", true⟩) =
      Declaration.text ⟨c.overflowColumn, "JSON"⟩ := by
    rw [MetadataColumn.render_definition, MetadataColumn.declaration, if_pos rfl,
      String.append_empty]
  -- Both lists have the same parts, and the last of them only under the same condition.
  unfold columnDefinitions declarations
  simp only [List.map_append, List.map_cons, List.map_nil, hid, hcontent, hembedding, hmetadata]
  cases c.storeMetadata with
  | false => rfl
  | true => simp only [reduceIte, List.map_cons, List.map_nil, hoverflow]

/-- The last statement makes a table with these columns. -/
theorem getLast?_createStatements :
    c.createStatements.getLast?.map Sql.render =
      some ("CREATE TABLE " ++ (Sql.qualified c.schema c.table).render ++ " (" ++
        ", ".intercalate (c.declarations.map Declaration.text) ++ ")") := by
  unfold createStatements
  rw [List.getLast?_concat, Option.map_some, ← render_columnDefinitions, ← Sql.render_commas]
  simp only [Sql.render_cons, Sql.render_append, String.append_assoc]
  rfl

/-! ## The configuration of the store -/

/-- A store over the new table, with defaults for all that the layout does not say. -/
def storeConfig (c : TableConfig) : StoreConfig where
  table := c.table
  schema := c.schema
  idColumn := c.idColumn
  contentColumn := c.contentColumn
  embeddingColumn := c.embeddingColumn
  metadataColumns := c.metadataColumns.map (·.name)
  overflowColumn := if c.storeMetadata then some c.overflowColumn else none

/-- A store reserves the same names as the table that it is configured for. -/
theorem reserved_storeConfig (c : TableConfig) : c.storeConfig.reserved = c.reserved := by
  unfold StoreConfig.reserved reserved storeConfig
  cases c.storeMetadata <;> rfl

/-- What is asked of a layout is enough for the store. -/
theorem Sound.storeConfig (h : c.Sound) : c.storeConfig.Sound := by
  obtain ⟨htable, hschema, hid, hcontent, hembedding, hoverflow, hmetadata⟩ :=
    forall_mem_names_iff.mp h.names
  refine {
    lists := .inr rfl
    names := ?_
    distinct := ?_
    limit_ne_zero := StoreConfig.default_in_range.1
    limit_le := StoreConfig.default_in_range.2.1
    lambda := StoreConfig.default_in_range.2.2 }
  · refine StoreConfig.forall_mem_names_iff.mpr ⟨htable, hschema, hid, hcontent, hembedding, ?_,
      ?_, nofun⟩
    · intro name hname
      -- A JSON column that the table lacks has no name here, though the layout has one for it.
      unfold TableConfig.storeConfig at hname
      dsimp only at hname
      split at hname
      · obtain rfl := List.mem_singleton.mp hname
        exact hoverflow
      · exact absurd hname List.not_mem_nil
    · exact List.forall_mem_map.mpr hmetadata
  · rw [reserved_storeConfig]
    exact h.distinct

/-- A new table has the columns of its roles first, and then those of metadata; the one for other
metadata comes last, if there is one. -/
theorem map_name_declarations (c : TableConfig) :
    c.declarations.map (·.name) =
      [c.idColumn, c.contentColumn, c.embeddingColumn] ++ c.metadataColumns.map (·.name) ++
        if c.storeMetadata then [c.overflowColumn] else [] := by
  have hmetadata : (c.metadataColumns.map MetadataColumn.declaration).map (·.name) =
      c.metadataColumns.map (·.name) := by
    rw [List.map_map]
    rfl
  unfold declarations
  rw [List.map_append, List.map_append, hmetadata]
  cases c.storeMetadata <;> rfl

/-- The columns of the new table have different names. -/
theorem Sound.nodup_declarations (h : c.Sound) : (c.declarations.map (·.name)).Nodup := by
  have hdistinct := h.distinct
  have hreserved : c.reserved.map (·.2) =
      [c.idColumn, c.contentColumn, c.embeddingColumn] ++
        if c.storeMetadata then [c.overflowColumn] else [] := by
    unfold reserved
    cases c.storeMetadata <;> rfl
  -- The statement has the JSON column last, the check has it before the metadata columns.
  rw [map_name_declarations, List.append_assoc]
  rw [hreserved, List.append_assoc] at hdistinct
  exact (List.perm_append_comm.append_left _).nodup_iff.mp hdistinct

/-! ## The table -/

/-- The columns of the new table as the database reports them, where those of the metadata may be
of any type. -/
def reported (c : TableConfig) (metadata : List Column) : List Column :=
  [⟨c.idColumn, "uuid", "uuid", -1⟩, ⟨c.contentColumn, "text", "text", -1⟩,
    .ofVector c.embeddingColumn c.vectorSize] ++ metadata ++
    if c.storeMetadata then [⟨c.overflowColumn, "json", "json", -1⟩] else []

/-- The database reports the columns under the names that they were declared with. -/
theorem map_name_reported {metadata : List Column}
    (hmetadata : metadata.map (·.name) = c.metadataColumns.map (·.name)) :
    (c.reported metadata).map (·.name) = c.declarations.map (·.name) := by
  unfold reported
  rw [map_name_declarations, List.map_append, List.map_append, hmetadata]
  cases c.storeMetadata <;> rfl

/-- The names of a new table are distinct, whichever types the database reports. -/
theorem Sound.nodup_reported (h : c.Sound) {metadata : List Column}
    (hmetadata : metadata.map (·.name) = c.metadataColumns.map (·.name)) :
    ((c.reported metadata).map (·.name)).Nodup := by
  rw [map_name_reported hmetadata]
  exact h.nodup_declarations

/-- The catalog of the new table. -/
def catalog (c : TableConfig) (metadata : List Column) : Catalog where
  schema := c.schema
  table := c.table
  columns := c.reported metadata
  id := ⟨c.idColumn, "uuid", "uuid", -1⟩
  content := ⟨c.contentColumn, "text", "text", -1⟩
  embedding := .ofVector c.embeddingColumn c.vectorSize
  metadata := metadata
  overflow := if c.storeMetadata then some ⟨c.overflowColumn, "json", "json", -1⟩ else none

/-- An insert into the new table writes all its columns, in their order. -/
theorem insertColumns_catalog (metadata : List Column) :
    (c.catalog metadata).insertColumns = c.reported metadata := by
  unfold Catalog.insertColumns catalog reported
  cases c.storeMetadata <;> rfl

/-- The column for other metadata is the one of the reported columns that the store is configured
with. -/
theorem overflow_catalog_iff {metadata : List Column}
    (hdistinct : ((c.reported metadata).map (·.name)).Nodup) (found : Column) :
    (c.catalog metadata).overflow = some found ↔
      found ∈ c.reported metadata ∧ c.storeConfig.overflowColumn = some found.name := by
  unfold catalog storeConfig
  dsimp only
  by_cases hstore : c.storeMetadata = true
  · rw [if_pos hstore, if_pos hstore, Option.some.injEq, Option.some.injEq]
    have hjson : (⟨c.overflowColumn, "json", "json", -1⟩ : Column) ∈ c.reported metadata := by
      unfold reported
      rw [if_pos hstore]
      exact List.mem_append_right _ List.mem_cons_self
    constructor
    · rintro rfl
      exact ⟨hjson, rfl⟩
    · rintro ⟨hfound, hname⟩
      -- No other reported column has the configured name.
      exact List.inj_on_of_nodup_map hdistinct hjson hfound hname
  · rw [if_neg hstore, if_neg hstore]
    exact iff_of_false nofun fun h => by cases h.2

/-- The catalog of a new table describes the columns that the database reports. -/
theorem describes_catalog (h : c.Sound) {metadata : List Column}
    (hmetadata : metadata.map (·.name) = c.metadataColumns.map (·.name)) :
    Catalog.Describes c.storeConfig (c.reported metadata) (c.catalog metadata) := by
  have hmem : ∀ found ∈ metadata, found ∈ c.reported metadata := by
    intro found hfound
    exact List.mem_append_left _ (List.mem_append_right _ hfound)
  exact {
    schema := rfl
    table := rfl
    layout := rfl
    id := ⟨by simp [catalog, reported], rfl⟩
    content := ⟨by simp [catalog, reported], rfl⟩
    content_kind := rfl
    embedding := ⟨by simp [catalog, reported], rfl⟩
    embedding_kind := rfl
    overflow := overflow_catalog_iff (h.nodup_reported hmetadata)
    listed := fun _ => ⟨hmetadata, hmem⟩
    -- No columns are excluded by default.
    excluded := fun hne => absurd rfl hne }

/-! ## The store -/

/-- **A table that is made can be opened.** The statement that makes it declares different columns.
A store with the names of the layout is accepted, verified against these columns, and opened where
the database reports them; it knows the dimension and writes the columns in their order. -/
theorem created_table_opens (hvalid : c.validate = .ok ())
    (hsize : c.vectorSize.toNat < 0x80000000) :
    c.createStatements.getLast?.map Sql.render =
        some ("CREATE TABLE " ++ (Sql.qualified c.schema c.table).render ++ " (" ++
          ", ".intercalate (c.declarations.map Declaration.text) ++ ")") ∧
      (c.declarations.map (·.name)).Nodup ∧
      c.storeConfig.validate = .ok () ∧
      ∀ metadata : List Column, metadata.map (·.name) = c.metadataColumns.map (·.name) →
        (c.reported metadata).map (·.name) = c.declarations.map (·.name) ∧
        ∃ catalog, Catalog.verify c.storeConfig (c.reported metadata) = .ok catalog ∧
          catalog.insertColumns = c.reported metadata ∧
          catalog.dimension? = some c.vectorSize.toNat ∧
          ∀ (db : Database) (sent generated affected : Nat),
            db.answer sent (.select (Store.introspection c.storeConfig)) =
                .ok ⟨(c.reported metadata).map Column.reported, affected⟩ →
              ((Store.openTable c.storeConfig).run db sent generated).result =
                .ok ⟨c.storeConfig, catalog⟩ := by
  have hsound : c.Sound := validate_eq_ok_iff.mp hvalid
  have hconfig : c.storeConfig.validate = .ok () :=
    StoreConfig.validate_eq_ok_iff.mpr hsound.storeConfig
  refine ⟨getLast?_createStatements, hsound.nodup_declarations, hconfig, ?_⟩
  intro metadata hmetadata
  have hlists := StoreConfig.checkColumnLists_of_validate hconfig
  -- What is reported passes the verification, because the catalog describes it.
  have hverify : Catalog.verify c.storeConfig (c.reported metadata) = .ok (c.catalog metadata) :=
    Catalog.verify_of_describes hlists (hsound.nodup_reported hmetadata)
      (describes_catalog hsound hmetadata)
  refine ⟨map_name_reported hmetadata, c.catalog metadata, hverify, insertColumns_catalog metadata,
    Column.dimension?_ofVector hsound.size_ne_zero hsize, ?_⟩
  intro db sent generated affected hanswer
  exact Store.openTable_ok_iff.mpr ⟨rfl, hconfig, _, c.reported metadata, hanswer,
    Store.mapM_columnOfRow_reported _, hverify⟩

end TableConfig

/-- The layout of the table of notes. -/
def TableConfig.notes : TableConfig where
  table := "notes"
  vectorSize := 2
  metadataColumns := [⟨"page", "INTEGER", true⟩]
  storeMetadata := true

/-- The hypotheses can be met by a layout with a metadata column and a JSON column. -/
theorem TableConfig.created_table_opens_notes :
    notes.validate = .ok () ∧ notes.vectorSize.toNat < 0x80000000 ∧
      [Column.notesPage].map (·.name) = notes.metadataColumns.map (·.name) ∧
      notes.createStatements.getLast?.map Sql.render =
        some ("CREATE TABLE " ++ (Sql.qualified "public" "notes").render ++ " (" ++
          ", ".intercalate (notes.declarations.map Declaration.text) ++ ")") ∧
      (notes.declarations.map (·.name)).Nodup ∧
      notes.storeConfig.validate = .ok () ∧
      (notes.reported [.notesPage]).map (·.name) = notes.declarations.map (·.name) ∧
      ∃ catalog, Catalog.verify notes.storeConfig (notes.reported [.notesPage]) = .ok catalog ∧
        catalog.insertColumns = notes.reported [.notesPage] ∧
        catalog.dimension? = some 2 ∧
        ∃ db : Database,
          db.answer 0 (.select (Store.introspection notes.storeConfig)) =
            .ok ⟨(notes.reported [.notesPage]).map Column.reported, 0⟩ ∧
          ((Store.openTable notes.storeConfig).run db 0 0).result =
            .ok ⟨notes.storeConfig, catalog⟩ := by
  have hvalid : notes.validate = .ok () := by rfl
  have hsize : notes.vectorSize.toNat < 0x80000000 := by decide
  have hnames : [Column.notesPage].map (·.name) = notes.metadataColumns.map (·.name) := by rfl
  obtain ⟨htext, hnodup, hconfig, htable⟩ := TableConfig.created_table_opens hvalid hsize
  obtain ⟨hsame, catalog, hverify, hinsert, hdimension, hopen⟩ := htable [.notesPage] hnames
  -- A database in which the table has been made.
  let db : Database :=
    .answering (fun _ _ => ⟨(notes.reported [.notesPage]).map Column.reported, 0⟩)
      fun _ => ⟨List.replicate 32 0, rfl⟩
  exact ⟨hvalid, hsize, hnames, htext, hnodup, hconfig, hsame, catalog, hverify, hinsert,
    hdimension, db, rfl, hopen db 0 0 0 rfl⟩

end VectorTable
