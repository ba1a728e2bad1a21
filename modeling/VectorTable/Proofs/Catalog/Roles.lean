import VectorTable.Proofs.Catalog

/-!
# VectorTable — the roles of columns

Where the columns of a table have different names, a verified catalog can be described without the
way in which it is found: positions in the list of columns play no part.

* `Catalog.Describes` — what a catalog says about a table;
* `Catalog.verify_eq_ok_iff` — verification finds the catalog that describes the table, if any;
* `Catalog.verify_assigns_roles` — each column has one role, and is found by its name.
-/

namespace VectorTable

namespace Catalog

variable {config : StoreConfig} {columns : List Column}

/-! ## Columns by their names -/

section

variable (hdistinct : (columns.map (·.name)).Nodup)

include hdistinct

/-- Where names are distinct, a column is found if and only if it stands at the position and has the
name. -/
theorem lastNamed?_eq_some_iff {name : String} {c : Column} {i : Nat} :
    lastNamed? columns name = some (c, i) ↔ columns[i]? = some c ∧ c.name = name := by
  constructor
  · exact lastNamed?_eq_some
  · rintro ⟨hc, hname⟩
    cases hfound : lastNamed? columns name with
    | none =>
      -- The scan would have come by the column.
      have hmem : (c, i) ∈ columns.zipIdx.reverse :=
        List.mem_reverse.mpr (List.mem_zipIdx_iff_getElem?.mpr hc)
      have hne := List.find?_eq_none.mp hfound (c, i) hmem
      exact absurd (decide_eq_true hname) hne
    | some found =>
      obtain ⟨c', j⟩ := found
      obtain ⟨hc', hname'⟩ := lastNamed?_eq_some hfound
      obtain rfl := position_unique hdistinct hc hc' (hname.trans hname'.symm)
      rw [hc] at hc'
      obtain rfl := Option.some.inj hc'
      rfl

/-- The last column with a name is the only one. -/
theorem map_lastNamed?_eq_some_iff {name : String} {c : Column} :
    (lastNamed? columns name).map (·.1) = some c ↔ c ∈ columns ∧ c.name = name := by
  rw [Option.map_eq_some_iff]
  constructor
  · rintro ⟨⟨c, i⟩, hfound, rfl⟩
    obtain ⟨hc, hname⟩ := lastNamed?_eq_some hfound
    exact ⟨List.mem_of_getElem? hc, hname⟩
  · rintro ⟨hmem, hname⟩
    obtain ⟨i, hc⟩ := List.mem_iff_getElem?.mp hmem
    exact ⟨(c, i), (lastNamed?_eq_some_iff hdistinct).mpr ⟨hc, hname⟩, rfl⟩

/-- Finding the column of a name is finding a column that has it. -/
theorem map_find_eq_ok_iff {name role : String} {c : Column} :
    (find config columns name role).map (·.1) = .ok c ↔ c ∈ columns ∧ c.name = name := by
  rw [← map_lastNamed?_eq_some_iff hdistinct]
  unfold find
  cases lastNamed? columns name with
  | none =>
    refine iff_of_false ?_ ?_
    · intro h
      cases h
    · intro h
      cases h
  | some found => exact ⟨fun h => congrArg some (Except.ok.inj h),
      fun h => congrArg Except.ok (Option.some.inj h)⟩

/-- The JSON column is the one with the configured name, if the table has it. -/
theorem map_overflow_eq_some_iff {c : Column} :
    (config.overflowColumn.bind (lastNamed? columns)).map (·.1) = some c ↔
      c ∈ columns ∧ config.overflowColumn = some c.name := by
  rw [Option.map_bind, Option.bind_eq_some_iff]
  constructor
  · rintro ⟨name, hname, hfound⟩
    obtain ⟨hmem, rfl⟩ := (map_lastNamed?_eq_some_iff hdistinct).mp hfound
    exact ⟨hmem, hname⟩
  · rintro ⟨hmem, hname⟩
    exact ⟨c.name, hname, (map_lastNamed?_eq_some_iff hdistinct).mpr ⟨hmem, rfl⟩⟩

/-! ## Metadata columns -/

/-- Where metadata columns are listed, they are columns of the table with these names. -/
theorem mapM_find_eq_ok_iff {names : List String} {metadata : List Column} :
    names.mapM (fun name => (find config columns name "metadata").map (·.1)) = .ok metadata ↔
      metadata.map (·.name) = names ∧ ∀ c ∈ metadata, c ∈ columns := by
  rw [mapM_eq_ok_iff]
  simp only [map_find_eq_ok_iff hdistinct]
  induction metadata generalizing names with
  | nil =>
    rw [List.forall₂_nil_right_iff, List.map_nil]
    exact ⟨fun h => ⟨h.symm, nofun⟩, fun h => h.1.symm⟩
  | cons c metadata ih =>
    rw [List.forall₂_cons_right_iff, List.map_cons, List.forall_mem_cons]
    constructor
    · rintro ⟨name, rest, ⟨hc, rfl⟩, hrest, rfl⟩
      obtain ⟨hnames, hall⟩ := ih.mp hrest
      exact ⟨by rw [hnames], hc, hall⟩
    · rintro ⟨rfl, hc, hall⟩
      exact ⟨c.name, _, ⟨hc, rfl⟩, ih.mpr ⟨rfl, hall⟩, rfl⟩

/-- A column stands at one of the positions with a role exactly if it has that role. -/
theorem mem_positions_iff {roles : Roles}
    (hpositions : ∀ found ∈ roles.all, columns[found.2]? = some found.1) {c : Column} {i : Nat}
    (hc : columns[i]? = some c) : i ∈ roles.positions ↔ c ∈ roles.all.map (·.1) := by
  rw [roles.positions_eq]
  constructor
  · intro hi
    obtain ⟨found, hfound, rfl⟩ := List.mem_map.mp hi
    rw [hpositions found hfound] at hc
    obtain rfl := Option.some.inj hc
    exact List.mem_map_of_mem hfound
  · intro hmem
    obtain ⟨found, hfound, rfl⟩ := List.mem_map.mp hmem
    -- A name that stands at two positions would stand there twice, so that the position is the
    -- same.
    rw [position_unique hdistinct hc (hpositions found hfound) rfl]
    exact List.mem_map_of_mem hfound

/-- Where metadata columns are excluded, they are all that remain. -/
theorem filter_positions_eq {roles : Roles}
    (hpositions : ∀ found ∈ roles.all, columns[found.2]? = some found.1) :
    (columns.zipIdx.filter fun (c, i) =>
        i ∉ roles.positions ∧ c.name ∉ config.ignoredColumns).map (·.1) =
      columns.filter fun c => c ∉ roles.all.map (·.1) ∧ c.name ∉ config.ignoredColumns := by
  -- The code filters by position and the description by column; where names are distinct this is
  -- the same.
  have hsame : ∀ found ∈ columns.zipIdx,
      decide (found.2 ∉ roles.positions ∧ found.1.name ∉ config.ignoredColumns) =
        decide (found.1 ∉ roles.all.map (·.1) ∧ found.1.name ∉ config.ignoredColumns) := by
    rintro ⟨c, i⟩ hfound
    have hc : columns[i]? = some c := List.mem_zipIdx_iff_getElem?.mp hfound
    simp only [mem_positions_iff hdistinct hpositions hc]
  rw [List.filter_congr hsame]
  conv_rhs => rw [← List.zipIdx_map_fst 0 columns, List.filter_map]
  rfl

end

/-! ## What a catalog says -/

/-- The columns of a catalog that are not metadata columns. -/
def withRole (c : Catalog) : List Column :=
  [c.id, c.content, c.embedding] ++ c.overflow.toList

/-- What a catalog says about a table whose columns have different names. -/
structure Describes (config : StoreConfig) (columns : List Column) (catalog : Catalog) : Prop where
  schema : catalog.schema = config.schema
  table : catalog.table = config.table
  layout : catalog.columns = columns
  id : catalog.id ∈ columns ∧ catalog.id.name = config.idColumn
  content : catalog.content ∈ columns ∧ catalog.content.name = config.contentColumn
  content_kind : catalog.content.kind = .text
  embedding : catalog.embedding ∈ columns ∧ catalog.embedding.name = config.embeddingColumn
  embedding_kind : catalog.embedding.kind = .vector
  /-- There is a JSON column exactly if the table has a column of the configured name. -/
  overflow : ∀ c, catalog.overflow = some c ↔ c ∈ columns ∧ config.overflowColumn = some c.name
  /-- Metadata columns that are listed come in the order of the list. -/
  listed : config.ignoredColumns = [] →
    catalog.metadata.map (·.name) = config.metadataColumns ∧ ∀ c ∈ catalog.metadata, c ∈ columns
  /-- Where columns are excluded, the others come in the order of the table. -/
  excluded : config.ignoredColumns ≠ [] →
    catalog.metadata = columns.filter fun c =>
      c ∉ catalog.withRole ∧ c.name ∉ config.ignoredColumns

/-- The metadata columns are those that are listed or, where some are excluded instead, all that
have no role and are not excluded. -/
theorem findMetadata_eq_ok_iff (hdistinct : (columns.map (·.name)).Nodup) {roles : Roles}
    (hpositions : ∀ found ∈ roles.all, columns[found.2]? = some found.1)
    {metadata : List Column} :
    findMetadata config columns roles = .ok metadata ↔
      (config.ignoredColumns = [] →
        metadata.map (·.name) = config.metadataColumns ∧ ∀ c ∈ metadata, c ∈ columns) ∧
      (config.ignoredColumns ≠ [] →
        metadata = columns.filter fun c =>
          c ∉ roles.all.map (·.1) ∧ c.name ∉ config.ignoredColumns) := by
  unfold findMetadata
  split
  · -- Nothing is excluded, and the listed columns are looked up.
    rename_i hnone
    have hnil : config.ignoredColumns = [] := List.isEmpty_iff.mp hnone
    rw [mapM_find_eq_ok_iff hdistinct]
    exact ⟨fun h => ⟨fun _ => h, fun hne => absurd hnil hne⟩, fun h => h.1 hnil⟩
  · -- All columns without a role are taken, and none is looked up.
    rename_i hsome
    have hne : config.ignoredColumns ≠ [] := fun hnil => hsome (List.isEmpty_iff.mpr hnil)
    rw [filter_positions_eq hdistinct hpositions, Except.ok.injEq, eq_comm]
    exact ⟨fun h => ⟨fun hnil => absurd hnil hne, fun _ => h⟩, fun h => h.2 hne⟩

/-- A catalog takes its roles from what was found, and its metadata columns from the rest. -/
theorem ofRoles_eq_ok_iff {roles : Roles} {catalog : Catalog} :
    ofRoles config columns roles = .ok catalog ↔
      findMetadata config columns roles = .ok catalog.metadata ∧
      catalog.schema = config.schema ∧ catalog.table = config.table ∧
      catalog.columns = columns ∧ catalog.id = roles.id.1 ∧
      catalog.content = roles.content.1 ∧ catalog.embedding = roles.embedding.1 ∧
      catalog.overflow = roles.overflow.map (·.1) := by
  unfold ofRoles
  rw [bind_eq_ok]
  constructor
  · rintro ⟨metadata, hmetadata, h⟩
    cases h
    exact ⟨hmetadata, rfl, rfl, rfl, rfl, rfl, rfl, rfl⟩
  · rintro ⟨hmetadata, hschema, htable, hcolumns, hid, hcontent, hembedding, hoverflow⟩
    refine ⟨catalog.metadata, hmetadata, ?_⟩
    rw [← hschema, ← htable, ← hcolumns, ← hid, ← hcontent, ← hembedding, ← hoverflow]
    rfl

/-- The columns that have a role in the catalog are those that were found for the roles. -/
theorem all_eq_withRole {roles : Roles} {catalog : Catalog} (hid : catalog.id = roles.id.1)
    (hcontent : catalog.content = roles.content.1)
    (hembedding : catalog.embedding = roles.embedding.1)
    (hoverflow : catalog.overflow = roles.overflow.map (·.1)) :
    roles.all.map (·.1) = catalog.withRole := by
  rw [withRole, hid, hcontent, hembedding, hoverflow, Roles.all, List.map_append,
    Option.toList_map]
  rfl

/-- What verification finds describes the table. -/
theorem describes_of_verify (hdistinct : (columns.map (·.name)).Nodup) {catalog : Catalog}
    (h : verify config columns = .ok catalog) : Describes config columns catalog := by
  obtain ⟨roles, hroles, h⟩ := bind_eq_ok.mp h
  obtain ⟨hmetadata, hschema, htable, hcolumns, hid, hcontent, hembedding, hoverflow⟩ :=
    ofRoles_eq_ok_iff.mp h
  rw [findMetadata_eq_ok_iff hdistinct (found_of_findRoles hroles).positions,
    all_eq_withRole hid hcontent hembedding hoverflow] at hmetadata
  obtain ⟨-, -, hidFound, hcontentFound, htext, hembeddingFound, hvector, hlast⟩ :=
    findRoles_eq_ok_iff.mp hroles
  -- Whatever is found for a role is described by its name alone.
  have hfound {name role : String} {found : Column × Nat}
      (h : find config columns name role = .ok found) :
      found.1 ∈ columns ∧ found.1.name = name :=
    (map_find_eq_ok_iff hdistinct).mp (map_eq_ok.mpr ⟨found, h, rfl⟩)
  exact {
    schema := hschema
    table := htable
    layout := hcolumns
    id := hid ▸ hfound hidFound
    content := hcontent ▸ hfound hcontentFound
    content_kind := hcontent ▸ htext
    embedding := hembedding ▸ hfound hembeddingFound
    embedding_kind := hembedding ▸ hvector
    overflow := by
      intro c
      rw [hoverflow, hlast]
      exact map_overflow_eq_some_iff hdistinct
    listed := hmetadata.1
    excluded := hmetadata.2 }

/-- What describes the table is found by verification. -/
theorem verify_of_describes (hlists : config.checkColumnLists = .ok ())
    (hdistinct : (columns.map (·.name)).Nodup) {catalog : Catalog}
    (h : Describes config columns catalog) : verify config columns = .ok catalog := by
  -- The columns with a role stand where they are found by their names.
  obtain ⟨id, hidFound, hid⟩ := map_eq_ok.mp ((map_find_eq_ok_iff hdistinct).mpr h.id)
  obtain ⟨content, hcontentFound, hcontent⟩ :=
    map_eq_ok.mp ((map_find_eq_ok_iff hdistinct).mpr h.content)
  obtain ⟨embedding, hembeddingFound, hembedding⟩ :=
    map_eq_ok.mp ((map_find_eq_ok_iff hdistinct).mpr h.embedding)
  let roles : Roles := ⟨id, content, embedding, config.overflowColumn.bind (lastNamed? columns)⟩
  have hoverflow : catalog.overflow = roles.overflow.map (·.1) :=
    Option.ext fun c => (h.overflow c).trans (map_overflow_eq_some_iff hdistinct).symm
  have hroles : findRoles config columns = .ok roles := by
    refine findRoles_eq_ok_iff.mpr ⟨hlists, List.ne_nil_of_mem h.id.1, hidFound, hcontentFound,
      ?_, hembeddingFound, ?_, rfl⟩
    · exact hcontent ▸ h.content_kind
    · exact hembedding ▸ h.embedding_kind
  have hmetadata : findMetadata config columns roles = .ok catalog.metadata := by
    rw [findMetadata_eq_ok_iff hdistinct (found_of_findRoles hroles).positions,
      all_eq_withRole hid.symm hcontent.symm hembedding.symm hoverflow]
    exact ⟨h.listed, h.excluded⟩
  exact bind_eq_ok.mpr ⟨roles, hroles, ofRoles_eq_ok_iff.mpr ⟨hmetadata, h.schema, h.table,
    h.layout, hid.symm, hcontent.symm, hembedding.symm, hoverflow⟩⟩

/-- **Verification** finds a catalog exactly if it describes the table. -/
theorem verify_eq_ok_iff (hlists : config.checkColumnLists = .ok ())
    (hdistinct : (columns.map (·.name)).Nodup) {catalog : Catalog} :
    verify config columns = .ok catalog ↔ Describes config columns catalog :=
  ⟨describes_of_verify hdistinct, verify_of_describes hlists hdistinct⟩

/-- **Every column has at most one role.** A catalog describes its table, no two of the columns
that an insert writes have the same name, and a column is found by its name. -/
theorem verify_assigns_roles {catalog : Catalog} (hvalid : config.validate = .ok ())
    (hdistinct : (columns.map (·.name)).Nodup) (h : verify config columns = .ok catalog) :
    Describes config columns catalog ∧
      (catalog.insertColumns.map (·.name)).Nodup ∧
      (∀ name c, catalog.column? name = some c ↔ c ∈ columns ∧ c.name = name) ∧
      ∀ name c, catalog.metadataColumn? name = some c ↔ c ∈ catalog.metadata ∧ c.name = name := by
  have hlists := StoreConfig.checkColumnLists_of_validate hvalid
  have hdescribes := (verify_eq_ok_iff hlists hdistinct).mp h
  refine ⟨hdescribes, nodup_insertColumns hvalid hdistinct h, ?_, ?_⟩
  · intro name c
    -- Of columns with distinct names the last with a name is the only one.
    rw [column?, hdescribes.layout]
    exact map_lastNamed?_eq_some_iff hdistinct
  · intro name c
    constructor
    · exact metadataColumn?_eq_some
    · rintro ⟨hc, rfl⟩
      exact metadataColumn?_name hvalid hdistinct h hc

end Catalog

/-! ## Notes with a draft mark -/

/-- Every column of the notes holds metadata but the mark of drafts. The id is excluded as well,
which it is in any case. -/
def StoreConfig.notesExcluding : StoreConfig :=
  { table := "notes", ignoredColumns := ["draft", "id"] }

theorem StoreConfig.validate_notesExcluding : StoreConfig.notesExcluding.validate = .ok () := by
  have hlambda : StoreConfig.notesExcluding.lambdaInRange = true := default_in_range.2.2
  unfold validate
  rw [hlambda]
  rfl

def Column.notesDraft : Column := ⟨"draft", "boolean", "bool", -1⟩

def Catalog.notesExcluding : Catalog :=
  { Catalog.notes with columns := .notesDraft :: Catalog.notes.columns }

/-- The hypotheses can be met with a list of excluded columns that names a column with a role. -/
theorem Catalog.verify_assigns_roles_excluding :
    StoreConfig.notesExcluding.validate = .ok () ∧
      (Catalog.notesExcluding.columns.map (·.name)).Nodup ∧
      Catalog.verify .notesExcluding Catalog.notesExcluding.columns = .ok .notesExcluding ∧
      Catalog.Describes .notesExcluding Catalog.notesExcluding.columns .notesExcluding ∧
      (Catalog.notesExcluding.insertColumns.map (·.name)).Nodup ∧
      (∀ name c, Catalog.notesExcluding.column? name = some c ↔
        c ∈ Catalog.notesExcluding.columns ∧ c.name = name) ∧
      ∀ name c, Catalog.notesExcluding.metadataColumn? name = some c ↔
        c ∈ Catalog.notesExcluding.metadata ∧ c.name = name := by
  have hdistinct : (Catalog.notesExcluding.columns.map (·.name)).Nodup := by decide
  have hverify : Catalog.verify .notesExcluding Catalog.notesExcluding.columns =
      .ok .notesExcluding := rfl
  exact ⟨StoreConfig.validate_notesExcluding, hdistinct, hverify,
    Catalog.verify_assigns_roles StoreConfig.validate_notesExcluding hdistinct hverify⟩

end VectorTable
