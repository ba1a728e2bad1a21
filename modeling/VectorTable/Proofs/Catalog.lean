import VectorTable.Catalog
import VectorTable.Proofs.Config.Validation

/-!
# VectorTable — verified catalogs

In a verified catalog every column has one role: no two of the columns that an insert writes have
the same name.

* `Catalog.findRoles_eq_ok_iff` — which columns have a role;
* `Catalog.Roles.Found` — where the columns with a role stand;
* `Catalog.nodup_insertColumns` — the columns of an insert differ.
-/

namespace VectorTable

namespace Catalog

/-! ## Finding columns -/

/-- A column that is found by its name stands at the position that is given with it. -/
theorem lastNamed?_eq_some {columns : List Column} {name : String} {c : Column} {i : Nat}
    (h : lastNamed? columns name = some (c, i)) : columns[i]? = some c ∧ c.name = name := by
  have hmem := List.mem_of_find?_eq_some h
  have hname := List.find?_some h
  exact ⟨List.mem_zipIdx_iff_getElem?.mp (List.mem_reverse.mp hmem), of_decide_eq_true hname⟩

/-- The column of a key is a metadata column of that name. -/
theorem metadataColumn?_eq_some {catalog : Catalog} {key : String} {c : Column}
    (h : catalog.metadataColumn? key = some c) : c ∈ catalog.metadata ∧ c.name = key := by
  have hname := List.find?_some h
  exact ⟨List.mem_of_find?_eq_some h, of_decide_eq_true hname⟩

/-- A key has no column if and only if no metadata column has its name. -/
theorem metadataColumn?_eq_none_iff {catalog : Catalog} {key : String} :
    catalog.metadataColumn? key = none ↔ ∀ c ∈ catalog.metadata, c.name ≠ key := by
  simp [metadataColumn?]

variable {config : StoreConfig} {columns : List Column}

/-- What is found for a role has the configured name, and stands where it is said to. -/
theorem find_eq_ok {name role : String} {c : Column} {i : Nat}
    (h : find config columns name role = .ok (c, i)) : columns[i]? = some c ∧ c.name = name := by
  unfold find at h
  split at h <;> cases h
  rename_i hfound
  exact lastNamed?_eq_some hfound

/-- The columns that have a role, with their positions. -/
def Roles.all (r : Roles) : List (Column × Nat) :=
  [r.id, r.content, r.embedding] ++ r.overflow.toList

/-- The columns with a role stand at their positions and have the configured names, where a JSON
column that the table lacks is left out. -/
structure Roles.Found (config : StoreConfig) (columns : List Column) (r : Roles) : Prop where
  positions : ∀ found ∈ r.all, columns[found.2]? = some found.1
  names : (r.all.map (·.1.name)).Sublist (config.reserved.map (·.2))

/-- Which columns have a role: each is found by its name, and its type suits the role. -/
theorem findRoles_eq_ok_iff {roles : Roles} :
    findRoles config columns = .ok roles ↔
      config.checkColumnLists = .ok () ∧ columns ≠ [] ∧
      find config columns config.idColumn "id" = .ok roles.id ∧
      find config columns config.contentColumn "content" = .ok roles.content ∧
      roles.content.1.kind = .text ∧
      find config columns config.embeddingColumn "embedding" = .ok roles.embedding ∧
      roles.embedding.1.kind = .vector ∧
      roles.overflow = config.overflowColumn.bind (lastNamed? columns) := by
  unfold findRoles
  -- The checks come first, and then one look-up for each role, in the order of the roles.
  simp only [check_bind_eq_ok, throw_bind_eq_ok]
  constructor
  · rintro ⟨hlists, hcolumns, h⟩
    obtain ⟨id, hid, h⟩ := bind_eq_ok.mp h
    obtain ⟨content, hcontent, h⟩ := bind_eq_ok.mp h
    obtain ⟨htext, h⟩ := throw_bind_eq_ok.mp h
    obtain ⟨embedding, hembedding, h⟩ := bind_eq_ok.mp h
    obtain ⟨hvector, h⟩ := throw_bind_eq_ok.mp h
    cases h
    refine ⟨hlists, ?_, hid, hcontent, ?_, hembedding, not_not.mp hvector, rfl⟩
    · simpa using hcolumns
    · simpa [Column.isCharacterString] using htext
  · rintro ⟨hlists, hcolumns, hid, hcontent, htext, hembedding, hvector, hoverflow⟩
    refine ⟨hlists, by simpa using hcolumns, ?_⟩
    refine bind_eq_ok.mpr ⟨_, hid, bind_eq_ok.mpr ⟨_, hcontent, ?_⟩⟩
    refine throw_bind_eq_ok.mpr ⟨by simpa [Column.isCharacterString] using htext, ?_⟩
    refine bind_eq_ok.mpr ⟨_, hembedding, throw_bind_eq_ok.mpr ⟨not_not_intro hvector, ?_⟩⟩
    rw [← hoverflow]
    rfl

/-- Where all roles are found, each of them is found under its configured name. -/
theorem found_of_findRoles {roles : Roles} (h : findRoles config columns = .ok roles) :
    roles.Found config columns := by
  obtain ⟨-, -, hid, hcontent, -, hembedding, -, hlast⟩ := findRoles_eq_ok_iff.mp h
  obtain ⟨hid, hidName⟩ := find_eq_ok hid
  obtain ⟨hcontent, hcontentName⟩ := find_eq_ok hcontent
  obtain ⟨hembedding, hembeddingName⟩ := find_eq_ok hembedding
  have hoverflow : ∀ found, roles.overflow = some found →
      columns[found.2]? = some found.1 ∧ config.overflowColumn = some found.1.name := by
    intro found hfound
    obtain ⟨name, hname, hlast⟩ := Option.bind_eq_some_iff.mp (hlast.symm.trans hfound)
    obtain ⟨hposition, hfoundName⟩ := lastNamed?_eq_some hlast
    exact ⟨hposition, by rw [hname, hfoundName]⟩
  constructor
  case positions =>
    -- The JSON column, if any, comes after the three that every table has.
    intro found hfound
    simp only [Roles.all, List.mem_append, List.mem_cons, List.not_mem_nil, or_false,
      Option.mem_toList] at hfound
    rcases hfound with (rfl | rfl | rfl) | hfound
    · exact hid
    · exact hcontent
    · exact hembedding
    · exact (hoverflow found hfound).1
  case names =>
    simp only [Roles.all, StoreConfig.reserved, List.map_append, List.map_cons, List.map_nil,
      hidName, hcontentName, hembeddingName]
    refine (List.Sublist.refl _).append ?_
    -- A JSON column that is configured but missing makes the list shorter, not different.
    cases hfound : roles.overflow with
    | none => exact List.nil_sublist _
    | some found =>
      rw [(hoverflow found hfound).2]
      exact List.Sublist.refl _

/-! ## Distinct columns -/

variable {roles : Roles} {metadata : List Column}

/-- Columns that are found for a list of names have these names, in this order. -/
theorem names_of_mapM_find {names : List String}
    (h : names.mapM (fun name => (find config columns name "metadata").map (·.1)) = .ok metadata) :
    metadata.map (·.name) = names := by
  have hfound := mapM_eq_ok_iff.mp h
  clear h
  induction hfound with
  | nil => rfl
  | cons hname _ ih =>
    obtain ⟨⟨c, i⟩, hfind, rfl⟩ := map_eq_ok.mp hname
    rw [List.map_cons, ih, (find_eq_ok hfind).2]

/-- Columns of the same name stand at the same position. -/
theorem position_unique (hdistinct : (columns.map (·.name)).Nodup) {c c' : Column} {i j : Nat}
    (hc : columns[i]? = some c) (hc' : columns[j]? = some c') (hname : c.name = c'.name) :
    i = j := by
  have hlength : i < (columns.map (·.name)).length := by
    rw [List.length_map]
    exact (List.getElem?_eq_some_iff.mp hc).1
  refine (List.getElem?_inj hlength hdistinct).mp ?_
  rw [List.getElem?_map, List.getElem?_map, hc, hc', Option.map_some, Option.map_some, hname]

/-- The positions of the roles, in the order in which their columns are listed. -/
theorem Roles.positions_eq (r : Roles) : r.positions = r.all.map (·.2) := by
  simp [positions, all]

/-- A column that is none of the columns with a role has none of their names. -/
theorem disjoint_names (hdistinct : (columns.map (·.name)).Nodup)
    (hroles : roles.Found config columns) {c : Column} {i : Nat} (hc : columns[i]? = some c)
    (hi : i ∉ roles.positions) : c.name ∉ roles.all.map (·.1.name) := by
  intro hmem
  obtain ⟨found, hfound, hname⟩ := List.mem_map.mp hmem
  -- Names do not repeat, so the columns would stand at one position.
  have hsame : i = found.2 :=
    position_unique hdistinct hc (hroles.positions found hfound) hname.symm
  rw [roles.positions_eq] at hi
  exact hi (hsame ▸ List.mem_map_of_mem hfound)

/-- The names of the columns with a role and of the metadata columns are pairwise different. -/
theorem nodup_names (hvalid : config.validate = .ok ())
    (hdistinct : (columns.map (·.name)).Nodup) (hroles : roles.Found config columns)
    (h : findMetadata config columns roles = .ok metadata) :
    (roles.all.map (·.1.name) ++ metadata.map (·.name)).Nodup := by
  have hconfig := (StoreConfig.validate_eq_ok_iff.mp hvalid).distinct
  unfold findMetadata at h
  split at h
  -- Configured metadata columns: the settings themselves name every column once.
  · rw [names_of_mapM_find h]
    exact hconfig.sublist (hroles.names.append (List.Sublist.refl _))
  -- All other columns of the table: they differ because the table's columns do.
  · cases h
    have hsub (p : Column × Nat → Bool) :
        (((columns.zipIdx.filter p).map (·.1)).map (·.name)).Sublist (columns.map (·.name)) := by
      have hall := (List.filter_sublist (p := p) (l := columns.zipIdx)).map
        (fun found : Column × Nat => found.1)
      rw [List.zipIdx_map_fst] at hall
      exact hall.map _
    refine List.nodup_append.mpr ⟨?_, hdistinct.sublist (hsub _), ?_⟩
    · exact (List.nodup_append.mp hconfig).1.sublist hroles.names
    · intro name hrole name' hmetadata hsame
      subst hsame
      obtain ⟨c, hc, rfl⟩ := List.mem_map.mp hmetadata
      obtain ⟨⟨c', i⟩, hmem, rfl⟩ := List.mem_map.mp hc
      obtain ⟨hzip, hkeep⟩ := List.mem_filter.mp hmem
      exact disjoint_names hdistinct hroles (List.mem_zipIdx_iff_getElem?.mp hzip)
        (of_decide_eq_true hkeep).1 hrole

/-- **Every column has one role.** No two of the columns that an insert writes have the same
name. -/
theorem nodup_insertColumns {catalog : Catalog} (hvalid : config.validate = .ok ())
    (hdistinct : (columns.map (·.name)).Nodup) (h : verify config columns = .ok catalog) :
    (catalog.insertColumns.map (·.name)).Nodup := by
  obtain ⟨roles, hroles, h⟩ := bind_eq_ok.mp h
  obtain ⟨metadata, hmetadata, h⟩ := bind_eq_ok.mp h
  cases h
  have hnodup := nodup_names hvalid hdistinct (found_of_findRoles hroles) hmetadata
  -- An insert lists the JSON column last, behind the metadata columns.
  simp only [Roles.all, List.map_append, List.append_assoc] at hnodup
  have hswap : (roles.overflow.toList.map (·.1.name) ++ metadata.map (·.name)).Perm
      (metadata.map (·.name) ++ roles.overflow.toList.map (·.1.name)) := List.perm_append_comm
  have hcolumns := (hswap.append_left _).nodup_iff.mp hnodup
  rw [insertColumns, List.map_append, List.map_append, List.append_assoc, Option.toList_map,
    List.map_map]
  exact hcolumns

/-- A metadata column is found under its name. -/
theorem metadataColumn?_name {catalog : Catalog} (hvalid : config.validate = .ok ())
    (hdistinct : (columns.map (·.name)).Nodup) (h : verify config columns = .ok catalog)
    {c : Column} (hc : c ∈ catalog.metadata) : catalog.metadataColumn? c.name = some c := by
  have hnodup : (catalog.metadata.map (·.name)).Nodup := by
    refine (nodup_insertColumns hvalid hdistinct h).sublist (List.Sublist.map _ ?_)
    exact (List.sublist_append_right _ _).trans (List.sublist_append_left _ _)
  cases hfound : catalog.metadataColumn? c.name with
  | none =>
    have hne := List.find?_eq_none.mp hfound c hc
    exact absurd (decide_eq_true rfl) hne
  | some c' =>
    obtain ⟨hmem, hname⟩ := metadataColumn?_eq_some hfound
    rw [List.inj_on_of_nodup_map hnodup hmem hc hname]

end Catalog

/-! ## A table of notes -/

/-- A table whose notes have a page of their own and anything else in the JSON column. -/
def StoreConfig.notes : StoreConfig := { table := "notes", metadataColumns := ["page"] }

theorem StoreConfig.validate_notes : StoreConfig.notes.validate = .ok () := by
  have hlambda : StoreConfig.notes.lambdaInRange = true := default_in_range.2.2
  unfold validate
  rw [hlambda]
  rfl

def Column.notesId : Column := ⟨"id", "uuid", "uuid", -1⟩
def Column.notesContent : Column := ⟨"content", "text", "text", -1⟩
def Column.notesEmbedding : Column := ⟨"embedding", "vector(2)", "vector", 2⟩
def Column.notesPage : Column := ⟨"page", "integer", "int4", -1⟩
def Column.notesMetadata : Column := ⟨"metadata_json", "json", "json", -1⟩

def Catalog.notes : Catalog where
  schema := "public"
  table := "notes"
  columns := [.notesId, .notesContent, .notesEmbedding, .notesPage, .notesMetadata]
  id := .notesId
  content := .notesContent
  embedding := .notesEmbedding
  metadata := [.notesPage]
  overflow := some .notesMetadata

example : Catalog.verify .notes Catalog.notes.columns = .ok .notes := by rfl

end VectorTable
