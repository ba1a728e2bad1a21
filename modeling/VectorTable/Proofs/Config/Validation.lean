import VectorTable.Config.Store
import VectorTable.Config.Table
import VectorTable.Proofs.Except
import VectorTable.Proofs.Identifier

/-!
# VectorTable — which configurations are accepted

A validation goes through a list of checks and stops at the first fault. Here its checks are put
together into what they ask for, without their order.

* `StoreConfig.validate_eq_ok_iff` — the configurations that a store accepts;
* `TableConfig.validate_eq_ok_iff` — the layouts that a table can be made with.
-/

namespace VectorTable

/-! ## Stores -/

namespace StoreConfig

/-- All names in a configuration, those of excluded columns included. -/
def names (c : StoreConfig) : List String :=
  [c.table, c.schema] ++ c.reserved.map (·.2) ++ c.metadataColumns ++ c.ignoredColumns

/-- All that can be asked of a configuration without the table. -/
structure Sound (c : StoreConfig) : Prop where
  lists : c.metadataColumns = [] ∨ c.ignoredColumns = []
  names : ∀ name ∈ c.names, Identifier.Sound name
  distinct : (c.reserved.map (·.2) ++ c.metadataColumns).Nodup
  limit_ne_zero : c.limit ≠ 0
  limit_le : c.limit ≤ c.fetchLimit
  lambda : c.lambdaInRange = true

/-- At most one of the two lists of columns may be given. -/
theorem checkColumnLists_eq_ok_iff {c : StoreConfig} :
    c.checkColumnLists = .ok () ↔ c.metadataColumns = [] ∨ c.ignoredColumns = [] := by
  unfold checkColumnLists
  split
  · rename_i h
    exact iff_of_true rfl (by simpa using h)
  · rename_i h
    exact iff_of_false nofun (by simpa using h)

/-- The names in a configuration of a store, one by one. -/
theorem forall_mem_names_iff {c : StoreConfig} {P : String → Prop} :
    (∀ name ∈ c.names, P name) ↔
      P c.table ∧ P c.schema ∧ P c.idColumn ∧ P c.contentColumn ∧ P c.embeddingColumn ∧
        (∀ name ∈ c.overflowColumn.toList, P name) ∧ (∀ name ∈ c.metadataColumns, P name) ∧
        ∀ name ∈ c.ignoredColumns, P name := by
  simp only [names, reserved, List.map_append, List.map_cons, List.map_nil, List.map_map,
    List.forall_mem_append, List.forall_mem_cons, List.forall_mem_map, List.not_mem_nil,
    false_implies, implies_true, Function.comp_apply, and_true, and_assoc]

/-- **A configuration is accepted** exactly if it is sound. -/
theorem validate_eq_ok_iff {c : StoreConfig} : c.validate = .ok () ↔ c.Sound := by
  unfold validate
  simp only [check_bind_eq_ok, throw_bind_eq_ok, throw_eq_ok_iff, checkColumnLists_eq_ok_iff,
    forM_eq_ok_iff, Identifier.check_eq_ok_iff, Identifier.checkDistinct_eq_ok_iff]
  -- Each check is now one condition, and the names come back as one list.
  constructor
  · rintro ⟨hlists, htable, hschema, hid, hcontent, hembedding, hoverflow, hmetadata, hignored,
      hdistinct, hlimit, hfetch, hlambda⟩
    refine ⟨hlists, ?_, hdistinct, hlimit, UInt64.not_lt.mp hfetch, ?_⟩
    · exact forall_mem_names_iff.mpr ⟨htable, hschema, hid, hcontent, hembedding, hoverflow,
        hmetadata, hignored⟩
    · simpa using hlambda
  · intro h
    obtain ⟨htable, hschema, hid, hcontent, hembedding, hoverflow, hmetadata, hignored⟩ :=
      forall_mem_names_iff.mp h.names
    refine ⟨h.lists, htable, hschema, hid, hcontent, hembedding, hoverflow, hmetadata, hignored,
      h.distinct, h.limit_ne_zero, UInt64.not_lt.mpr h.limit_le, ?_⟩
    simpa using h.lambda

/-- A configuration that is valid gives at most one of the two lists. -/
theorem checkColumnLists_of_validate {c : StoreConfig} (h : c.validate = .ok ()) :
    c.checkColumnLists = .ok () :=
  checkColumnLists_eq_ok_iff.mpr (validate_eq_ok_iff.mp h).lists

/-- The settings of a search are sound by default. -/
theorem default_in_range :
    ({} : StoreConfig).limit ≠ 0 ∧ ({} : StoreConfig).limit ≤ ({} : StoreConfig).fetchLimit ∧
      ({} : StoreConfig).lambdaInRange = true :=
  ⟨by decide, by decide, by decide +kernel⟩

end StoreConfig

/-! ## New tables -/

namespace TableConfig

/-- All names in a layout. That of the JSON column counts even where the table gets none. -/
def names (c : TableConfig) : List String :=
  [c.table, c.schema, c.idColumn, c.contentColumn, c.embeddingColumn, c.overflowColumn] ++
    c.metadataColumns.map (·.name)

/-- All that is asked of a layout. -/
structure Sound (c : TableConfig) : Prop where
  names : ∀ name ∈ c.names, Identifier.Sound name
  size_ne_zero : c.vectorSize ≠ 0
  types : ∀ m ∈ c.metadataColumns, Text.isBlankText m.dataType = false
  distinct : (c.reserved.map (·.2) ++ c.metadataColumns.map (·.name)).Nodup

/-- The names in a configuration of a table, one by one. -/
theorem forall_mem_names_iff {c : TableConfig} {P : String → Prop} :
    (∀ name ∈ c.names, P name) ↔
      P c.table ∧ P c.schema ∧ P c.idColumn ∧ P c.contentColumn ∧ P c.embeddingColumn ∧
        P c.overflowColumn ∧ ∀ m ∈ c.metadataColumns, P m.name := by
  simp only [names, List.forall_mem_append, List.forall_mem_cons, List.forall_mem_map,
    List.not_mem_nil, false_implies, implies_true, and_true, and_assoc]

/-- A metadata column needs a sound name and a type that is not blank. -/
theorem checkMetadataColumn_eq_ok_iff {m : MetadataColumn} :
    checkMetadataColumn m = .ok () ↔
      Identifier.Sound m.name ∧ Text.isBlankText m.dataType = false := by
  unfold checkMetadataColumn
  rw [check_bind_eq_ok, throw_eq_ok_iff, Identifier.check_eq_ok_iff, Bool.not_eq_true]

/-- **A layout is accepted** exactly if it is sound. -/
theorem validate_eq_ok_iff {c : TableConfig} : c.validate = .ok () ↔ c.Sound := by
  unfold validate
  simp only [check_bind_eq_ok, throw_bind_eq_ok, forM_eq_ok_iff, checkMetadataColumn_eq_ok_iff,
    Identifier.check_eq_ok_iff, Identifier.checkDistinct_eq_ok_iff, forall₂_and]
  constructor
  · rintro ⟨htable, hschema, hid, hcontent, hembedding, hoverflow, hsize, ⟨hmetadata, htypes⟩,
      hdistinct⟩
    refine ⟨?_, hsize, htypes, hdistinct⟩
    exact forall_mem_names_iff.mpr ⟨htable, hschema, hid, hcontent, hembedding, hoverflow,
      hmetadata⟩
  · intro h
    obtain ⟨htable, hschema, hid, hcontent, hembedding, hoverflow, hmetadata⟩ :=
      forall_mem_names_iff.mp h.names
    exact ⟨htable, hschema, hid, hcontent, hembedding, hoverflow, h.size_ne_zero,
      ⟨hmetadata, h.types⟩, h.distinct⟩

end TableConfig

end VectorTable
