import VectorTable.Config.Store
import VectorTable.Config.Table
import VectorTable.Proofs.Json.Record

/-!
# VectorTable — configurations as JSON

A configuration is read back from its JSON text as it was. The text may have been edited in
between: a member that was deleted takes its default, members of other names are not looked at, and
the order of members plays no part. A missing column for the other keys is one of the default name,
while null turns it off.

* `QueryOptions.decode_of_extended`, `IndexKind.decode_of_extended` — a variant is found by its tag;
* `VectorIndex.reset`, `StoreConfig.reset`, `TableConfig.reset` — some members at their defaults;
* `decode_of_edited` of each of these — what is read from an edited object;
* `configurations_survive_json` — the same for texts.
-/

namespace VectorTable

open Json (Change Edited Extended Tree changedAt unchanged)

/-- A distance is read back from its name. -/
theorem DistanceStrategy.decode_tree (s : DistanceStrategy) : decode s.toJson.tree = some s := by
  cases s <;> rfl

/-! ## Query options -/

namespace QueryOptions

variable {room : Nat} {t : Json.Tree}

/-- Options are read whatever members have been added to them. -/
theorem decode_of_extended {o : QueryOptions} (h : o.toJson.Extended room t) :
    decode room t = some o := by
  cases o with
  | hnsw efSearch =>
    -- In each case the tag is found first, and then the members that belong to it.
    obtain ⟨rest, r, htag, hr, hkeeps⟩ := h.exists_tagged ["ef_search"] rfl (by decide)
    have hsearch := hkeeps.required_unchanged "ef_search" (Json.Decoder.uint32_tree efSearch)
      (by simp)
    simp only [decode, htag, hr, hsearch, Option.bind_eq_bind, Option.bind_some]
    rfl
  | ivfFlat probes =>
    obtain ⟨rest, r, htag, hr, hkeeps⟩ := h.exists_tagged ["probes"] rfl (by decide)
    have hprobes := hkeeps.required_unchanged "probes" (Json.Decoder.uint32_tree probes) (by simp)
    simp only [decode, htag, hr, hprobes, Option.bind_eq_bind, Option.bind_some]
    rfl
  | ivf probes =>
    obtain ⟨rest, r, htag, hr, hkeeps⟩ := h.exists_tagged ["probes"] rfl (by decide)
    have hprobes := hkeeps.required_unchanged "probes" (Json.Decoder.uint32_tree probes) (by simp)
    simp only [decode, htag, hr, hprobes, Option.bind_eq_bind, Option.bind_some]
    rfl
  | scann leaves neighbors =>
    obtain ⟨rest, r, htag, hr, hkeeps⟩ := h.exists_tagged
      ["num_leaves_to_search", "pre_reordering_num_neighbors"] rfl (by decide)
    have hleaves := hkeeps.required_unchanged "num_leaves_to_search"
      (Json.Decoder.uint32_tree leaves) (by simp)
    have hneighbors := hkeeps.required_unchanged "pre_reordering_num_neighbors"
      (Json.Decoder.int32_tree neighbors) (by simp)
    simp only [decode, htag, hr, hleaves, hneighbors, Option.bind_eq_bind, Option.bind_some]
    rfl

theorem extended_toJson (o : QueryOptions) (room : Nat) :
    o.toJson.Extended (room + 1) o.toJson.tree := by
  cases o <;> exact Json.extended_tree (by simp)
    (by simp [Json.fits_string, Json.fits_number, Json.ofUInt32, Json.ofInt32])

end QueryOptions

/-! ## Indexes -/

namespace IndexKind

variable {room : Nat} {t : Json.Tree}

/-- A kind is read whatever members have been added to it. -/
theorem decode_of_extended {k : IndexKind} (h : k.toJson.Extended room t) :
    decode room t = some k := by
  cases k with
  | hnsw m efConstruction =>
    obtain ⟨rest, r, htag, hr, hkeeps⟩ := h.exists_tagged ["m", "ef_construction"] rfl (by decide)
    have hm := hkeeps.required_unchanged "m" (Json.Decoder.uint32_tree m) (by simp)
    have hconstruction := hkeeps.required_unchanged "ef_construction"
      (Json.Decoder.uint32_tree efConstruction) (by simp)
    simp only [decode, htag, hr, hm, hconstruction, Option.bind_eq_bind, Option.bind_some]
    rfl
  | ivfFlat lists =>
    obtain ⟨rest, r, htag, hr, hkeeps⟩ := h.exists_tagged ["lists"] rfl (by decide)
    have hlists := hkeeps.required_unchanged "lists" (Json.Decoder.uint32_tree lists) (by simp)
    simp only [decode, htag, hr, hlists, Option.bind_eq_bind, Option.bind_some]
    rfl
  | ivf lists quantizer =>
    obtain ⟨rest, r, htag, hr, hkeeps⟩ := h.exists_tagged ["lists", "quantizer"] rfl (by decide)
    have hlists := hkeeps.required_unchanged "lists" (Json.Decoder.uint32_tree lists) (by simp)
    have hquantizer := hkeeps.required_unchanged "quantizer" (Json.Decoder.text_tree quantizer)
      (by simp)
    simp only [decode, htag, hr, hlists, hquantizer, Option.bind_eq_bind, Option.bind_some]
    rfl
  | scann leaves quantizer =>
    obtain ⟨rest, r, htag, hr, hkeeps⟩ :=
      h.exists_tagged ["num_leaves", "quantizer"] rfl (by decide)
    have hleaves := hkeeps.required_unchanged "num_leaves" (Json.Decoder.uint32_tree leaves)
      (by simp)
    have hquantizer := hkeeps.required_unchanged "quantizer" (Json.Decoder.text_tree quantizer)
      (by simp)
    simp only [decode, htag, hr, hleaves, hquantizer, Option.bind_eq_bind, Option.bind_some]
    rfl

theorem extended_toJson (k : IndexKind) (room : Nat) :
    k.toJson.Extended (room + 1) k.toJson.tree := by
  cases k <;> exact Json.extended_tree (by simp)
    (by simp [Json.fits_string, Json.fits_number, Json.ofUInt32])

end IndexKind

namespace VectorIndex

/-- The index with some members at their defaults. -/
def reset (deleted : List String) (i : VectorIndex) : VectorIndex where
  name := if "name" ∈ deleted then none else i.name
  kind := i.kind
  strategy := if "distance_strategy" ∈ deleted then .cosine else i.strategy
  predicates := if "partial_indexes" ∈ deleted then [] else i.predicates

def members (i : VectorIndex) : Entries Json :=
  [("name", i.name.elim .null .string), ("kind", i.kind.toJson),
    ("distance_strategy", i.strategy.toJson),
    ("partial_indexes", .array (i.predicates.map .string))]

theorem keys_members (i : VectorIndex) : (i.members.map (·.1)).Nodup :=
  show memberNames.Nodup by decide

/-- Only the kind may have been edited, by adding members. -/
def edits : Change := changedAt "kind" (Extended (Json.maxDepth - 1))

variable {deleted : List String} {t : Json.Tree}

/-- An edited index is read as one whose deleted members have their defaults. -/
theorem decode_of_edited {i : VectorIndex} (hkind : "kind" ∉ deleted)
    (h : Edited deleted edits i.toJson t) : decode t = some (i.reset deleted) := by
  obtain ⟨r, hr, hkeeps⟩ := Edited.exists_record i.keys_members h
  -- The kind may have grown, the other members are as they were written.
  have hkind := hkeeps.required "kind"
    (fun t (h : i.kind.toJson.Extended (Json.maxDepth - 1) t) => IndexKind.decode_of_extended h)
    (by simp [members]) hkind
  have hname := hkeeps.member "name" (Json.reads_changedAt (by decide)
    (Json.Decoder.optional_text_tree i.name)) (by simp [members]) none
  have hstrategy := hkeeps.member "distance_strategy" (Json.reads_changedAt (by decide)
    i.strategy.decode_tree) (by simp [members]) default
  have hpredicates := hkeeps.member "partial_indexes" (Json.reads_changedAt (by decide)
    (Json.Decoder.list_text_tree i.predicates)) (by simp [members]) []
  refine Json.some_bind hr (Json.some_bind hname (Json.some_bind hkind ?_))
  exact Json.some_bind hstrategy (Json.some_bind hpredicates rfl)

theorem edits_self (i : VectorIndex) : ∀ m ∈ i.members, edits m.1 m.2 m.2.tree := by
  have hkind : i.kind.toJson.Extended (Json.maxDepth - 1) i.kind.toJson.tree :=
    i.kind.extended_toJson 125
  simp [members, edits, changedAt, hkind]

/-- Where nothing is deleted, nothing is reset. -/
theorem reset_nil (i : VectorIndex) : i.reset [] = i := by
  simp [reset]

end VectorIndex

/-! ## Stores -/

namespace StoreConfig

/-- The configuration with some members at their defaults. -/
def reset (deleted : List String) (c : StoreConfig) : StoreConfig where
  table := if "table_name" ∈ deleted then "" else c.table
  schema := if "schema_name" ∈ deleted then "public" else c.schema
  idColumn := if "id_column" ∈ deleted then "id" else c.idColumn
  contentColumn := if "content_column" ∈ deleted then "content" else c.contentColumn
  embeddingColumn := if "embedding_column" ∈ deleted then "embedding" else c.embeddingColumn
  metadataColumns := if "metadata_columns" ∈ deleted then [] else c.metadataColumns
  overflowColumn := if "overflow_column" ∈ deleted then some "metadata_json" else c.overflowColumn
  ignoredColumns := if "ignore_metadata_columns" ∈ deleted then [] else c.ignoredColumns
  strategy := if "distance_strategy" ∈ deleted then .cosine else c.strategy
  queryOptions := if "query_options" ∈ deleted then none else c.queryOptions
  limit := if "k" ∈ deleted then 4 else c.limit
  fetchLimit := if "fetch_k" ∈ deleted then 20 else c.fetchLimit
  lambda := if "lambda_mult" ∈ deleted then .ofDecimal ⟨false, 5, -1⟩ else c.lambda

def members (c : StoreConfig) : Entries Json :=
  [("table_name", .string c.table),
    ("schema_name", .string c.schema),
    ("id_column", .string c.idColumn),
    ("content_column", .string c.contentColumn),
    ("embedding_column", .string c.embeddingColumn),
    ("metadata_columns", .array (c.metadataColumns.map .string)),
    ("overflow_column", c.overflowColumn.elim .null .string),
    ("ignore_metadata_columns", .array (c.ignoredColumns.map .string)),
    ("distance_strategy", c.strategy.toJson),
    ("query_options", c.queryOptions.elim .null QueryOptions.toJson),
    ("k", .ofUInt64 c.limit),
    ("fetch_k", .ofUInt64 c.fetchLimit),
    ("lambda_mult", .ofDouble c.lambda)]

theorem keys_members (c : StoreConfig) : (c.members.map (·.1)).Nodup :=
  show memberNames.Nodup by decide

/-- Only the query options may have been edited, by adding members where there are any. -/
def edits : Change :=
  changedAt "query_options" fun v t => t = v.tree ∨ v.Extended (Json.maxDepth - 1) t

variable {deleted : List String} {t : Json.Tree}

theorem decode_queryOptions (o : Option QueryOptions) {t : Json.Tree}
    (h : t = (o.elim .null QueryOptions.toJson).tree ∨
      (o.elim .null QueryOptions.toJson).Extended (Json.maxDepth - 1) t) :
    Json.Decoder.optional (QueryOptions.decode (Json.maxDepth - 1)) t = some o := by
  cases o with
  | none =>
    rcases h with rfl | ⟨⟨members, hnull, -⟩, -⟩
    · rfl
    · cases hnull
  | some o =>
    have hextended : o.toJson.Extended (Json.maxDepth - 1) t := by
      rcases h with rfl | h
      · exact o.extended_toJson 125
      · exact h
    have hvalue := QueryOptions.decode_of_extended hextended
    -- An object is not null.
    obtain ⟨⟨_, -, _, _, _, -, -, -, rfl⟩, -⟩ := hextended
    exact congrArg (Option.map some) hvalue

/-- An edited store is read as one whose deleted members have their defaults. -/
theorem decode_of_edited {c : StoreConfig} (hlambda : c.lambda.isFinite = true)
    (h : Edited deleted edits c.toJson t) : decode t = some (c.reset deleted) := by
  obtain ⟨r, hr, hkeeps⟩ := Edited.exists_record c.keys_members h
  -- Most members are read alike, whatever their names.
  have htext (name s default : String) (hname : name ≠ "query_options")
      (hmem : (name, .string s) ∈ c.members) :=
    hkeeps.member name (Json.reads_changedAt hname (Json.Decoder.text_tree s)) hmem default
  have htexts (name : String) (l : List String) (hname : name ≠ "query_options")
      (hmem : (name, .array (l.map .string)) ∈ c.members) :=
    hkeeps.member name (Json.reads_changedAt hname (Json.Decoder.list_text_tree l)) hmem []
  have hsize (name : String) (n default : UInt64) (hname : name ≠ "query_options")
      (hmem : (name, .ofUInt64 n) ∈ c.members) :=
    hkeeps.member name (Json.reads_changedAt hname (Json.Decoder.uint64_tree n)) hmem default
  have htable := htext "table_name" c.table "" (by decide) (by simp [members])
  have hschema := htext "schema_name" c.schema "public" (by decide) (by simp [members])
  have hid := htext "id_column" c.idColumn "id" (by decide) (by simp [members])
  have hcontent := htext "content_column" c.contentColumn "content" (by decide) (by simp [members])
  have hembedding := htext "embedding_column" c.embeddingColumn "embedding" (by decide)
    (by simp [members])
  have hmetadata := htexts "metadata_columns" c.metadataColumns (by decide) (by simp [members])
  have hoverflow := hkeeps.member "overflow_column" (Json.reads_changedAt (by decide)
    (Json.Decoder.optional_text_tree c.overflowColumn)) (by simp [members]) (some "metadata_json")
  have hignored := htexts "ignore_metadata_columns" c.ignoredColumns (by decide)
    (by simp [members])
  have hstrategy := hkeeps.member "distance_strategy" (Json.reads_changedAt (by decide)
    c.strategy.decode_tree) (by simp [members]) .cosine
  have hoptions := hkeeps.member "query_options"
    (fun t h => decode_queryOptions c.queryOptions h) (by simp [members]) none
  have hlimit := hsize "k" c.limit 4 (by decide) (by simp [members])
  have hfetch := hsize "fetch_k" c.fetchLimit 20 (by decide) (by simp [members])
  have hlambda := hkeeps.member "lambda_mult" (Json.reads_changedAt (by decide)
    (Json.Decoder.double_tree hlambda)) (by simp [members]) (.ofDecimal ⟨false, 5, -1⟩)
  -- Together they make the configuration, in the order in which they are read.
  refine Json.some_bind hr (Json.some_bind htable (Json.some_bind hschema ?_))
  refine Json.some_bind hid (Json.some_bind hcontent (Json.some_bind hembedding ?_))
  refine Json.some_bind hmetadata (Json.some_bind hoverflow (Json.some_bind hignored ?_))
  refine Json.some_bind hstrategy (Json.some_bind hoptions (Json.some_bind hlimit ?_))
  exact Json.some_bind hfetch (Json.some_bind hlambda rfl)

theorem edits_self (c : StoreConfig) : ∀ m ∈ c.members, edits m.1 m.2 m.2.tree := by
  intro m _
  unfold edits changedAt
  split
  · exact .inl rfl
  · rfl

/-- Where nothing is deleted, nothing is reset. -/
theorem reset_nil (c : StoreConfig) : c.reset [] = c := by
  simp [reset]

end StoreConfig

/-! ## New tables -/

namespace MetadataColumn

/-- The column with some members at their defaults. -/
def reset (deleted : List String) (m : MetadataColumn) : MetadataColumn where
  name := m.name
  dataType := m.dataType
  nullable := if "nullable" ∈ deleted then true else m.nullable

def members (m : MetadataColumn) : Entries Json :=
  [("name", .string m.name), ("data_type", .string m.dataType), ("nullable", .bool m.nullable)]

theorem keys_members (m : MetadataColumn) : (m.members.map (·.1)).Nodup :=
  show ["name", "data_type", "nullable"].Nodup by decide

/-- An edited metadata column is read as one whose deleted members have their defaults, unless its
name or its type is deleted. -/
theorem decode_of_edited {m : MetadataColumn} {deleted : List String} {t : Json.Tree}
    (hname : "name" ∉ deleted) (htype : "data_type" ∉ deleted)
    (h : Edited deleted unchanged m.toJson t) : decode t = some (m.reset deleted) := by
  obtain ⟨r, hr, hkeeps⟩ := Edited.exists_record m.keys_members h
  have hname := hkeeps.required "name" (Json.reads_unchanged (Json.Decoder.text_tree m.name))
    (by simp [members]) hname
  have htype := hkeeps.required "data_type"
    (Json.reads_unchanged (Json.Decoder.text_tree m.dataType)) (by simp [members]) htype
  have hnullable := hkeeps.member "nullable"
    (Json.reads_unchanged (Json.Decoder.bool_tree m.nullable)) (by simp [members]) true
  refine Json.some_bind hr (Json.some_bind hname ?_)
  exact Json.some_bind htype (Json.some_bind hnullable rfl)

end MetadataColumn

namespace TableConfig

/-- The layout with some members at their defaults, both of its own and of its columns. -/
def reset (deleted : List String) (deletedAt : Nat → List String) (c : TableConfig) :
    TableConfig where
  table := if "table_name" ∈ deleted then "" else c.table
  vectorSize := if "vector_size" ∈ deleted then 0 else c.vectorSize
  schema := if "schema_name" ∈ deleted then "public" else c.schema
  idColumn := if "id_column" ∈ deleted then "id" else c.idColumn
  contentColumn := if "content_column" ∈ deleted then "content" else c.contentColumn
  embeddingColumn := if "embedding_column" ∈ deleted then "embedding" else c.embeddingColumn
  metadataColumns := if "metadata_columns" ∈ deleted then []
    else c.metadataColumns.zipIdx.map fun m => m.1.reset (deletedAt m.2)
  overflowColumn := if "overflow_column" ∈ deleted then "metadata_json" else c.overflowColumn
  overwrite := if "overwrite_existing" ∈ deleted then false else c.overwrite
  storeMetadata := if "store_metadata" ∈ deleted then false else c.storeMetadata

def members (c : TableConfig) : Entries Json :=
  [("table_name", .string c.table),
    ("vector_size", .ofUInt32 c.vectorSize),
    ("schema_name", .string c.schema),
    ("id_column", .string c.idColumn),
    ("content_column", .string c.contentColumn),
    ("embedding_column", .string c.embeddingColumn),
    ("metadata_columns", .array (c.metadataColumns.map MetadataColumn.toJson)),
    ("overflow_column", .string c.overflowColumn),
    ("overwrite_existing", .bool c.overwrite),
    ("store_metadata", .bool c.storeMetadata)]

theorem keys_members (c : TableConfig) : (c.members.map (·.1)).Nodup :=
  show memberNames.Nodup by decide

/-- Only the metadata columns may have been edited, each by itself. -/
def edits (deletedAt : Nat → List String) : Change :=
  changedAt "metadata_columns" (Json.EditedItems deletedAt)

variable {deleted : List String} {deletedAt : Nat → List String} {t : Json.Tree}

/-- Edited metadata columns are read one by one, each with what was deleted of it. -/
theorem mapM_decode_of_edited (hrequired : ∀ i, "name" ∉ deletedAt i ∧ "data_type" ∉ deletedAt i)
    {columns : List MetadataColumn} {start : Nat} {trees : List Json.Tree}
    (h : List.Forall₂ (fun item t => Edited (deletedAt item.2) unchanged item.1 t)
      ((columns.map MetadataColumn.toJson).zipIdx start) trees) :
    trees.mapM MetadataColumn.decode =
      some ((columns.zipIdx start).map fun m => m.1.reset (deletedAt m.2)) := by
  induction columns generalizing start trees with
  | nil =>
    cases h
    rfl
  | cons m columns ih =>
    obtain ⟨t, trees, hm, hrest, rfl⟩ := List.forall₂_cons_left_iff.mp h
    obtain ⟨hname, htype⟩ := hrequired start
    rw [List.mapM_cons]
    -- The first column is read with what was deleted of it, and the others from the next position
    -- on.
    exact Json.some_bind (MetadataColumn.decode_of_edited hname htype hm)
      (Json.some_bind (ih hrest) rfl)

theorem decode_metadataColumns (hrequired : ∀ i, "name" ∉ deletedAt i ∧ "data_type" ∉ deletedAt i)
    (columns : List MetadataColumn) :
    ∀ t, edits deletedAt "metadata_columns" (.array (columns.map MetadataColumn.toJson)) t →
      Json.Decoder.list MetadataColumn.decode t =
        some (columns.zipIdx.map fun m => m.1.reset (deletedAt m.2)) := by
  rintro t ⟨items, trees, hitems, rfl, hedited⟩
  cases hitems
  exact mapM_decode_of_edited hrequired hedited

/-- An edited table is read as one whose deleted members have their defaults, and so are its
metadata columns. -/
theorem decode_of_edited {c : TableConfig}
    (hrequired : ∀ i, "name" ∉ deletedAt i ∧ "data_type" ∉ deletedAt i)
    (h : Edited deleted (edits deletedAt) c.toJson t) :
    decode t = some (c.reset deleted deletedAt) := by
  obtain ⟨r, hr, hkeeps⟩ := Edited.exists_record c.keys_members h
  have htext (name s default : String) (hname : name ≠ "metadata_columns")
      (hmem : (name, .string s) ∈ c.members) :=
    hkeeps.member name (Json.reads_changedAt hname (Json.Decoder.text_tree s)) hmem default
  have hflag (name : String) (b : Bool) (hname : name ≠ "metadata_columns")
      (hmem : (name, .bool b) ∈ c.members) :=
    hkeeps.member name (Json.reads_changedAt hname (Json.Decoder.bool_tree b)) hmem false
  have htable := htext "table_name" c.table "" (by decide) (by simp [members])
  have hsize := hkeeps.member "vector_size" (Json.reads_changedAt (by decide)
    (Json.Decoder.uint32_tree c.vectorSize)) (by simp [members]) 0
  have hschema := htext "schema_name" c.schema "public" (by decide) (by simp [members])
  have hid := htext "id_column" c.idColumn "id" (by decide) (by simp [members])
  have hcontent := htext "content_column" c.contentColumn "content" (by decide) (by simp [members])
  have hembedding := htext "embedding_column" c.embeddingColumn "embedding" (by decide)
    (by simp [members])
  have hmetadata := hkeeps.member "metadata_columns"
    (decode_metadataColumns hrequired c.metadataColumns) (by simp [members]) []
  have hoverflow := htext "overflow_column" c.overflowColumn "metadata_json" (by decide)
    (by simp [members])
  have hoverwrite := hflag "overwrite_existing" c.overwrite (by decide) (by simp [members])
  have hstore := hflag "store_metadata" c.storeMetadata (by decide) (by simp [members])
  -- The members are read in the order of the fields, whatever their order in the text is.
  refine Json.some_bind hr (Json.some_bind htable (Json.some_bind hsize ?_))
  refine Json.some_bind hschema (Json.some_bind hid (Json.some_bind hcontent ?_))
  refine Json.some_bind hembedding (Json.some_bind hmetadata (Json.some_bind hoverflow ?_))
  exact Json.some_bind hoverwrite (Json.some_bind hstore rfl)

/-- Columns are their own edits. -/
theorem editedItems_tree (columns : List MetadataColumn) :
    Json.EditedItems (fun _ => []) (.array (columns.map MetadataColumn.toJson))
      (Json.array (columns.map MetadataColumn.toJson)).tree := by
  refine ⟨_, _, rfl, rfl, ?_⟩
  -- The positions start anywhere, so that the induction goes through.
  generalize 0 = start
  induction columns generalizing start with
  | nil => exact .nil
  | cons m columns ih =>
    exact .cons (Json.edited_tree m.keys_members fun _ _ => rfl) (ih (start + 1))

theorem edits_self (c : TableConfig) :
    ∀ m ∈ c.members, edits (fun _ => []) m.1 m.2 m.2.tree := by
  simp [members, edits, changedAt, editedItems_tree]

/-- Where nothing is deleted, nothing is reset. -/
theorem reset_nil (c : TableConfig) : c.reset [] (fun _ => []) = c := by
  have hcolumns : (c.metadataColumns.zipIdx.map fun m => m.1.reset []) = c.metadataColumns := by
    have hreset (m : MetadataColumn) : m.reset [] = m := rfl
    simp only [hreset]
    exact List.zipIdx_map_fst 0 _
  simp [reset, hcolumns]

end TableConfig

/-! ## All configurations -/

/-- **Configurations survive their JSON form.** What is written is read back as it was. A text of
the same object may also lack members, have others and hold them in any order: then the members
that it lacks take their defaults, and nothing else changes. The weight of relevance in a store has
to be a finite number, as JSON has no other. -/
theorem configurations_survive_json :
    (∀ c : StoreConfig, c.lambda.isFinite = true →
      StoreConfig.decode.read? c.toJson.render = some c ∧
      ∀ deleted text t, Tree.parse? text = some t → Edited deleted StoreConfig.edits c.toJson t →
        StoreConfig.decode.read? text = some (c.reset deleted)) ∧
    (∀ c : TableConfig,
      TableConfig.decode.read? c.toJson.render = some c ∧
      ∀ deleted deletedAt text t, (∀ i, "name" ∉ deletedAt i ∧ "data_type" ∉ deletedAt i) →
        Tree.parse? text = some t → Edited deleted (TableConfig.edits deletedAt) c.toJson t →
        TableConfig.decode.read? text = some (c.reset deleted deletedAt)) ∧
    (∀ i : VectorIndex,
      VectorIndex.decode.read? i.toJson.render = some i ∧
      ∀ deleted text t, "kind" ∉ deleted →
        Tree.parse? text = some t → Edited deleted VectorIndex.edits i.toJson t →
        VectorIndex.decode.read? text = some (i.reset deleted)) ∧
    ∀ o : QueryOptions,
      (QueryOptions.decode Json.maxDepth).read? o.toJson.render = some o ∧
      ∀ text t, Tree.parse? text = some t → o.toJson.Extended Json.maxDepth t →
        (QueryOptions.decode Json.maxDepth).read? text = some o := by
  refine ⟨fun c hlambda => ⟨?_, ?_⟩, fun c => ⟨?_, ?_⟩, fun i => ⟨?_, ?_⟩, fun o => ⟨?_, ?_⟩⟩
  -- What is written is an edit that leaves all as it is.
  · have h := StoreConfig.decode_of_edited hlambda (Json.edited_tree c.keys_members c.edits_self)
    rw [c.reset_nil] at h
    exact Json.Decoder.read?_of_parse? (Json.parse?_render_tree _) h
  · intro deleted text t ht hedited
    exact Json.Decoder.read?_of_parse? ht (StoreConfig.decode_of_edited hlambda hedited)
  · have h := TableConfig.decode_of_edited (fun _ => by simp)
      (Json.edited_tree c.keys_members c.edits_self)
    rw [c.reset_nil] at h
    exact Json.Decoder.read?_of_parse? (Json.parse?_render_tree _) h
  · intro deleted deletedAt text t hrequired ht hedited
    exact Json.Decoder.read?_of_parse? ht (TableConfig.decode_of_edited hrequired hedited)
  · have h := VectorIndex.decode_of_edited (by simp) (Json.edited_tree i.keys_members i.edits_self)
    rw [i.reset_nil] at h
    exact Json.Decoder.read?_of_parse? (Json.parse?_render_tree _) h
  · intro deleted text t hkind ht hedited
    exact Json.Decoder.read?_of_parse? ht (VectorIndex.decode_of_edited hkind hedited)
  · exact Json.Decoder.read?_of_parse? (Json.parse?_render_tree _)
      (QueryOptions.decode_of_extended (o.extended_toJson 126))
  · intro text t ht hextended
    exact Json.Decoder.read?_of_parse? ht (QueryOptions.decode_of_extended hextended)

/-- In these texts a store has no schema, a metadata column does not tell whether it may be null,
and an index has neither a metric nor predicates. -/
theorem configurations_survive_json_drafts :
    StoreConfig.decode.read? (Json.object [("table_name", .string "drafts"),
        ("overflow_column", .null), ("k", .ofUInt64 7), ("colour", .string "red")]).render =
      some { table := "drafts", overflowColumn := none, limit := 7 } ∧
    TableConfig.decode.read? (Json.object [("metadata_columns", .array [
        .object [("name", .string "tag"), ("data_type", .string "TEXT")]])]).render =
      some { metadataColumns := [⟨"tag", "TEXT", true⟩] } ∧
    VectorIndex.decode.read? (Json.object [("name", .null),
        ("kind", (IndexKind.ivfFlat 9).toJson)]).render = some { kind := .ivfFlat 9 } ∧
    (QueryOptions.decode Json.maxDepth).read? (Json.object [("type", .string "ivf"),
        ("probes", .ofUInt32 3), ("colour", .array [])]).render = some (.ivf 3) := by
  let store : StoreConfig :=
    { table := "drafts", schema := "old", overflowColumn := none, limit := 7,
      lambda := .zero false }
  let table : TableConfig := { table := "old", metadataColumns := [⟨"tag", "TEXT", false⟩] }
  let index : VectorIndex := { kind := .ivfFlat 9, predicates := ["draft"] }
  obtain ⟨hstores, htables, hindexes, hoptions⟩ := configurations_survive_json
  refine ⟨?_, ?_, ?_, ?_⟩
  · exact (hstores store rfl).2
      ["schema_name", "id_column", "content_column", "embedding_column", "metadata_columns",
        "ignore_metadata_columns", "distance_strategy", "query_options", "fetch_k", "lambda_mult"]
      _ _ (Json.parse?_render_tree _) ((Json.edited_ofMembers_iff store.keys_members).mpr
        (Json.editedMembers_tree store.edits_self (by decide)))
  · have hcolumn : Edited ["nullable"] unchanged (MetadataColumn.toJson ⟨"tag", "TEXT", false⟩)
        (Json.object [("name", .string "tag"), ("data_type", .string "TEXT")]).tree :=
      (Json.edited_ofMembers_iff (by decide)).mpr
        (Json.editedMembers_tree (fun _ _ => rfl) (List.forall_mem_nil _))
    have hcolumns : Json.EditedItems (fun _ => ["nullable"])
        (.array (table.metadataColumns.map MetadataColumn.toJson)) _ :=
      ⟨_, _, rfl, rfl, .cons hcolumn .nil⟩
    exact (htables table).2
      ["table_name", "vector_size", "schema_name", "id_column", "content_column",
        "embedding_column", "overflow_column", "overwrite_existing", "store_metadata"]
      (fun _ => ["nullable"]) _ _ (fun _ => by decide) (Json.parse?_render_tree _)
      ((Json.edited_ofMembers_iff table.keys_members).mpr
        ⟨[("metadata_columns", _)], [], _, .cons ⟨rfl, hcolumns⟩ .nil, nofun, .rfl, rfl⟩)
  · exact (hindexes index).2 ["distance_strategy", "partial_indexes"] _ _ (by decide)
      (Json.parse?_render_tree _) ((Json.edited_ofMembers_iff index.keys_members).mpr
        (Json.editedMembers_tree index.edits_self (List.forall_mem_nil _)))
  · exact (hoptions (.ivf 3)).2 _ _ (Json.parse?_render_tree _)
      ⟨(Json.edited_ofMembers_iff (by decide)).mpr
        (Json.editedMembers_tree (fun _ _ => rfl) (by decide)), _, rfl⟩

end VectorTable
