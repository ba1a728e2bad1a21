import VectorTable.Proofs.Catalog.Roles

/-!
# VectorTable — what verification asks of a table

Verification makes a list of demands on a table and reports the first one that the table does not
meet. The list depends on the settings alone, and it does not mention the JSON column. Of several
columns with one name the last one counts.

* `Catalog.Demand` — a demand, when it is met, and what is reported otherwise;
* `Catalog.demands` — the demands of a configuration, in order;
* `Catalog.outcome_verify` — verification checks them one after the other;
* `Catalog.verify_reports_first_fault` — the tables that are accepted, and the faults of the others.
-/

namespace VectorTable

namespace Catalog

/-- Of the columns with a name the last one counts. -/
def Last (columns : List Column) (name : String) (c : Column) : Prop :=
  ∃ before after, columns = before ++ c :: after ∧ c.name = name ∧ ∀ c' ∈ after, c'.name ≠ name

/-- A demand on the settings or on the table. -/
inductive Demand where
  /-- Metadata columns are not listed and excluded at the same time. -/
  | oneList
  /-- The table has columns. -/
  | columns
  | present (name role : String)
  | typed (name role expected : String) (typeNames : List String)

namespace Demand

/-- The demand is met. A column that is missing is not of a wrong type. -/
def Met (config : StoreConfig) (columns : List Column) : Demand → Prop
  | .oneList => config.metadataColumns = [] ∨ config.ignoredColumns = []
  | .columns => columns ≠ []
  | .present name _ => ∃ c ∈ columns, c.name = name
  | .typed name _ _ typeNames => ∀ c, Last columns name c → c.typeName ∈ typeNames

/-- What is reported of a demand that is not met. -/
def Reports (config : StoreConfig) (columns : List Column) : Demand → Error → Prop
  | .oneList, error => error = .conflict .columnLists
  | .columns, error => error = .tableNotFound config.schema config.table
  | .present name role, error => error = .missingColumn config.schema config.table name role
  | .typed name role expected _, error => ∃ c, Last columns name c ∧
      error = .typeMismatch config.schema config.table name role expected c.dataType

end Demand

/-- The types of texts. -/
def textTypes : List String := ["text", "varchar", "bpchar", "name", "citext"]

/-- The demands on the columns with a role. -/
def roleDemands (config : StoreConfig) : List Demand :=
  [.oneList, .columns, .present config.idColumn "id", .present config.contentColumn "content",
    .typed config.contentColumn "content" "a character string type" textTypes,
    .present config.embeddingColumn "embedding",
    .typed config.embeddingColumn "embedding" "vector" ["vector"]]

/-- All demands, in the order in which they are checked. -/
def demands (config : StoreConfig) : List Demand :=
  roleDemands config ++ config.metadataColumns.map (.present · "metadata")

/-! ## Columns by name -/

variable {config : StoreConfig} {columns : List Column} {name : String}

/-- A column is found by its name as in a list that is searched from its end. -/
theorem map_lastNamed? (columns : List Column) (name : String) :
    (lastNamed? columns name).map (·.1) = columns.reverse.find? (·.name = name) := by
  have hcolumns : columns.reverse = columns.zipIdx.reverse.map (·.1) := by
    rw [List.map_reverse, List.zipIdx_map_fst]
  rw [hcolumns, List.find?_map]
  rfl

/-- A search from the end finds the last column of a name. -/
theorem find?_reverse_eq_some_iff {c : Column} :
    columns.reverse.find? (·.name = name) = some c ↔ Last columns name c := by
  rw [List.find?_eq_some_iff_append]
  constructor
  · rintro ⟨hname, after, before, hsplit, hafter⟩
    -- What has been passed in the search stands behind the column that it finds.
    refine ⟨before.reverse, after.reverse, ?_, of_decide_eq_true hname, ?_⟩
    · rw [← List.reverse_reverse columns, hsplit]
      simp
    · intro c' hc'
      simpa using hafter c' (List.mem_reverse.mp hc')
  · rintro ⟨before, after, rfl, hname, hafter⟩
    refine ⟨decide_eq_true hname, after.reverse, before.reverse, by simp, ?_⟩
    intro c' hc'
    simpa using hafter c' (List.mem_reverse.mp hc')

/-- The character string types are known by their names. -/
theorem kind_eq_text_iff (c : Column) : c.kind = .text ↔ c.typeName ∈ textTypes := by
  unfold Column.kind textTypes
  split <;> simp_all

/-- There is one type of vectors. -/
theorem kind_eq_vector_iff (c : Column) : c.kind = .vector ↔ c.typeName ∈ ["vector"] := by
  unfold Column.kind
  split <;> simp_all

/-! ## Checks -/

/-- A demand as a check. -/
def Demand.check (config : StoreConfig) (columns : List Column) : Demand → Except Error Unit
  | .oneList => config.checkColumnLists
  | .columns =>
    if columns.isEmpty then .error (.tableNotFound config.schema config.table) else .ok ()
  | .present name role => outcome (find config columns name role)
  | .typed name role expected typeNames =>
    match columns.reverse.find? (·.name = name) with
    | some c =>
      if c.typeName ∉ typeNames then .error (wrongType config c role expected) else .ok ()
    | none => .ok ()

theorem Last.name_eq {c : Column} (h : Last columns name c) : c.name = name := by
  obtain ⟨-, -, -, hname, -⟩ := h
  exact hname

/-- The last column of a name is one of the columns. -/
theorem Last.mem {c : Column} (h : Last columns name c) : c ∈ columns := by
  obtain ⟨before, after, rfl, -, -⟩ := h
  simp

/-- No two columns are the last of one name. -/
theorem Last.unique {c c' : Column} (h : Last columns name c) (h' : Last columns name c') :
    c = c' := by
  rw [← find?_reverse_eq_some_iff] at h h'
  exact Option.some.inj (h.symm.trans h')

/-- A column that has to be present is looked for under its name, from the end of the list. -/
theorem check_present (name role : String) :
    (Demand.present name role).check config columns =
      match columns.reverse.find? (·.name = name) with
      | some _ => .ok ()
      | none => .error (.missingColumn config.schema config.table name role) := by
  rw [← map_lastNamed?]
  show outcome (find config columns name role) = _
  unfold find
  cases lastNamed? columns name <;> rfl

/-- Each check finds out whether its demand is met, and reports what it should. -/
theorem check_spec {config : StoreConfig} {columns : List Column} (demand : Demand) :
    demand.Met config columns ∧ demand.check config columns = .ok () ∨
      ¬ demand.Met config columns ∧
        ∃ error, demand.check config columns = .error error ∧
          ∀ error', demand.Reports config columns error' ↔ error' = error := by
  cases demand with
  | oneList =>
    -- The same check as for the settings alone.
    by_cases hmet : config.metadataColumns = [] ∨ config.ignoredColumns = []
    · exact .inl ⟨hmet, StoreConfig.checkColumnLists_eq_ok_iff.mpr hmet⟩
    · refine .inr ⟨hmet, .conflict .columnLists, ?_, fun _ => Iff.rfl⟩
      show config.checkColumnLists = _
      unfold StoreConfig.checkColumnLists
      rw [if_neg]
      simpa using hmet
  | columns =>
    by_cases hmet : columns = []
    · exact .inr ⟨not_not_intro hmet, _, if_pos (by simp [hmet]), fun _ => Iff.rfl⟩
    · exact .inl ⟨hmet, if_neg (by simpa using hmet)⟩
  | present name role =>
    -- A scan from behind misses no column.
    rw [check_present]
    cases hfound : columns.reverse.find? (·.name = name) with
    | some c =>
      have hlast := find?_reverse_eq_some_iff.mp hfound
      exact .inl ⟨⟨c, hlast.mem, hlast.name_eq⟩, rfl⟩
    | none =>
      refine .inr ⟨?_, _, rfl, fun _ => Iff.rfl⟩
      rintro ⟨c, hc, hname⟩
      exact List.find?_eq_none.mp hfound c (List.mem_reverse.mpr hc) (decide_eq_true hname)
  | typed name role expected typeNames =>
    rw [Demand.check]
    cases hfound : columns.reverse.find? (·.name = name) with
    | none =>
      -- A missing column is the fault of another demand.
      refine .inl ⟨fun c hc => ?_, rfl⟩
      rw [find?_reverse_eq_some_iff.mpr hc] at hfound
      cases hfound
    | some c =>
      have hlast := find?_reverse_eq_some_iff.mp hfound
      by_cases htype : c.typeName ∈ typeNames
      · refine .inl ⟨fun c' hc' => ?_, if_neg (not_not_intro htype)⟩
        rwa [hc'.unique hlast]
      · refine .inr ⟨fun hmet => htype (hmet c hlast), _, if_pos htype, fun error' => ?_⟩
        -- The column that is reported goes by the name that was looked up.
        rw [wrongType, hlast.name_eq]
        constructor
        · rintro ⟨c', hc', rfl⟩
          rw [hc'.unique hlast]
        · rintro rfl
          exact ⟨c, hlast, rfl⟩

/-- The check of a demand passes if and only if the demand is met. -/
theorem check_eq_ok_iff (demand : Demand) :
    demand.check config columns = .ok () ↔ demand.Met config columns := by
  rcases check_spec demand with ⟨hmet, hok⟩ | ⟨hmet, e, he, -⟩
  · exact iff_of_true hok hmet
  · refine iff_of_false ?_ hmet
    rw [he]
    exact nofun

/-- The check of a demand that is not met reports the fault of that demand. -/
theorem check_eq_error_iff (demand : Demand) {error : Error} :
    demand.check config columns = .error error ↔
      ¬ demand.Met config columns ∧ demand.Reports config columns error := by
  rcases check_spec demand with ⟨hmet, hok⟩ | ⟨hmet, e, he, hreports⟩
  · refine iff_of_false ?_ fun h => h.1 hmet
    rw [hok]
    exact nofun
  · rw [he, hreports, and_iff_right hmet, Except.error.injEq]
    exact eq_comm

/-- The last column with a name is checked for its type. -/
theorem check_typed {role : String} {found : Column × Nat}
    (h : find config columns name role = .ok found) (expected : String) (typeNames : List String) :
    (Demand.typed name role expected typeNames).check config columns =
      if found.1.typeName ∉ typeNames then .error (wrongType config found.1 role expected)
      else .ok () := by
  have hlast : columns.reverse.find? (·.name = name) = some found.1 := by
    unfold find at h
    split at h <;> cases h
    rename_i hfound
    rw [← map_lastNamed?, hfound, Option.map_some]
  rw [Demand.check, hlast]

/-- To look for the roles is to go through the demands that they make, in order. -/
theorem outcome_findRoles (config : StoreConfig) (columns : List Column) :
    outcome (findRoles config columns) = (roleDemands config).forM (·.check config columns) := by
  unfold findRoles
  -- One step for each demand of the list, in the same order.
  refine outcome_bind (outcome_check _) fun _ _ => ?_
  refine outcome_throw_bind rfl ?_
  refine outcome_bind rfl fun id _ => ?_
  refine outcome_bind rfl fun content hcontent => ?_
  refine outcome_throw_bind ?_ ?_
  · -- The type is checked of the column that has just been found.
    refine (check_typed hcontent _ _).trans (if_congr ?_ rfl rfl)
    simp [Column.isCharacterString, kind_eq_text_iff]
  refine outcome_bind rfl fun embedding hembedding => ?_
  -- The JSON column that comes last is not asked for.
  refine outcome_throw_bind ?_ rfl
  refine (check_typed hembedding _ _).trans (if_congr ?_ rfl rfl)
  rw [ne_eq, kind_eq_vector_iff]

/-- Listed metadata columns are looked up one after the other. -/
theorem outcome_findMetadata {roles : Roles}
    (hlists : config.metadataColumns = [] ∨ config.ignoredColumns = []) :
    outcome (findMetadata config columns roles) =
      (config.metadataColumns.map (.present · "metadata")).forM
        (Demand.check config columns) := by
  unfold findMetadata
  split
  · rw [outcome_mapM, List.forM_eq_forM, List.forM_eq_forM, List.forM_map]
    exact forM_congr fun name _ => outcome_map _ _
  · -- Where columns are excluded none are listed, and collecting the others cannot fail.
    rename_i hignored
    have hnone : config.metadataColumns = [] := hlists.resolve_right (by simpa using hignored)
    rw [hnone]
    rfl

/-- Verification is a row of checks. -/
theorem outcome_verify (config : StoreConfig) (columns : List Column) :
    outcome (verify config columns) = (demands config).forM (·.check config columns) := by
  rw [demands, forM_append_eq]
  -- The lists do not clash once the roles are found.
  refine outcome_bind (outcome_findRoles config columns) fun roles hroles => ?_
  have hlists := StoreConfig.checkColumnLists_eq_ok_iff.mp (findRoles_eq_ok_iff.mp hroles).1
  rw [← outcome_findMetadata hlists]
  exact outcome_map (findMetadata config columns roles) _

/-- Columns that verification treats alike: they share a name, and the columns of the text and of
the vector share their types. -/
structure VerifiedAlike (config : StoreConfig) (c c' : Column) : Prop where
  name : c.name = c'.name
  type : c.name = config.contentColumn ∨ c.name = config.embeddingColumn →
    c.typeName = c'.typeName ∧ c.dataType = c'.dataType

/-- Columns that are alike to a verification are found alike under every name. -/
theorem find?_verifiedAlike {columns' : List Column}
    (halike : List.Forall₂ (VerifiedAlike config) columns columns') (name : String) :
    Option.Rel (VerifiedAlike config) (columns.find? (·.name = name))
      (columns'.find? (·.name = name)) := by
  induction halike with
  | nil => exact .none
  | @cons c c' columns columns' hc _ ih =>
    rw [List.find?_cons, List.find?_cons, hc.name]
    split
    · exact .some hc
    · exact ih

/-- Only the content and the vector have to be of a certain type. -/
theorem name_of_typed {role expected : String} {typeNames : List String}
    (h : .typed name role expected typeNames ∈ demands config) :
    name = config.contentColumn ∨ name = config.embeddingColumn := by
  have hcases : name = config.contentColumn ∧ role = "content" ∧
      expected = "a character string type" ∧ typeNames = textTypes ∨
      name = config.embeddingColumn ∧ role = "embedding" ∧ expected = "vector" ∧
        typeNames = ["vector"] := by
    simpa [demands, roleDemands] using h
  exact hcases.imp And.left And.left

/-- A check goes by what alike columns share. -/
theorem check_verifiedAlike (overflowColumn : Option String) {columns' : List Column}
    (halike : List.Forall₂ (VerifiedAlike config) columns columns') {demand : Demand}
    (hdemand : demand ∈ demands config) :
    demand.check { config with overflowColumn := overflowColumn } columns' =
      demand.check config columns := by
  have hlast (name : String) : Option.Rel (VerifiedAlike config)
      (columns.reverse.find? (·.name = name)) (columns'.reverse.find? (·.name = name)) :=
    find?_verifiedAlike (List.rel_reverse halike) name
  cases demand with
  | oneList => rfl
  | columns => cases halike <;> rfl
  | present name role =>
    rw [check_present, check_present]
    specialize hlast name
    generalize columns.reverse.find? _ = found, columns'.reverse.find? _ = found' at hlast
    cases hlast <;> rfl
  | typed name role expected typeNames =>
    have hrel := hlast name
    rw [Demand.check, Demand.check]
    cases hfound : columns.reverse.find? (·.name = name) with
    | none =>
      rw [hfound] at hrel
      generalize columns'.reverse.find? _ = found' at hrel
      cases hrel
      rfl
    | some c =>
      have hname : c.name = name := of_decide_eq_true (List.find?_some hfound :)
      rw [hfound] at hrel
      generalize columns'.reverse.find? _ = found' at hrel
      cases hrel with
      | @some _ c' hc =>
        -- Only the columns of the text and of the vector are asked for their types.
        obtain ⟨htype, hdata⟩ := hc.type (hname ▸ name_of_typed hdemand)
        simp only [wrongType, hc.name, htype, hdata]

/-- **Verification reports the first fault.** A table is accepted exactly if it meets every demand;
otherwise the error is that of the first demand that it does not meet. Neither the setting of the
JSON column nor the type of a column other than the text's and the vector's makes a difference. -/
theorem verify_reports_first_fault (config : StoreConfig) (columns : List Column) :
    ((∃ catalog, verify config columns = .ok catalog) ↔
      ∀ demand ∈ demands config, demand.Met config columns) ∧
    (∀ error, verify config columns = .error error ↔
      ∃ before demand after, demands config = before ++ demand :: after ∧
        (∀ met ∈ before, met.Met config columns) ∧
        ¬ demand.Met config columns ∧ demand.Reports config columns error) ∧
    ∀ overflowColumn columns', List.Forall₂ (VerifiedAlike config) columns columns' →
      outcome (verify { config with overflowColumn := overflowColumn } columns') =
        outcome (verify config columns) := by
  refine ⟨?_, fun error => ?_, fun overflowColumn columns' halike => ?_⟩
  · rw [← outcome_eq_ok, outcome_verify, forM_eq_ok_iff]
    exact forall₂_congr fun demand _ => check_eq_ok_iff demand
  · rw [← outcome_eq_error, outcome_verify, forM_eq_error_iff]
    simp only [check_eq_ok_iff, check_eq_error_iff]
  · -- A column that is alike meets the same demands, so that the first fault stays the first.
    rw [outcome_verify, outcome_verify]
    exact forM_congr fun demand hdemand => check_verifiedAlike overflowColumn halike hdemand

end Catalog

/-! ## A table with several faults -/

/-- Of the two columns for the text the second one counts. The vector is missing. -/
def Column.twoContents : List Column :=
  [⟨"content", "text", "text", -1⟩, ⟨"id", "uuid", "uuid", -1⟩,
    ⟨"content", "jsonb", "jsonb", -1⟩, ⟨"draft", "boolean", "bool", -1⟩]

/-- The table with a number for its id and without a JSON column. -/
def Column.twoContentsNumbered : List Column :=
  [⟨"content", "text", "text", -1⟩, ⟨"id", "bigint", "int8", -1⟩,
    ⟨"content", "jsonb", "jsonb", -1⟩, ⟨"draft", "integer", "int4", -1⟩]

/-- The type of the text is reported, not the vector and the author that are missing. -/
theorem Catalog.verify_reports_first_fault_two_contents :
    verify { table := "notes", metadataColumns := ["author"] } Column.twoContents =
        .error (.typeMismatch "public" "notes" "content" "content" "a character string type"
          "jsonb") ∧
      List.Forall₂ (VerifiedAlike { table := "notes", metadataColumns := ["author"] })
        Column.twoContents Column.twoContentsNumbered ∧
      outcome (verify { table := "notes", metadataColumns := ["author"], overflowColumn := none }
          Column.twoContentsNumbered) =
        outcome (verify { table := "notes", metadataColumns := ["author"] }
          Column.twoContents) := by
  have halike : List.Forall₂ (VerifiedAlike { table := "notes", metadataColumns := ["author"] })
      Column.twoContents Column.twoContentsNumbered :=
    .cons ⟨rfl, fun _ => ⟨rfl, rfl⟩⟩ (.cons ⟨rfl, by decide⟩
      (.cons ⟨rfl, fun _ => ⟨rfl, rfl⟩⟩ (.cons ⟨rfl, by decide⟩ .nil)))
  exact ⟨rfl, halike, (verify_reports_first_fault _ _).2.2 none _ halike⟩

end VectorTable
