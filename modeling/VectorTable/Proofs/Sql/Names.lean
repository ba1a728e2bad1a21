import VectorTable.Proofs.Filter.Slots
import VectorTable.Proofs.Metadata.Kind
import VectorTable.Proofs.Row.Shape

/-!
# VectorTable — the names in statements

Which names a statement quotes can be said without its text: those of the table and its columns,
and those of the types that values are cast to, from left to right. Reading the text by its quotes
gives back these names, whatever characters they are made of.

* `Filter.quoted` — the names in the predicate of a filter;
* `Catalog.castNames` — the names of types in a row;
* `quotes_insertStatements`, `quotes_deleteStatement`, `quotes_searchStatement` — the names read
  back from the texts.
-/

namespace VectorTable

/-! ## Filters -/

/-- The names in the look-up of a key. A member of the JSON column that is read as a number is
looked up twice. -/
def Catalog.lookupNames (catalog : Catalog) (key : String) (value : MetadataValue) : List String :=
  match catalog.metadataColumn? key with
  | some c => [c.name]
  | none => catalog.overflow.toList.flatMap fun json =>
    if value.isNumeric then [json.name, json.name] else [json.name]

/-- The name of the type that a value is cast to where it is compared with that of a key. -/
def Catalog.castName? (catalog : Catalog) (key : String) (value : MetadataValue) : Option String :=
  match catalog.metadataColumn? key with
  | some c => if c.kind.casts (some value.kind) then some c.typeName else none
  | none => if value.isNumeric then some "numeric" else none

/-- The names in the predicate of a filter, from left to right. -/
def Filter.quoted (catalog : Catalog) : Filter → List String
  | .compare op key value =>
    let lookup := catalog.lookupNames key value
    (if op = .ne then lookup ++ lookup else lookup) ++ (catalog.castName? key value).toList
  | .isIn _ [] | .notIn _ [] => []
  | .isIn key (first :: rest) =>
    catalog.lookupNames key first ++ (first :: rest).filterMap (catalog.castName? key)
  | .notIn key (first :: rest) =>
    let lookup := catalog.lookupNames key first
    lookup ++ lookup ++ (first :: rest).filterMap (catalog.castName? key)
  | .and left right | .or left right => left.quoted catalog ++ right.quoted catalog
  | .not inner => inner.quoted catalog

section

variable {catalog : Catalog} {key : String} {value : MetadataValue} {target : Target}
  {b b' : Bindings}

/-- The left side of a comparison names the column that the key is looked up in. -/
theorem Target.names_left (htarget : catalog.resolve key = .ok target) {o : Operand}
    (h : (target.left key value).run b = .ok (o, b')) :
    o.sql.names = catalog.lookupNames key value := by
  obtain ⟨c, hc, rfl⟩ | ⟨hc, json, hjson, rfl⟩ := Catalog.resolve_cases htarget
  · rw [left_column_run] at h
    cases h
    rw [Catalog.lookupNames, hc]
    rfl
  · rw [left_member_run] at h
    cases h
    rw [Catalog.lookupNames, hc, hjson]
    cases value.isNumeric <;> rfl

/-- A bound value is cast to the type that the place of its key asks for. -/
theorem Target.cast_param (htarget : catalog.resolve key = .ok target) {p : Param}
    (h : target.param value = .ok p) : p.cast = catalog.castName? key value := by
  obtain ⟨c, hc, rfl⟩ | ⟨hc, json, hjson, rfl⟩ := Catalog.resolve_cases htarget
  · cases h
    rw [Catalog.castName?, hc, Column.cast_param]
    rfl
  · unfold Target.param at h
    rw [Catalog.castName?, hc]
    -- In the overflow a number is cast, and any other value is compared as text.
    cases hnumeric : value.isNumeric with
    | true =>
      simp only [hnumeric, if_true] at h
      obtain ⟨v, -, hp⟩ := bind_eq_ok.mp h
      cases hp
      rfl
    | false =>
      simp only [hnumeric, Bool.false_eq_true, if_false] at h
      cases h
      rfl

/-- The values of a list are cast to these types. -/
theorem Target.casts_params (htarget : catalog.resolve key = .ok target)
    {values : List MetadataValue} {params : List Param}
    (hparams : values.mapM target.param = .ok params) :
    params.filterMap (·.cast) = values.filterMap (catalog.castName? key) := by
  rw [mapM_eq_ok_iff] at hparams
  induction hparams with
  | nil => rfl
  | cons hp _ ih => rw [List.filterMap_cons, List.filterMap_cons, cast_param htarget hp, ih]

end

namespace Filter

variable {catalog : Catalog} {f : Filter} {b b' : Bindings} {p : Predicate}

/-- The names in a comparison are the one of its column and the one of its cast. -/
theorem names_compare {op : Comparison} {key : String} {value : MetadataValue}
    (h : (comparePredicate catalog op key value).run b = .ok (p, b')) :
    p.sql.names = (Filter.compare op key value).quoted catalog := by
  obtain ⟨target, l, b₁, param, htarget, hleft, hparam, -, rfl⟩ := compare_ok h
  have hlookup := Target.names_left htarget hleft
  have hcast := Target.cast_param htarget hparam
  rw [quoted, ← hlookup, ← hcast]
  split <;> simp [Predicate.sql, Operand.sql]

/-- A list of values names its column once more where it is negated, and a type for each cast. -/
theorem names_list {negative : Bool} {key : String} {first : MetadataValue}
    {rest : List MetadataValue}
    (h : (listPredicate catalog negative key (first :: rest)).run b = .ok (p, b')) :
    p.sql.names = (if negative then catalog.lookupNames key first else []) ++
      catalog.lookupNames key first ++ (first :: rest).filterMap (catalog.castName? key) := by
  obtain ⟨target, l, b₁, params, htarget, hleft, -, hparams, -, rfl⟩ := list_ok h
  rw [← Target.names_left htarget hleft, ← Target.casts_params htarget hparams]
  cases negative <;> simp [Predicate.sql, Sql.names_slots]

/-- The names in the predicate of a filter are those that the filter calls for. -/
theorem names_toPredicate (h : (f.toPredicate catalog).run b = .ok (p, b')) :
    p.sql.names = f.quoted catalog := by
  induction f generalizing b b' p with
  | compare op key value => exact names_compare h
  | isIn key values =>
    cases values with
    | nil =>
      cases h
      rfl
    -- An empty list is a constant and names nothing.
    | cons first rest => exact names_list h
  | notIn key values =>
    cases values with
    | nil =>
      cases h
      rfl
    | cons first rest => exact names_list h
  | and left right ihLeft ihRight =>
    obtain ⟨l, b₁, r, hl, hr, rfl⟩ := and_ok h
    simp [Predicate.sql, quoted, ihLeft hl, ihRight hr]
  | or left right ihLeft ihRight =>
    obtain ⟨l, b₁, r, hl, hr, rfl⟩ := or_ok h
    simp [Predicate.sql, quoted, ihLeft hl, ihRight hr]
  | not inner ih =>
    obtain ⟨q, hq, rfl⟩ := not_ok h
    simp [Predicate.sql, quoted, ih hq]

/-- A predicate has the names that its filter puts there; without a filter there are none. -/
theorem TranslatesTo.names {filter : Option Filter} {predicate : Option Predicate}
    (h : TranslatesTo catalog filter b predicate b') :
    predicate.elim [] (·.sql.names) = filter.elim [] (·.quoted catalog) := by
  cases h with
  | absent => rfl
  | present h => exact names_toPredicate h

end Filter

/-! ## Rows -/

/-- The names of the types that the values of a row are cast to, from left to right. -/
def Catalog.castNames (catalog : Catalog) (segment : Option TextSegment) : List String :=
  (if catalog.id.kind = .uuid then [] else [catalog.id.typeName]) ++
    (catalog.metadata.filterMap fun c =>
      if c.kind.casts (TextSegment.kindOf? segment c.name) then some c.typeName else none) ++
    catalog.overflow.toList.map (·.typeName)

section

variable {catalog : Catalog}

/-- A row is cast to the types of the columns that need it. -/
theorem casts_encodeRow {id : Uuid} {embedding : Embedding} {segment : Option TextSegment}
    {row : List Param} (h : encodeRow catalog id embedding segment = .ok row) :
    row.filterMap (·.cast) = catalog.castNames segment := by
  obtain ⟨split, hsplit, rfl⟩ := encodeRow_eq_ok.mp h
  have hroles : [catalog.id.idParam id, .plain (.text (segment.map (·.text))),
      .plain (.vector embedding.vector)].filterMap (·.cast) =
      if catalog.id.kind = .uuid then [] else [catalog.id.typeName] := by
    by_cases hkind : catalog.id.kind = .uuid <;> simp [Column.idParam, Param.plain, Param.casted,
      hkind]
  -- A column's value may be cast or not; the text and the vector never are, the JSON value always.
  have hcolumns : split.columns.filterMap (·.cast) = catalog.metadata.filterMap fun c =>
      if c.kind.casts (TextSegment.kindOf? segment c.name) then some c.typeName else none := by
    rw [Metadata.split_columns hsplit, Metadata.columnParams, List.filterMap_map]
    exact congrArg (catalog.metadata.filterMap ·) (funext fun c => c.cast_param _)
  have hoverflow : split.overflow.toList.filterMap (·.cast) =
      catalog.overflow.toList.map (·.typeName) := by
    have hcast := Metadata.split_overflow_cast hsplit
    cases hcolumn : catalog.overflow with
    | none =>
      rw [hcolumn] at hcast
      rw [Option.map_eq_none_iff.mp hcast]
      rfl
    | some column =>
      rw [hcolumn] at hcast
      obtain ⟨p, hp, htype⟩ := Option.map_eq_some_iff.mp hcast
      rw [hp, Option.toList_some, List.filterMap_cons_some htype]
      rfl
  rw [List.filterMap_append, List.filterMap_append, hroles, hcolumns, hoverflow, Catalog.castNames]

/-- A row is never empty, as it has an id. -/
theorem encodeRow_ne_nil {id : Uuid} {embedding : Embedding} {segment : Option TextSegment}
    {row : List Param} (h : encodeRow catalog id embedding segment = .ok row) : row ≠ [] := by
  obtain ⟨split, -, rfl⟩ := encodeRow_eq_ok.mp h
  simp

variable {batch : List (Uuid × Embedding × Option TextSegment)} {rows : List (List Param)}

/-- The casts of a batch are those of its rows, one after the other. -/
theorem casts_encodeRows (h : encodeRows catalog batch = .ok rows) :
    (rows.flatMap fun row => row.filterMap (·.cast)) =
      batch.flatMap fun r => catalog.castNames r.2.2 := by
  have hrows := mapM_eq_ok_iff.mp h
  clear h
  induction hrows with
  | nil => rfl
  | cons hrow _ ih => rw [List.flatMap_cons, List.flatMap_cons, ih, casts_encodeRow hrow]

end

/-! ## Statements -/

section

variable {catalog : Catalog}

section

variable {batch : List (Uuid × Embedding × Option TextSegment)} {rows : List (List Param)}

/-- No insert is without rows, and no row without values. -/
theorem readable_insertStatements (h : encodeRows catalog batch = .ok rows) :
    ∀ statement ∈ insertStatements catalog rows, statement.sql.Readable := by
  intro statement hstatement
  obtain ⟨part, hpart, rfl⟩ := List.mem_map.mp hstatement
  refine readable_insertStatement catalog (ne_nil_of_mem_chunks hpart) fun row hrow => ?_
  have hmem : row ∈ rows := by
    rw [← flatten_chunks (rowsPerStatement catalog) rows]
    exact List.mem_flatten_of_mem hpart hrow
  obtain ⟨r, -, hr⟩ := exists_of_mem_mapM h hmem
  exact encodeRow_ne_nil hr

/-- Each insert quotes the table, its columns and the types that its rows are cast to. -/
theorem quotes_insertStatements (h : encodeRows catalog batch = .ok rows) :
    List.Forall₂ (fun statement part => Sql.Quotes statement.sql.render
        ([catalog.schema, catalog.table] ++ catalog.insertColumns.map (·.name) ++
          part.flatMap fun r => catalog.castNames r.2.2))
      (insertStatements catalog rows) (chunks (rowsPerStatement catalog) batch) := by
  have hnames : List.Forall₂ (fun statement part => statement.sql.names =
        [catalog.schema, catalog.table] ++ catalog.insertColumns.map (·.name) ++
          part.flatMap fun r => catalog.castNames r.2.2)
      (insertStatements catalog rows) (chunks (rowsPerStatement catalog) batch) := by
    rw [insertStatements, List.forall₂_map_left_iff]
    refine (forall₂_chunks _ (mapM_eq_ok_iff.mp h).flip).imp fun partRows part hpart => ?_
    rw [names_insertStatement, casts_encodeRows (mapM_eq_ok_iff.mpr hpart.flip)]
  -- The names of the tokens are those of the text, as each statement can be read back.
  refine ((List.forall₂_and_left _ _).mpr ⟨readable_insertStatements h, hnames⟩).imp ?_
  rintro statement part ⟨hreadable, hnames⟩
  exact hnames ▸ Sql.quotes_render hreadable

end

/-- A deletion quotes the table, and the name and the type of the id. -/
theorem quotes_deleteStatement (ids : List Uuid) :
    Sql.Quotes (deleteStatement catalog ids).sql.render
      [catalog.schema, catalog.table, catalog.id.name, catalog.id.typeName] := by
  rw [← names_deleteStatement catalog ids]
  exact Sql.quotes_render (readable_deleteStatement catalog ids)

/-- A search quotes what it selects, the table, what its filter calls for, and the vector. -/
theorem quotes_searchStatement {filter : Option Filter} {b b' : Bindings}
    {predicate : Option Predicate} (h : Filter.TranslatesTo catalog filter b predicate b')
    (strategy : DistanceStrategy) (limit : UInt64) :
    Sql.Quotes (searchStatement catalog strategy predicate limit b').sql.render
      (selectedNames catalog ++ [catalog.schema, catalog.table] ++
        filter.elim [] (·.quoted catalog) ++ [catalog.embedding.name]) := by
  rw [← h.names, ← names_searchStatement catalog strategy predicate limit b']
  exact Sql.quotes_render (readable_searchStatement catalog strategy h.listed limit b')

end

end VectorTable
