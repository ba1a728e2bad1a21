import Mathlib.Logic.Relator
import VectorTable.Proofs.Sql.Names

/-!
# VectorTable — names are only names

A name is quoted wherever it stands, so what it is made of has no effect outside its quotes. Two
tables that differ in their names are read and written by texts that differ between the quotes
only.

* `Catalog.Renamed` — the same table with other names;
* `identifiers_stay_quoted` — the names of each statement, and all that stands around them.
-/

namespace VectorTable

variable {R : String → String → Prop} {catalog catalog' : Catalog}

/-- The same column under a related name. Its type may have another name too, if it is of the same
kind. -/
structure Column.Renamed (R : String → String → Prop) (c c' : Column) : Prop where
  kind : c.kind = c'.kind
  name : R c.name c'.name

/-- The same table with other names: corresponding columns have related names, and the schema, the
table itself and the types may have any. -/
def Catalog.Renamed (R : String → String → Prop) (c c' : Catalog) : Prop :=
  c.Alike (fun _ _ => True) (Column.Renamed R) c'

namespace Catalog.Renamed

theorem alike (h : catalog.Renamed R catalog') :
    catalog.Alike (fun _ _ => True) (Column.Alike fun _ _ => True) catalog' :=
  h.imp fun _ _ hcolumn => ⟨hcolumn.kind, trivial, trivial⟩

/-- A key has a column exactly if the key with the related name has the corresponding one. -/
theorem sameColumns (h : catalog.Renamed R catalog') (hunique : Relator.BiUnique R) :
    catalog.SameColumns (fun _ _ => True) R catalog' := by
  intro key key' hkey
  have hmetadata := h.metadata
  unfold metadataColumn?
  generalize catalog.metadata = columns at hmetadata ⊢
  generalize catalog'.metadata = columns' at hmetadata ⊢
  induction hmetadata with
  | nil => exact .none
  | @cons c c' _ _ hcolumn _ ih =>
    -- The relation is unique both ways, so the two searches stop at the same place.
    have hsame : c.name = key ↔ c'.name = key' := by
      constructor
      · rintro rfl
        exact hunique.2 hcolumn.name hkey
      · rintro rfl
        exact hunique.1 hcolumn.name hkey
    by_cases hname : c.name = key
    · rw [List.find?_cons_of_pos (by simpa using hname),
        List.find?_cons_of_pos (by simpa using hsame.mp hname)]
      exact .some ⟨hcolumn.kind, trivial, trivial⟩
    · rw [List.find?_cons_of_neg (by simpa using hname),
        List.find?_cons_of_neg (by simpa using mt hsame.mpr hname)]
      exact ih

/-! ## Texts around the names -/

variable (h : catalog.Renamed R catalog')

include h

/-- Inserts differ in nothing but the names. -/
theorem around_insertStatements {batch batch' : List (Uuid × Embedding × Option TextSegment)}
    (hbatch : List.Forall₂ (fun r r' => TextSegment.Alike catalog catalog' r.2.2 r'.2.2)
      batch batch') {rows rows' : List (List Param)} (hrows : encodeRows catalog batch = .ok rows)
    (hrows' : encodeRows catalog' batch' = .ok rows') :
    (insertStatements catalog rows).map (Sql.around ·.sql.render) =
      (insertStatements catalog' rows').map (Sql.around ·.sql.render) := by
  have hrelated := insertStatements_related h.alike (encodeRows_alike h.alike hbatch hrows hrows')
  -- Related statements agree around their names if both of them can be read back.
  have hright := ((List.forall₂_and_left _ _).mpr
    ⟨readable_insertStatements hrows', hrelated.flip⟩).flip
  have hboth := (List.forall₂_and_left _ _).mpr ⟨readable_insertStatements hrows, hright⟩
  rw [← List.forall₂_eq_eq_eq, List.forall₂_map_left_iff, List.forall₂_map_right_iff]
  refine hboth.imp ?_
  rintro statement statement' ⟨hreadable, hreadable', hsql⟩
  exact Sql.Related.around_render hsql hreadable hreadable'

theorem around_deleteStatement (ids ids' : List Uuid) :
    Sql.around (deleteStatement catalog ids).sql.render =
      Sql.around (deleteStatement catalog' ids').sql.render :=
  (related_deleteStatement h.alike ids ids').around_render (readable_deleteStatement _ _)
    (readable_deleteStatement _ _)

/-- Searches with filters of one shape differ in nothing but the names. -/
theorem around_searchStatement (hunique : Relator.BiUnique R) {filter filter' : Option Filter}
    (hfilter : Option.Rel (Filter.Alike R) filter filter') {b b₁ b' b₁' : Bindings}
    (hlength : b.toList.length = b'.toList.length) {predicate predicate' : Option Predicate}
    (hpredicate : Filter.TranslatesTo catalog filter b predicate b₁)
    (hpredicate' : Filter.TranslatesTo catalog' filter' b' predicate' b₁')
    (strategy : DistanceStrategy) (limit limit' : UInt64) :
    Sql.around (searchStatement catalog strategy predicate limit b₁).sql.render =
      Sql.around (searchStatement catalog' strategy predicate' limit' b₁').sql.render := by
  obtain ⟨hrelated, hsame⟩ := hpredicate.related hfilter h.alike trivial (h.sameColumns hunique)
    hlength hpredicate'
  exact (related_searchStatement h.alike strategy hrelated limit limit' hsame).around_render
    (readable_searchStatement _ _ hpredicate.listed _ _)
    (readable_searchStatement _ _ hpredicate'.listed _ _)

end Catalog.Renamed

/-- **Names stay in their quotes.** Every name in the text of a statement is closed, and they are
those of the table, its columns and the types of casts, in the order of the text, whatever
characters they are made of. Around them the text is the same for all tables and filters that
differ in names only. -/
theorem identifiers_stay_quoted :
    (∀ (catalog : Catalog) (batch : List (Uuid × Embedding × Option TextSegment))
      (rows : List (List Param)), encodeRows catalog batch = .ok rows →
      List.Forall₂ (fun statement part => Sql.Quotes statement.sql.render
          ([catalog.schema, catalog.table] ++ catalog.insertColumns.map (·.name) ++
            part.flatMap fun r => catalog.castNames r.2.2))
        (insertStatements catalog rows) (chunks (rowsPerStatement catalog) batch)) ∧
    (∀ (catalog : Catalog) (ids : List Uuid), Sql.Quotes (deleteStatement catalog ids).sql.render
      [catalog.schema, catalog.table, catalog.id.name, catalog.id.typeName]) ∧
    (∀ (catalog : Catalog) (strategy : DistanceStrategy) (limit : UInt64) (filter : Option Filter)
      (b b₁ : Bindings) (predicate : Option Predicate),
      Filter.TranslatesTo catalog filter b predicate b₁ →
      Sql.Quotes (searchStatement catalog strategy predicate limit b₁).sql.render
        (selectedNames catalog ++ [catalog.schema, catalog.table] ++
          filter.elim [] (·.quoted catalog) ++ [catalog.embedding.name])) ∧
    ∀ (R : String → String → Prop) (catalog catalog' : Catalog), Relator.BiUnique R →
      catalog.Renamed R catalog' →
      (∀ (batch batch' : List (Uuid × Embedding × Option TextSegment))
        (rows rows' : List (List Param)),
        List.Forall₂ (fun r r' => TextSegment.Alike catalog catalog' r.2.2 r'.2.2) batch batch' →
        encodeRows catalog batch = .ok rows → encodeRows catalog' batch' = .ok rows' →
        (insertStatements catalog rows).map (Sql.around ·.sql.render) =
          (insertStatements catalog' rows').map (Sql.around ·.sql.render)) ∧
      (∀ ids ids' : List Uuid, Sql.around (deleteStatement catalog ids).sql.render =
        Sql.around (deleteStatement catalog' ids').sql.render) ∧
      ∀ (strategy : DistanceStrategy) (limit limit' : UInt64) (filter filter' : Option Filter)
        (b b₁ b' b₁' : Bindings) (predicate predicate' : Option Predicate),
        Option.Rel (Filter.Alike R) filter filter' → b.toList.length = b'.toList.length →
        Filter.TranslatesTo catalog filter b predicate b₁ →
        Filter.TranslatesTo catalog' filter' b' predicate' b₁' →
        Sql.around (searchStatement catalog strategy predicate limit b₁).sql.render =
          Sql.around (searchStatement catalog' strategy predicate' limit' b₁').sql.render := by
  refine ⟨fun catalog batch rows h => quotes_insertStatements h,
    fun catalog ids => quotes_deleteStatement ids,
    fun catalog strategy limit filter b b₁ predicate h => quotes_searchStatement h strategy limit,
    fun R catalog catalog' hunique h => ⟨?_, h.around_deleteStatement, ?_⟩⟩
  · intro batch batch' rows rows' hbatch hrows hrows'
    exact h.around_insertStatements hbatch hrows hrows'
  · intro strategy limit limit' filter filter' b b₁ b' b₁' predicate predicate' hfilter hlength
      hpredicate hpredicate'
    exact h.around_searchStatement hunique hfilter hlength hpredicate hpredicate' strategy limit
      limit'

/-- A table of notes whose names would all end a statement, if they could, and its search for a page
and a key without a column. Outside the names it is that of a table with plain names. -/
theorem identifiers_stay_quoted_notes :
    let rename (name : String) : String := name ++ "\"; --$1"
    let column (c : Column) : Column := { c with name := rename c.name }
    let renamed : Catalog :=
      { schema := rename "public", table := rename "notes"
        columns := Catalog.notes.columns.map column
        id := column .notesId, content := column .notesContent
        embedding := column .notesEmbedding, metadata := [column .notesPage]
        overflow := some (column .notesMetadata) }
    let f (page tag : String) : Filter :=
      .and (.compare .ne page (.integer 1)) (.compare .gt tag (.long 2))
    ∃ p p' b b', ((f "page" "tag").toPredicate .notes).run .empty = .ok (p, b) ∧
      ((f (rename "page") (rename "tag")).toPredicate renamed).run .empty = .ok (p', b') ∧
      Sql.Quotes (searchStatement renamed .cosine (some p') 4 b').sql.render
        ((["page", "id", "content", "embedding", "metadata_json", "embedding", "public", "notes",
          "page", "page", "metadata_json", "metadata_json"].map rename) ++ ["numeric"] ++
          [rename "embedding"]) ∧
      Sql.around (searchStatement .notes .cosine (some p) 4 b).sql.render =
        Sql.around (searchStatement renamed .cosine (some p') 4 b').sql.render := by
  intro rename column renamed f
  obtain ⟨-, -, hsearch, haround⟩ := identifiers_stay_quoted
  have hunique : Relator.BiUnique fun name name' => name' = rename name := by
    refine ⟨fun name name' more h h' => ?_, fun name name' more h h' => h.trans h'.symm⟩
    exact (String.append_left_inj _).mp (h.symm.trans h')
  have hcolumn (c : Column) : c.Renamed (fun name name' => name' = rename name) (column c) :=
    ⟨rfl, rfl⟩
  have hrenamed : Catalog.notes.Renamed (fun name name' => name' = rename name) renamed :=
    ⟨trivial, trivial, hcolumn _, hcolumn _, hcolumn _, .cons (hcolumn _) .nil, .some (hcolumn _)⟩
  have halike : (f "page" "tag").Alike (fun name name' => name' = rename name)
      (f (rename "page") (rename "tag")) :=
    .and (.compare .ne rfl rfl) (.compare .gt rfl rfl)
  obtain ⟨p, b, hrun⟩ : ∃ p b, ((f "page" "tag").toPredicate .notes).run .empty = .ok (p, b) :=
    ⟨_, _, rfl⟩
  obtain ⟨p', b', hrun'⟩ : ∃ p b,
      ((f (rename "page") (rename "tag")).toPredicate renamed).run .empty = .ok (p, b) :=
    ⟨_, _, rfl⟩
  refine ⟨p, p', b, b', hrun, hrun', ?_, ?_⟩
  · exact hsearch renamed .cosine 4 _ _ _ _ (.present hrun')
  · exact (haround _ _ _ hunique hrenamed).2.2 .cosine 4 4 _ _ _ _ _ _ _ _ (.some halike) rfl
      (.present hrun) (.present hrun')

end VectorTable
