import VectorTable.Proofs.Row.Shape
import VectorTable.Proofs.Store.Search

/-!
# VectorTable — data stays out of texts

What a caller passes in is bound, and the text beside it is made without looking at it. So two
calls that agree in the shape of their data send the same texts: nobody who reads the statements,
the database's own log included, learns more than that shape, and no data can become a part of a
statement.

* `Catalog.SameColumn` — keys that are looked up in one place;
* `texts_hide_data` — translations, inserts, deletions and searches over one table, twice.
-/

namespace VectorTable

/-- The keys are one metadata column's, or neither of them has a column. -/
def Catalog.SameColumn (catalog : Catalog) (key key' : String) : Prop :=
  catalog.metadataColumn? key = catalog.metadataColumn? key'

instance (catalog : Catalog) (key key' : String) : Decidable (catalog.SameColumn key key') :=
  inferInstanceAs (Decidable (_ = _))

theorem Catalog.sameColumns (catalog : Catalog) :
    catalog.SameColumns Eq catalog.SameColumn catalog := by
  intro key key' hkey
  rw [hkey]
  cases catalog.metadataColumn? key' with
  | none => exact .none
  | some c => exact .some (.refl c)

theorem TextSegment.Alike.of_kindOf {catalog : Catalog} {segment segment' : Option TextSegment}
    (h : ∀ c ∈ catalog.metadata, kindOf? segment c.name = kindOf? segment' c.name) :
    TextSegment.Alike catalog catalog segment segment' :=
  List.forall₂_same.mpr h

/-- Searches with filters of one shape have the same text. -/
theorem Store.searchStatement_related {s : Store} {request request' : SearchRequest}
    {limit limit' : UInt64} {statement statement' : Statement}
    (hfilter : Option.Rel (Filter.Alike s.catalog.SameColumn) request.filter request'.filter)
    (h : s.searchStatement request limit = .ok statement)
    (h' : s.searchStatement request' limit' = .ok statement') :
    Sql.Related Eq statement.sql statement'.sql := by
  have hcatalog := Catalog.Alike.refl s.catalog
  obtain ⟨predicate, b, htranslates, rfl⟩ := searchStatement_ok h
  obtain ⟨predicate', b', htranslates', rfl⟩ := searchStatement_ok h'
  -- The query vector takes one slot in both searches.
  have hquery : (queryBindings request).toList.length = (queryBindings request').toList.length :=
    rfl
  obtain ⟨hpredicate, hlength⟩ :=
    htranslates.related hfilter hcatalog rfl s.catalog.sameColumns hquery htranslates'
  exact related_searchStatement hcatalog _ hpredicate _ _ hlength

/-- **No data in texts.** Two calls over one table, with other data of the same shape:
* filters are translated into the same text, with equally many values;
* batches are inserted by the same texts, if each row has values of the same kinds for the
  metadata columns;
* deletions and searches have the same text, whatever ids, vectors, values and limits they have. -/
theorem texts_hide_data (catalog : Catalog) :
    (∀ (f f' : Filter) (b b₁ b' b₁' : Bindings) (p p' : Predicate),
      f.Alike catalog.SameColumn f' → b.toList.length = b'.toList.length →
      (f.toPredicate catalog).run b = .ok (p, b₁) →
      (f'.toPredicate catalog).run b' = .ok (p', b₁') →
      p.sql.render = p'.sql.render ∧ b₁.toList.length = b₁'.toList.length) ∧
    (∀ (batch batch' : List (Uuid × Embedding × Option TextSegment))
      (rows rows' : List (List Param)),
      List.Forall₂ (fun r r' => ∀ c ∈ catalog.metadata,
        TextSegment.kindOf? r.2.2 c.name = TextSegment.kindOf? r'.2.2 c.name) batch batch' →
      encodeRows catalog batch = .ok rows → encodeRows catalog batch' = .ok rows' →
      (insertStatements catalog rows).map (·.sql.render) =
        (insertStatements catalog rows').map (·.sql.render)) ∧
    (∀ ids ids' : List Uuid,
      (deleteStatement catalog ids).sql.render = (deleteStatement catalog ids').sql.render) ∧
    ∀ (config : StoreConfig) (request request' : SearchRequest) (limit limit' : UInt64)
      (statement statement' : Statement),
      Option.Rel (Filter.Alike catalog.SameColumn) request.filter request'.filter →
      (Store.mk config catalog).searchStatement request limit = .ok statement →
      (Store.mk config catalog).searchStatement request' limit' = .ok statement' →
      statement.sql.render = statement'.sql.render := by
  have hcatalog := Catalog.Alike.refl catalog
  refine ⟨fun f f' b b₁ b' b₁' p p' hfilter hlength h h' => ?_,
    fun batch batch' rows rows' hbatch h h' => ?_, fun ids ids' => rfl,
    fun config request request' limit limit' statement statement' hfilter h h' => ?_⟩
  · obtain ⟨hpredicate, hsame⟩ :=
      Filter.toPredicate_related hfilter hcatalog rfl catalog.sameColumns hlength h h'
    exact ⟨congrArg Sql.render hpredicate.eq, hsame⟩
  · have hrows := encodeRows_alike hcatalog
      (hbatch.imp fun _ _ hsegment => TextSegment.Alike.of_kindOf hsegment) h h'
    have hstatements := insertStatements_related hcatalog hrows
    rw [← List.forall₂_eq_eq_eq, List.forall₂_map_left_iff, List.forall₂_map_right_iff]
    exact hstatements.imp fun _ _ hsql => congrArg Sql.render hsql.eq
  · exact congrArg Sql.render (Store.searchStatement_related hfilter h h').eq

/-- Notes by their page and by something without a column, once with a key and a value that would
end a statement if they were in it. -/
theorem texts_hide_data_notes :
    let f (page : Int32) (key tag : String) : Filter :=
      .and (.compare .eq "page" (.integer page)) (.compare .ne key (.string tag))
    let zero : Uuid := ⟨List.replicate 32 0, rfl⟩
    let one : Uuid := ⟨List.replicate 32 1, rfl⟩
    let row (id : Uuid) (text : String) (page : Int32) : Uuid × Embedding × Option TextSegment :=
      (id, ⟨[.zero false, .zero true]⟩, some ⟨text, .ofList [("page", .integer page)]⟩)
    (∃ p p' b b', ((f 1 "tag" "a").toPredicate .notes).run .empty = .ok (p, b) ∧
      ((f 2 "\"; DROP" "'; --").toPredicate .notes).run .empty = .ok (p', b') ∧
      p.sql.render = p'.sql.render ∧ b.toList.length = b'.toList.length) ∧
    (∃ rows rows', encodeRows .notes [row zero "a" 1] = .ok rows ∧
      encodeRows .notes [row one "'); --" 2] = .ok rows' ∧
      (insertStatements .notes rows).map (·.sql.render) =
        (insertStatements .notes rows').map (·.sql.render)) := by
  intro f zero one row
  obtain ⟨hfilters, hbatches, -, -⟩ := texts_hide_data .notes
  -- Neither key has a column.
  have hkey : Catalog.notes.SameColumn "tag" "\"; DROP" := by decide
  have halike : (f 1 "tag" "a").Alike Catalog.notes.SameColumn (f 2 "\"; DROP" "'; --") :=
    .and (.compare .eq rfl rfl) (.compare .ne hkey rfl)
  constructor
  · obtain ⟨p, b, hrun⟩ : ∃ p b, ((f 1 "tag" "a").toPredicate .notes).run .empty = .ok (p, b) :=
      ⟨_, _, rfl⟩
    obtain ⟨p', b', hrun'⟩ : ∃ p b,
        ((f 2 "\"; DROP" "'; --").toPredicate .notes).run .empty = .ok (p, b) := ⟨_, _, rfl⟩
    exact ⟨p, p', b, b', hrun, hrun', hfilters _ _ _ _ _ _ _ _ halike rfl hrun hrun'⟩
  · obtain ⟨rows, hrows⟩ : ∃ rows, encodeRows .notes [row zero "a" 1] = .ok rows := ⟨_, rfl⟩
    obtain ⟨rows', hrows'⟩ : ∃ rows, encodeRows .notes [row one "'); --" 2] = .ok rows := ⟨_, rfl⟩
    refine ⟨rows, rows', hrows, hrows', hbatches _ _ _ _ (.cons ?_ .nil) hrows hrows'⟩
    decide

end VectorTable
