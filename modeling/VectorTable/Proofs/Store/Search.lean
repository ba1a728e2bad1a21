import VectorTable.Proofs.Filter.Slots
import VectorTable.Proofs.Session.Run
import VectorTable.Store

/-!
# VectorTable — the values of a search

A search sends one statement that selects rows. Its text numbers the values that are bound with
it: the query vector comes first, those of the filter follow, and the limit is the last one.

* `Store.Refers` — a text that refers to each of its values, and where;
* `slots_match_values` — the slots of every translated filter and of every search that is sent.
-/

namespace VectorTable

/-! ## The layout of a search -/

section

variable (catalog : Catalog)

/-- Before the distance there are no slots. -/
theorem slot?_selectedColumns :
    ∀ l ∈ (Sql.commas (selectedColumns catalog)).lexemes, l.slot? = none := by
  refine List.filterMap_eq_nil_iff.mp ?_
  rw [Sql.slots_lexemes (plain_selectedColumns catalog), Sql.slots_commas, slots_selectedColumns]

/-- The lexemes of a search, clause by clause. -/
theorem lexemes_searchStatement (strategy : DistanceStrategy) (predicate : Option Predicate)
    (limit : UInt64) (b : Bindings) :
    (searchStatement catalog strategy predicate limit b).sql.lexemes =
      [.word "select"] ++ (Sql.commas (selectedColumns catalog)).lexemes ++ [.symbol ","] ++
        Sql.lexemes (strategy.distanceExpression [.name catalog.embedding.name] [.slot 1]) ++
        [.word "as", .word "distance", .word "from"] ++ catalog.qualifiedTable.lexemes ++
        predicate.elim [] (fun p => .word "where" :: p.sql.lexemes) ++
        [.word "order", .word "by"] ++
        Sql.lexemes (strategy.orderExpression [.name catalog.embedding.name] [.slot 1]) ++
        [.word "limit", .slot (b.toList.length + 1)] := by
  have hselect : (Sql.Token.text "SELECT ").lexemes = [.word "select"] := by decide
  have hcomma : (Sql.Token.text ", ").lexemes = [.symbol ","] := by decide
  have has : (Sql.Token.text " AS distance").lexemes = [.word "as", .word "distance"] := by decide
  have hfrom : (Sql.Token.text " FROM ").lexemes = [.word "from"] := by decide
  have hwhere : (Sql.Token.text " WHERE ").lexemes = [.word "where"] := by decide
  have horder : (Sql.Token.text " ORDER BY ").lexemes = [.word "order", .word "by"] := by decide
  have hlimit : (Sql.Token.text " LIMIT ").lexemes = [.word "limit"] := by decide
  have hslot : (Sql.Token.slot (b.push (limitValue limit)).1).lexemes =
      [.slot (b.toList.length + 1)] := rfl
  cases predicate <;>
    simp [searchStatement, commas_selectList, hselect, hcomma, has, hfrom, hwhere, horder, hlimit,
      hslot]

end

/-! ## The statement of a search -/

namespace Store

variable {s : Store} {request : SearchRequest} {limit : UInt64} {statement : Statement}

/-- How the text of a search refers to its values. The slots are those of the values. The query
vector is in the first one, in the distance that is reported and in the one that is ordered by,
the values of the condition follow, and the last slot is the limit. -/
structure Refers (s : Store) (request : SearchRequest) (limit : UInt64) (statement : Statement) :
    Prop where
  slots (n : Nat) : .slot n ∈ Sql.scan statement.sql.render ↔ 1 ≤ n ∧ n ≤ statement.values.length
  layout : ∃ columns condition values,
    Filter.Condition s.catalog (.vector request.query.vector) request.filter values condition ∧
    statement.values = .vector request.query.vector :: values ++ [limitValue limit] ∧
    (∀ l ∈ columns, Sql.Lexeme.slot? l = none) ∧
    Sql.scan statement.sql.render =
      [.word "select"] ++ columns ++ [.symbol ","] ++
        Sql.lexemes (s.config.strategy.distanceExpression [.name s.catalog.embedding.name]
          [.slot 1]) ++
        [.word "as", .word "distance", .word "from"] ++ s.catalog.qualifiedTable.lexemes ++
        condition ++ [.word "order", .word "by"] ++
        Sql.lexemes (s.config.strategy.orderExpression [.name s.catalog.embedding.name]
          [.slot 1]) ++
        [.word "limit", .slot statement.values.length]

/-- The bindings of a search before its filter. -/
def queryBindings (request : SearchRequest) : Bindings :=
  (Bindings.empty.push (.vector request.query.vector)).2

theorem toList_queryBindings (request : SearchRequest) :
    (queryBindings request).toList = [.vector request.query.vector] := rfl

/-- A search has a predicate exactly if it has a filter. -/
theorem searchStatement_ok (h : s.searchStatement request limit = .ok statement) :
    ∃ predicate b,
      Filter.TranslatesTo s.catalog request.filter (queryBindings request) predicate b ∧
      statement = VectorTable.searchStatement s.catalog s.config.strategy predicate limit b := by
  unfold searchStatement at h
  cases hfilter : request.filter with
  | none =>
    simp only [hfilter] at h
    cases h
    exact ⟨_, _, .absent _, rfl⟩
  | some f =>
    simp only [hfilter] at h
    obtain ⟨⟨p, b⟩, hrun, hstatement⟩ := bind_eq_ok.mp h
    cases hstatement
    exact ⟨_, _, .present hrun, rfl⟩

theorem checkedSearch_ok (h : s.checkedSearch request limit = .ok statement) :
    s.searchStatement request limit = .ok statement := by
  unfold checkedSearch at h
  split at h
  · cases h
  · obtain ⟨⟨⟩, -, h⟩ := bind_eq_ok.mp h
    exact h

/-- The slots of a search refer to the vector, to what its filter needs and to the limit. -/
theorem searchStatement_refers (h : s.searchStatement request limit = .ok statement) :
    s.Refers request limit statement := by
  obtain ⟨predicate, b, htranslates, rfl⟩ := searchStatement_ok h
  have hreadable := readable_searchStatement s.catalog s.config.strategy htranslates.listed limit b
  constructor
  · intro n
    have hcovers := htranslates.covers
    rw [toList_queryBindings] at hcovers
    -- The filter's slots start behind that of the query vector, and the limit comes after them.
    have hle : 1 ≤ b.toList.length := hcovers.le
    have hmem := hcovers.mem n
    rw [Sql.mem_scan_slot hreadable, slots_searchStatement, values_searchStatement]
    simp only [List.mem_cons, List.mem_append, List.not_mem_nil, or_false, hmem, List.length_append,
      List.length_cons, List.length_nil]
    omega
  · obtain ⟨values, hvalues, hcondition⟩ := htranslates.condition (toList_queryBindings request)
    refine ⟨_, _, values, hcondition, ?_, slot?_selectedColumns s.catalog, ?_⟩
    · rw [values_searchStatement, hvalues]
    · rw [Sql.scan_render hreadable.parted, lexemes_searchStatement, values_searchStatement,
        List.length_append, List.length_singleton]

/-! ## What a search sends -/

/-- The only rows that are selected are those of the checked search. -/
theorem sends_nearest (s : Store) (request : SearchRequest) (limit : UInt64) :
    (s.nearest request limit).Sends fun r =>
      ∀ statement, r = .select statement → s.checkedSearch request limit = .ok statement := by
  unfold nearest
  refine Session.Sends.check fun checked hchecked => Session.Sends.log_bind ?_
  refine (Session.Sends.send nofun).bind fun _ => ?_
  refine (Session.Sends.forM fun setting _ => ?_).bind fun _ => ?_
  · exact (Session.Sends.send nofun).bind fun _ => trivial
  refine (Session.Sends.send ?_).bind fun reply => ?_
  · rintro statement ⟨⟩
    exact hchecked
  · exact (Session.Sends.send nofun).bind fun _ => Session.Sends.lift

/-- A search sends no query but the one that it has checked, with its own limit. -/
theorem sends_search (s : Store) (request : SearchRequest) :
    (s.search request).Sends fun r => ∀ statement, r = .select statement →
      ∃ limit, s.resultLimit request = .ok limit ∧
        s.checkedSearch request limit = .ok statement :=
  Session.Sends.check fun limit hlimit =>
    (s.sends_nearest request limit).imp fun _ h statement hselect =>
      ⟨limit, hlimit, h statement hselect⟩

/-- A re-ranking sends no query but that of a search for more candidates. -/
theorem sends_searchDiverse (s : Store) (request : SearchRequest) :
    (s.searchDiverse request).Sends fun r => ∀ statement, r = .select statement →
      ∃ k, s.resultLimit request = .ok k ∧
        s.checkedSearch request (max s.config.fetchLimit k) = .ok statement :=
  Session.Sends.check fun k hk =>
    ((s.sends_nearest request (max s.config.fetchLimit k)).imp fun _ h statement hselect =>
      ⟨k, hk, h statement hselect⟩).bind fun _ => trivial

end Store

/-- **Slots and values.** The predicate of a filter has in its text the slots of the values that
its translation binds, each where its value belongs, and leaves the values before them alone. So
whatever a search selects refers to its values one by one, from the query vector to the limit. -/
theorem slots_match_values :
    (∀ (catalog : Catalog) (f : Filter) (b b' : Bindings) (p : Predicate),
      (f.toPredicate catalog).run b = .ok (p, b') →
      f.Translated catalog b.toList b'.toList p.sql.render) ∧
    ∀ (s : Store) (request : SearchRequest) (db : Database) (sent generated : Nat)
      (statement : Statement),
      (.select statement ∈ ((s.search request).run db sent generated).requests →
        ∃ limit, s.resultLimit request = .ok limit ∧ s.Refers request limit statement) ∧
      (.select statement ∈ ((s.searchDiverse request).run db sent generated).requests →
        ∃ k, s.resultLimit request = .ok k ∧
          s.Refers request (max s.config.fetchLimit k) statement) := by
  refine ⟨fun catalog f b b' p h => Filter.toPredicate_translated h, ?_⟩
  intro s request db sent generated statement
  constructor
  · intro hsent
    obtain ⟨limit, hlimit, hchecked⟩ :=
      (s.sends_search request).run db sent generated _ hsent statement rfl
    exact ⟨limit, hlimit, Store.searchStatement_refers (Store.checkedSearch_ok hchecked)⟩
  · intro hsent
    obtain ⟨k, hk, hchecked⟩ :=
      (s.sends_searchDiverse request).run db sent generated _ hsent statement rfl
    exact ⟨k, hk, Store.searchStatement_refers (Store.checkedSearch_ok hchecked)⟩

/-- A table with a column that is named like a slot: the search has the slots of its own values,
and the name is none of them. -/
theorem slots_match_values_slot_name :
    let s : Store := ⟨.notes, { Catalog.notes with metadata := [⟨"$2", "integer", "int4", -1⟩] }⟩
    let f : Filter := .and (.compare .ne "$2" (.integer 1)) (.compare .eq "tag" (.string "x"))
    let request : SearchRequest := { query := ⟨[.zero false, .zero true]⟩, filter := some f }
    let db : Database := ⟨fun _ _ => .ok ⟨[], 0⟩, fun _ => ⟨List.replicate 32 0, rfl⟩⟩
    (∃ values, f.Translated s.catalog [] values
      "((\"$2\" IS NULL OR \"$2\" <> $1) AND (\"metadata_json\"::jsonb ->> $2) = $3)") ∧
    ∃ statement, .select statement ∈ ((s.search request).run db 0 0).requests ∧
      s.Refers request 4 statement := by
  intro s f request db
  obtain ⟨htranslated, hsearch⟩ := slots_match_values
  constructor
  · obtain ⟨p, b, hrun, htext⟩ : ∃ p b, (f.toPredicate s.catalog).run .empty = .ok (p, b) ∧
        p.sql.render =
          "((\"$2\" IS NULL OR \"$2\" <> $1) AND (\"metadata_json\"::jsonb ->> $2) = $3)" :=
      ⟨_, _, rfl, by decide +kernel⟩
    exact ⟨_, htext ▸ htranslated s.catalog f .empty b p hrun⟩
  · -- The transaction begins with one request, and the second one selects.
    obtain ⟨statement, hstatement⟩ : ∃ statement,
        ((s.search request).run db 0 0).requests[1]? = some (.select statement) := ⟨_, rfl⟩
    have hsent := List.mem_of_getElem? hstatement
    obtain ⟨limit, hlimit, hrefers⟩ := (hsearch s request db 0 0 statement).1 hsent
    cases hlimit
    exact ⟨statement, hsent, hrefers⟩

end VectorTable
