import VectorTable.Proofs.Filter.Binding
import VectorTable.Proofs.Sql.PredicateText
import VectorTable.Proofs.Sql.Quoting
import VectorTable.Sql.Statement

/-!
# VectorTable — the texts of statements

Inserts, deletions and searches are put together from phrases, like predicates: no token of them
runs on into the next one, and their fixed texts hold neither quotes nor slots. So what is known
of all such statements is known of these: their texts are scanned into their tokens and cut at
their names.

* `readable_insertStatement`, `readable_deleteStatement`, `readable_searchStatement` — statements
  that can be read back from their texts;
* `names_insertStatement` and the like — the names in a statement, in their order;
* `slots_searchStatement` — the slots of a search.
-/

namespace VectorTable

/-- A row is written like the list of a filter, one slot after the other. -/
theorem tuple_eq (start : Nat) (row : List Param) :
    tuple start row = [.text "("] ++
      Sql.commas ((Target.slots start row).map Operand.sql) ++ [.text ")"] := by
  rw [Target.slots, List.map_map]
  rfl

/-! ## Phrases of a statement -/

namespace Sql.Phrase

theorem qualified (schema name : String) : Phrase (Sql.qualified schema name) where
  parted := List.isChain_cons_cons.mpr ⟨⟨'.', rfl, rfl⟩,
    List.isChain_cons_cons.mpr ⟨⟨'"', rfl, rfl⟩, List.isChain_singleton _⟩⟩
  starts := ⟨_, _, '"', rfl, rfl, by decide⟩
  closes := ⟨_, rfl, forall_mem_delimiters.mpr ⟨rfl, rfl, rfl, rfl⟩⟩

/-- A column as text. -/
theorem asText (c : Column) : Phrase (VectorTable.asText c) :=
  (Phrase.name c.name).before (by decide) (by decide)

theorem selectExpression (c : Column) : Phrase c.selectExpression := by
  unfold Column.selectExpression
  split
  · exact asText c
  · exact .name c.name

/-- The call of a function. -/
theorem call {a : Sql} (h : Phrase (.text "(" :: a)) {s : String} (hs : Begins s)
    (hend : (Token.text s).ending.extend '(' = none) : Phrase (.text s :: .text "(" :: a) := by
  obtain ⟨c, hfirst, hclass⟩ := hs
  refine ⟨List.isChain_cons_cons.mpr ⟨⟨'(', rfl, hend⟩, h.parted⟩,
    ⟨.text s, _, c, rfl, hfirst, hclass⟩, ?_⟩
  rw [List.getLast?_cons_cons]
  exact h.closes

variable {a b : Sql}

/-- The reported distance between two expressions. -/
theorem distanceExpression (s : DistanceStrategy) (ha : Phrase a) (hb : Phrase b) :
    Phrase (s.distanceExpression a b) := by
  have hargs := ha.join (s := ", ") (by decide) (by decide) hb
  -- The arguments are closed by a parenthesis, with or without a factor behind it.
  have hcall (close : String) (hclose : Follows close) (hclosed : (Token.text close).Closed) :
      Phrase (.text s.searchFunction :: .text "(" :: ((a ++ .text ", " :: b) ++ [.text close])) :=
    ((hargs.before hclose hclosed).after (by decide) (by decide)).call
      (by cases s <;> decide) (by cases s <;> decide)
  cases s with
  | euclidean | cosine =>
    simpa [DistanceStrategy.distanceExpression] using hcall ")" (by decide) (by decide)
  | innerProduct =>
    have hproduct := (hcall ") * -1)" (by decide) (by decide)).after (s := "(") (by decide)
      (by decide)
    simpa [DistanceStrategy.distanceExpression] using hproduct

/-- The expression that a search orders by. -/
theorem orderExpression (s : DistanceStrategy) (ha : Phrase a) (hb : Phrase b) :
    Phrase (s.orderExpression a b) := by
  have hoperation : Phrase (a ++ .text " " :: .text s.operator :: .text " " :: b) := by
    refine ha.operation hb ?_ ?_
    · cases s <;> exact ⟨'<', by decide, rfl⟩
    · cases s <;> exact ⟨' ', by decide, by decide⟩
  simpa [DistanceStrategy.orderExpression] using hoperation

/-- Phrases with commas between them. -/
theorem commas {parts : List Sql} (hne : parts ≠ []) (h : ∀ p ∈ parts, Phrase p) :
    Phrase (Sql.commas parts) :=
  .separated hne h (by decide) (by decide)

/-- A row that is not empty. -/
theorem tuple (start : Nat) {row : List Param} (hrow : row ≠ []) :
    Phrase (VectorTable.tuple start row) := by
  have hslots : Phrase (Sql.commas ((Target.slots start row).map Operand.sql)) :=
    Operand.phrase_commas (by simpa [Target.slots] using hrow)
  rw [tuple_eq, List.append_assoc]
  exact (hslots.before (s := ")") (by decide) (by decide)).after (s := "(") (by decide) (by decide)

end Sql.Phrase

theorem length_tuples (start : Nat) (rows : List (List Param)) :
    (tuples start rows).length = rows.length := by
  induction rows generalizing start with
  | nil => rfl
  | cons row rows ih => rw [tuples, List.length_cons, ih, List.length_cons]

/-- Where a row stands among others only matters for the number of its first slot. -/
theorem exists_tuple_of_mem {start : Nat} {rows : List (List Param)} {sql : Sql}
    (h : sql ∈ tuples start rows) : ∃ row ∈ rows, ∃ n, sql = tuple n row := by
  induction rows generalizing start with
  | nil => cases h
  | cons row rows ih =>
    rcases List.mem_cons.mp h with rfl | h
    · exact ⟨row, List.mem_cons_self, start, rfl⟩
    · obtain ⟨row', hrow', n, rfl⟩ := ih h
      exact ⟨row', List.mem_cons_of_mem _ hrow', n, rfl⟩

/-! ## What a search selects -/

/-- The expressions that a search selects before the distance. -/
def selectedColumns (catalog : Catalog) : List Sql :=
  catalog.metadata.map Column.selectExpression ++
    [asText catalog.id, asText catalog.content, [.name catalog.embedding.name]] ++
    catalog.overflow.toList.map asText

/-- What holds of the ways in which a column is selected holds of all that is selected. -/
theorem forall_selectedColumns (catalog : Catalog) {P : Sql → Prop}
    (hselect : ∀ c : Column, P c.selectExpression) (htext : ∀ c, P (asText c))
    (hname : ∀ name, P [.name name]) : ∀ sql ∈ selectedColumns catalog, P sql := by
  intro sql hsql
  simp only [selectedColumns, List.mem_append, List.mem_map, List.mem_cons, List.not_mem_nil,
    or_false] at hsql
  rcases hsql with (⟨c, -, rfl⟩ | rfl | rfl | rfl) | ⟨c, -, rfl⟩
  · exact hselect c
  · exact htext _
  · exact htext _
  · exact hname _
  · exact htext c

theorem selectedColumns_ne_nil (catalog : Catalog) : selectedColumns catalog ≠ [] := by
  simp [selectedColumns]

theorem commas_selectList (catalog : Catalog) (strategy : DistanceStrategy) :
    Sql.commas (selectList catalog strategy) =
      Sql.commas (selectedColumns catalog) ++ .text ", " ::
        (strategy.distanceExpression [.name catalog.embedding.name] [.slot 1] ++
          [.text " AS distance"]) :=
  Sql.commas_concat (selectedColumns_ne_nil catalog) _

/-! ## Statements are parted -/

section

variable (catalog : Catalog)

/-- The tokens of an insert are told apart in its text. -/
theorem parted_insertStatement {rows : List (List Param)} (hne : rows ≠ [])
    (hrows : ∀ row ∈ rows, row ≠ []) : (insertStatement catalog rows).sql.Parted := by
  have htable : Sql.Phrase catalog.qualifiedTable := .qualified _ _
  have hcolumns : Sql.Phrase (Sql.commas (catalog.insertColumns.map fun c => [.name c.name])) := by
    refine .commas (by simp [Catalog.insertColumns]) fun sql hsql => ?_
    obtain ⟨c, -, rfl⟩ := List.mem_map.mp hsql
    exact .name c.name
  -- Without rows there would be a text that ends in a blank, and without values an empty pair of
  -- parentheses; neither is a phrase.
  have htuples : Sql.Phrase (Sql.commas (tuples 0 rows)) := by
    refine .commas (fun hnil => hne ?_) fun sql hsql => ?_
    · rw [← List.length_eq_zero_iff, ← length_tuples 0 rows, hnil, List.length_nil]
    · obtain ⟨row, hrow, n, rfl⟩ := exists_tuple_of_mem hsql
      exact .tuple n (hrows row hrow)
  have hall := ((htable.join (s := " (") (by decide) (by decide) hcolumns).join (s := ") VALUES ")
    (by decide) (by decide) htuples).after (s := "INSERT INTO ") (by decide) (by decide)
  simpa [insertStatement] using hall.parted

/-- So are those of a deletion. -/
theorem parted_deleteStatement (ids : List Uuid) : (deleteStatement catalog ids).sql.Parted := by
  have htable : Sql.Phrase catalog.qualifiedTable := .qualified _ _
  -- The brackets behind the type are a lexeme of their own.
  have htype : Sql.Phrase [.name catalog.id.typeName, .text "[])"] :=
    ⟨List.isChain_cons_cons.mpr ⟨⟨'[', rfl, rfl⟩, List.isChain_singleton _⟩,
      ⟨_, _, '"', rfl, rfl, by decide⟩, ⟨.text "[])", rfl, by decide⟩⟩
  have hslot := (Sql.Phrase.slot 1).join (s := "::") (by decide) (by decide) htype
  have hwhere := (Sql.Phrase.name catalog.id.name).join (s := " = ANY(") (by decide) (by decide)
    hslot
  have hall := (htable.join (s := " WHERE ") (by decide) (by decide) hwhere).after
    (s := "DELETE FROM ") (by decide) (by decide)
  simpa [deleteStatement] using hall.parted

theorem phrase_selectList (strategy : DistanceStrategy) :
    Sql.Phrase (Sql.commas (selectList catalog strategy)) := by
  have hcolumns : Sql.Phrase (Sql.commas (selectedColumns catalog)) :=
    .commas (selectedColumns_ne_nil catalog)
      (forall_selectedColumns catalog .selectExpression .asText .name)
  have hdistance := (Sql.Phrase.distanceExpression strategy (.name catalog.embedding.name)
    (.slot 1)).before (s := " AS distance") (by decide) (by decide)
  rw [commas_selectList]
  exact hcolumns.join (s := ", ") (by decide) (by decide) hdistance

/-- So are those of a search, if no list of its condition is empty. -/
theorem parted_searchStatement (strategy : DistanceStrategy) {predicate : Option Predicate}
    (h : ∀ p, predicate = some p → p.Listed) (limit : UInt64) (b : Bindings) :
    (searchStatement catalog strategy predicate limit b).sql.Parted := by
  have hfrom := (phrase_selectList catalog strategy).join (s := " FROM ") (by decide) (by decide)
    (.qualified catalog.schema catalog.table)
  have horder := (Sql.Phrase.orderExpression strategy (.name catalog.embedding.name)
    (.slot 1)).join (s := " LIMIT ") (by decide) (by decide) (.slot (b.push (limitValue limit)).1)
  -- The order follows the table or, where there is one, the condition.
  have hall {front : Sql} (hfront : Sql.Phrase front) :=
    (hfront.join (s := " ORDER BY ") (by decide) (by decide) horder).after (s := "SELECT ")
      (by decide) (by decide)
  cases predicate with
  | none => simpa [searchStatement, Catalog.qualifiedTable] using (hall hfrom).parted
  | some p =>
    have hwhere := hfrom.join (s := " WHERE ") (by decide) (by decide) (Predicate.phrase (h p rfl))
    simpa [searchStatement, Catalog.qualifiedTable] using (hall hwhere).parted

end

/-! ## Statements are plain -/

namespace Sql

theorem plain_placeholder (n : Nat) (cast : Option String) : (placeholder n cast).Plain := by
  cases cast <;> simp +decide [placeholder]

theorem plain_qualified (schema name : String) : (qualified schema name).Plain := by
  simp +decide [qualified]

theorem plain_asText (c : Column) : (asText c).Plain := by
  simp +decide [asText]

theorem plain_selectExpression (c : Column) : c.selectExpression.Plain := by
  unfold Column.selectExpression
  split <;> simp +decide

end Sql

theorem Operand.plain (o : Operand) : o.sql.Plain := by
  cases o with
  | column name => simp [Operand.sql]
  | bound slot cast => exact Sql.plain_placeholder slot cast
  | memberText json key => simp +decide [Operand.sql]
  | memberNumber json key => simp +decide [Operand.sql]

theorem Operand.plain_commas (list : List Operand) :
    (Sql.commas (list.map Operand.sql)).Plain := by
  refine Sql.plain_commas fun sql hsql => ?_
  obtain ⟨o, -, rfl⟩ := List.mem_map.mp hsql
  exact o.plain

theorem plain_tuple (start : Nat) (row : List Param) : (tuple start row).Plain := by
  simp +decide [tuple_eq, Operand.plain_commas]

theorem Predicate.plain (p : Predicate) : p.sql.Plain := by
  -- The texts around the operands are fixed, so that each of them is decided to be plain.
  induction p with
  | constant value => cases value <;> simp +decide [Predicate.sql]
  | compare op left right =>
    have hop : Sql.PlainText op.symbol := by cases op <;> decide
    simp +decide [Predicate.sql, left.plain, right.plain, hop]
  | isNull e => simp +decide [Predicate.sql, e.plain]
  | isIn e list => simp +decide [Predicate.sql, e.plain, Operand.plain_commas]
  | notIn e list => simp +decide [Predicate.sql, e.plain, Operand.plain_commas]
  | and left right ihLeft ihRight => simp +decide [Predicate.sql, ihLeft, ihRight]
  | or left right ihLeft ihRight => simp +decide [Predicate.sql, ihLeft, ihRight]
  | not inner ih => simp +decide [Predicate.sql, ih]
  | orFalse inner ih => simp +decide [Predicate.sql, ih]

theorem DistanceStrategy.plain_distanceExpression (s : DistanceStrategy) {a b : Sql}
    (ha : a.Plain) (hb : b.Plain) : (s.distanceExpression a b).Plain := by
  cases s <;> simp +decide [distanceExpression, searchFunction, ha, hb]

theorem DistanceStrategy.plain_orderExpression (s : DistanceStrategy) {a b : Sql}
    (ha : a.Plain) (hb : b.Plain) : (s.orderExpression a b).Plain := by
  cases s <;> simp +decide [orderExpression, operator, ha, hb]

section

variable (catalog : Catalog)

theorem plain_insertStatement (rows : List (List Param)) :
    (insertStatement catalog rows).sql.Plain := by
  have hcolumns : (Sql.commas (catalog.insertColumns.map fun c => [.name c.name])).Plain := by
    refine Sql.plain_commas fun sql hsql => ?_
    obtain ⟨c, -, rfl⟩ := List.mem_map.mp hsql
    simp
  have htuples : (Sql.commas (tuples 0 rows)).Plain := by
    refine Sql.plain_commas fun sql hsql => ?_
    obtain ⟨row, -, n, rfl⟩ := exists_tuple_of_mem hsql
    exact plain_tuple n row
  simp +decide [insertStatement, Catalog.qualifiedTable, Sql.plain_qualified, hcolumns, htuples]

theorem plain_deleteStatement (ids : List Uuid) : (deleteStatement catalog ids).sql.Plain := by
  simp +decide [deleteStatement, Catalog.qualifiedTable, Sql.plain_qualified]

theorem plain_selectedColumns : (Sql.commas (selectedColumns catalog)).Plain :=
  Sql.plain_commas (forall_selectedColumns catalog Sql.plain_selectExpression Sql.plain_asText
    fun name => by simp)

theorem plain_searchStatement (strategy : DistanceStrategy) (predicate : Option Predicate)
    (limit : UInt64) (b : Bindings) :
    (searchStatement catalog strategy predicate limit b).sql.Plain := by
  have hselect : (Sql.commas (selectList catalog strategy)).Plain := by
    rw [commas_selectList]
    simp +decide [plain_selectedColumns, strategy.plain_distanceExpression]
  have horder := strategy.plain_orderExpression (a := [.name catalog.embedding.name])
    (b := [.slot 1]) (by simp) (by simp)
  cases predicate with
  | none =>
    simp +decide [searchStatement, Catalog.qualifiedTable, Sql.plain_qualified, hselect, horder]
  | some p =>
    simp +decide [searchStatement, Catalog.qualifiedTable, Sql.plain_qualified, hselect, horder,
      p.plain]

end

/-! ## Statements can be read back -/

theorem Predicate.readable {p : Predicate} (h : p.Listed) : p.sql.Readable :=
  ⟨(Predicate.phrase h).parted, p.plain⟩

section

variable (catalog : Catalog)

theorem readable_insertStatement {rows : List (List Param)} (hne : rows ≠ [])
    (hrows : ∀ row ∈ rows, row ≠ []) : (insertStatement catalog rows).sql.Readable :=
  ⟨parted_insertStatement catalog hne hrows, plain_insertStatement catalog rows⟩

theorem readable_deleteStatement (ids : List Uuid) : (deleteStatement catalog ids).sql.Readable :=
  ⟨parted_deleteStatement catalog ids, plain_deleteStatement catalog ids⟩

theorem readable_searchStatement (strategy : DistanceStrategy) {predicate : Option Predicate}
    (h : ∀ p, predicate = some p → p.Listed) (limit : UInt64) (b : Bindings) :
    (searchStatement catalog strategy predicate limit b).sql.Readable :=
  ⟨parted_searchStatement catalog strategy h limit b,
    plain_searchStatement catalog strategy predicate limit b⟩

end

/-! ## Names and slots -/

namespace Sql

@[simp] theorem names_placeholder (n : Nat) (cast : Option String) :
    (placeholder n cast).names = cast.toList := by
  cases cast <;> rfl

@[simp] theorem slots_placeholder (n : Nat) (cast : Option String) :
    (placeholder n cast).slots = [n] := by
  cases cast <;> rfl

@[simp] theorem names_qualified (schema name : String) :
    (qualified schema name).names = [schema, name] := rfl

@[simp] theorem slots_qualified (schema name : String) : (qualified schema name).slots = [] := rfl

@[simp] theorem names_asText (c : Column) : (asText c).names = [c.name] := rfl

@[simp] theorem slots_asText (c : Column) : (asText c).slots = [] := rfl

@[simp] theorem names_selectExpression (c : Column) : c.selectExpression.names = [c.name] := by
  unfold Column.selectExpression
  split <;> rfl

@[simp] theorem slots_selectExpression (c : Column) : c.selectExpression.slots = [] := by
  unfold Column.selectExpression
  split <;> rfl

/-- The names in a row of slots are those of the types that values are cast to. -/
theorem names_slots (start : Nat) (params : List Param) :
    ((Target.slots start params).map Operand.sql).flatMap names = params.filterMap (·.cast) := by
  induction params generalizing start with
  | nil => rfl
  | cons p params ih =>
    rw [Target.slots_cons, List.map_cons, List.flatMap_cons, ih, Operand.sql, names_placeholder]
    simp only [List.filterMap_eq_flatMap_toList, List.flatMap_cons]

theorem names_tuple (start : Nat) (row : List Param) :
    (tuple start row).names = row.filterMap (·.cast) := by
  simp only [tuple_eq, names_append, names_text, names_nil, names_commas, names_slots,
    List.nil_append, List.append_nil]

theorem names_tuples (start : Nat) (rows : List (List Param)) :
    (tuples start rows).flatMap names = rows.flatMap fun row => row.filterMap (·.cast) := by
  induction rows generalizing start with
  | nil => rfl
  | cons row rows ih => rw [tuples, List.flatMap_cons, List.flatMap_cons, names_tuple, ih]

end Sql

section

variable (catalog : Catalog)

/-- An insert names its table and its columns, and then the types that values are cast to. -/
theorem names_insertStatement (rows : List (List Param)) :
    (insertStatement catalog rows).sql.names =
      [catalog.schema, catalog.table] ++ catalog.insertColumns.map (·.name) ++
        rows.flatMap fun row => row.filterMap (·.cast) := by
  have hcolumns : (catalog.insertColumns.map fun c => ([.name c.name] : Sql)).flatMap Sql.names =
      catalog.insertColumns.map (·.name) := by
    rw [List.flatMap_map]
    exact List.map_eq_flatMap.symm
  simp [insertStatement, Catalog.qualifiedTable, hcolumns, Sql.names_tuples]

/-- A deletion names its table, the id column and its type. -/
theorem names_deleteStatement (ids : List Uuid) :
    (deleteStatement catalog ids).sql.names =
      [catalog.schema, catalog.table, catalog.id.name, catalog.id.typeName] := rfl

/-- The names that a search selects: a column for each expression. -/
def selectedNames : List String :=
  catalog.metadata.map (·.name) ++
    [catalog.id.name, catalog.content.name, catalog.embedding.name] ++
    catalog.overflow.toList.map (·.name) ++ [catalog.embedding.name]

theorem names_selectList (strategy : DistanceStrategy) :
    (selectList catalog strategy).flatMap Sql.names = selectedNames catalog := by
  have hmetadata : (catalog.metadata.map Column.selectExpression).flatMap Sql.names =
      catalog.metadata.map (·.name) := by
    rw [List.flatMap_map, List.map_eq_flatMap]
    exact congrArg (catalog.metadata.flatMap ·) (funext Sql.names_selectExpression)
  have hdistance : Sql.names
      (strategy.distanceExpression [.name catalog.embedding.name] [.slot 1]) =
      [catalog.embedding.name] := by
    cases strategy <;> rfl
  simp only [selectList, selectedNames, List.flatMap_append, hmetadata]
  cases catalog.overflow <;> simp [hdistance]

/-- Before the distance there are no slots. -/
theorem slots_selectedColumns : (selectedColumns catalog).flatMap Sql.slots = [] :=
  List.flatMap_eq_nil_iff.mpr (forall_selectedColumns catalog Sql.slots_selectExpression
    Sql.slots_asText fun _ => rfl)

theorem slots_selectList (strategy : DistanceStrategy) :
    (selectList catalog strategy).flatMap Sql.slots = [1] := by
  have hdistance : Sql.slots
      (strategy.distanceExpression [.name catalog.embedding.name] [.slot 1]) = [1] := by
    cases strategy <;> rfl
  have hlist : selectList catalog strategy = selectedColumns catalog ++
      [strategy.distanceExpression [.name catalog.embedding.name] [.slot 1] ++
        [.text " AS distance"]] := rfl
  simp [hlist, slots_selectedColumns, hdistance]

variable (strategy : DistanceStrategy) (predicate : Option Predicate) (limit : UInt64)
  (b : Bindings)

/-- A search names what it selects, its table, what its condition names, and the vector column that
it orders by. -/
theorem names_searchStatement :
    (searchStatement catalog strategy predicate limit b).sql.names =
      selectedNames catalog ++ [catalog.schema, catalog.table] ++
        predicate.elim [] (·.sql.names) ++ [catalog.embedding.name] := by
  have horder : Sql.names (strategy.orderExpression [.name catalog.embedding.name] [.slot 1]) =
      [catalog.embedding.name] := by
    cases strategy <;> rfl
  cases predicate <;>
    simp [searchStatement, Catalog.qualifiedTable, names_selectList, horder]

/-- A search has the query vector in its first slot, which it uses twice, and the limit in its last.
-/
theorem slots_searchStatement :
    (searchStatement catalog strategy predicate limit b).sql.slots =
      1 :: (predicate.elim [] (·.sql.slots) ++ [1, b.toList.length + 1]) := by
  have horder : Sql.slots (strategy.orderExpression [.name catalog.embedding.name] [.slot 1]) =
      [1] := by
    cases strategy <;> rfl
  have hlimit : (b.push (limitValue limit)).1 = b.toList.length + 1 := rfl
  cases predicate <;>
    simp [searchStatement, Catalog.qualifiedTable, slots_selectList, horder, hlimit]

theorem values_searchStatement :
    (searchStatement catalog strategy predicate limit b).values =
      b.toList ++ [limitValue limit] := by
  simp [searchStatement, Bindings.push, Bindings.toList]

end

end VectorTable
