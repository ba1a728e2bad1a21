import VectorTable.Proofs.Filter.Slots
import VectorTable.Proofs.Sql.Statement

/-!
# VectorTable — inserts of many rows

Rows are written in as few statements as the limit on bound values allows. The statements take the
rows in their order, each of them as many as it can, and each numbers its own slots from one: the
value of column `j` in row `r` is the one in slot `r * c + j + 1`, where `c` values make a row.

* `insertText` — the text of an insert, in words and names;
* `Inserts` — a statement that inserts some rows: its text, its values and the slots between them;
* `insertStatements_complete` — the statements for a list of rows.
-/

namespace VectorTable

/-! ## Pieces of a list -/

section

variable {α : Type} {size : Nat} {l part : List α}

/-- No part is longer than the size of a cut. -/
theorem length_le_of_mem_chunks (hsize : 0 < size) (h : part ∈ chunks size l) :
    part.length ≤ size := by
  induction l using chunks.induct size with
  | case1 =>
    rw [chunks_nil] at h
    cases h
  | case2 a rest ih =>
    rw [chunks_cons] at h
    rcases List.mem_cons.mp h with rfl | h
    · rw [List.length_cons, List.length_take]
      omega
    · exact ih h

/-- Only the last piece may be shorter than the others. -/
theorem length_of_mem_dropLast_chunks (hsize : 0 < size) (h : part ∈ (chunks size l).dropLast) :
    part.length = size := by
  induction l using chunks.induct size with
  | case1 =>
    rw [chunks_nil] at h
    cases h
  | case2 a rest ih =>
    rw [chunks_cons] at h
    rcases Nat.lt_or_ge (size - 1) rest.length with hlong | hshort
    · -- Something is left over, so that the first piece is not the last one.
      have hmore : chunks size (rest.drop (size - 1)) ≠ [] := by
        refine chunks_ne_nil size ?_
        intro hnil
        have hlength := congrArg List.length hnil
        rw [List.length_drop, List.length_nil] at hlength
        omega
      rw [List.dropLast_cons_of_ne_nil hmore] at h
      rcases List.mem_cons.mp h with rfl | h
      · rw [List.length_cons, List.length_take]
        omega
      · exact ih h
    · -- The first piece is the last one and is dropped.
      rw [List.drop_eq_nil_of_le hshort, chunks_nil] at h
      cases h

/-- Rows of one width have as many values as their number times the width. -/
theorem length_flatten_of_width {width : Nat} {rows : List (List α)}
    (hwidth : ∀ row ∈ rows, row.length = width) : rows.flatten.length = rows.length * width := by
  induction rows with
  | nil => exact (Nat.zero_mul width).symm
  | cons row rows ih =>
    obtain ⟨hrow, hrows⟩ := List.forall_mem_cons.mp hwidth
    rw [List.flatten_cons, List.length_append, hrow, ih hrows, List.length_cons, Nat.succ_mul,
      Nat.add_comm]

/-- In rows of one width, the place of an element among all. -/
theorem getElem?_flatten_of_width {width : Nat} {rows : List (List α)}
    (hwidth : ∀ row ∈ rows, row.length = width) {r j : Nat} {row : List α} {a : α}
    (hrow : rows[r]? = some row) (ha : row[j]? = some a) :
    rows.flatten[r * width + j]? = some a := by
  induction rows generalizing r with
  | nil => cases hrow
  | cons first rows ih =>
    obtain ⟨hfirst, hrows⟩ := List.forall_mem_cons.mp hwidth
    rw [List.flatten_cons]
    cases r with
    | zero =>
      obtain rfl := Option.some.inj hrow
      have hj : j < first.length := (List.getElem?_eq_some_iff.mp ha).1
      rw [Nat.zero_mul, Nat.zero_add, List.getElem?_append_left hj]
      exact ha
    | succ r =>
      rw [List.getElem?_cons_succ] at hrow
      -- A row further down lies one width behind the place in the rows that are left.
      have hskip : (r + 1) * width + j = first.length + (r * width + j) := by
        rw [Nat.succ_mul, hfirst]
        omega
      rw [hskip, List.getElem?_append_right (by omega), Nat.add_sub_cancel_left]
      exact ih hrows hrow

end

/-! ## The text -/

/-- The place of a value in a text: the number of its slot, cast where the value has a cast. -/
def Param.slotText (p : Param) (n : Nat) : String :=
  "$" ++ toString n ++ p.cast.elim "" fun typeName => "::" ++ Identifier.quote typeName

/-- The values of a row, the first of them in the slot behind `start`. -/
def tupleText (start : Nat) (row : List Param) : String :=
  "(" ++ ", ".intercalate (row.mapIdx fun j p => p.slotText (start + j + 1)) ++ ")"

/-- The name of a table in a text, with its schema. -/
def Catalog.quotedTable (catalog : Catalog) : String :=
  Identifier.quote catalog.schema ++ "." ++ Identifier.quote catalog.table

/-- The names of the columns that rows are written to: those with a role, those for metadata, and
the one for the other keys. -/
def Catalog.writtenNames (catalog : Catalog) : List String :=
  [catalog.id.name, catalog.content.name, catalog.embedding.name] ++
    catalog.metadata.map (·.name) ++ catalog.overflow.toList.map (·.name)

/-- The insert of some rows, which have a value for each column. -/
def insertText (catalog : Catalog) (rows : List (List Param)) : String :=
  "INSERT INTO " ++ catalog.quotedTable ++ " (" ++
    ", ".intercalate (catalog.writtenNames.map Identifier.quote) ++ ") VALUES " ++
    ", ".intercalate (rows.mapIdx fun r row => tupleText (r * catalog.writtenNames.length) row)

/-- A table is named by its schema and itself, each between quotes. -/
theorem render_qualifiedTable (catalog : Catalog) :
    catalog.qualifiedTable.render = catalog.quotedTable := by
  simp [Catalog.qualifiedTable, Sql.qualified, Sql.render, Sql.Token.render, Catalog.quotedTable,
    String.append_assoc]

/-- Rows are written to the columns that an insert lists. -/
theorem Catalog.map_name_insertColumns (catalog : Catalog) :
    catalog.insertColumns.map (·.name) = catalog.writtenNames := by
  rw [insertColumns, List.map_append, List.map_append]
  rfl

/-- There are as many written names as columns that an insert fills. -/
theorem Catalog.length_writtenNames (catalog : Catalog) :
    catalog.writtenNames.length = catalog.insertColumns.length := by
  rw [← map_name_insertColumns, List.length_map]

/-- A slot is written with its number, and with its cast if it has one. -/
theorem render_placeholder (p : Param) (n : Nat) :
    (Sql.placeholder n p.cast).render = p.slotText n := by
  unfold Sql.placeholder Param.slotText
  cases p.cast <;> simp [Sql.render, Sql.Token.render, String.append_assoc]

/-- A row is written as the tuple of its slots. -/
theorem render_tuple (start : Nat) (row : List Param) :
    (tuple start row).render = tupleText start row := by
  have hslots : ((Target.slots start row).map Operand.sql).map Sql.render =
      row.mapIdx fun j p => p.slotText (start + j + 1) := by
    unfold Target.slots
    rw [List.map_map, List.map_map, List.mapIdx_eq_zipIdx_map, List.zipIdx_eq_map_add,
      List.map_map]
    refine List.map_congr_left ?_
    rintro ⟨p, j⟩ -
    show (Sql.placeholder (start + 1 + j) p.cast).render = _
    rw [render_placeholder, Nat.add_right_comm]
  unfold tupleText
  rw [tuple_eq, Sql.render_append, Sql.render_append, Sql.render_commas, hslots]
  rfl

example : (tuple 5 [.plain (.integer none), .casted (.text none) "json"]).render =
    "($6, $7::\"json\")" := by
  decide +kernel

/-- Rows of one width are numbered on from one to the next. -/
theorem render_tuples {width : Nat} {rows : List (List Param)}
    (hwidth : ∀ row ∈ rows, row.length = width) (start : Nat) :
    (tuples start rows).map Sql.render =
      rows.mapIdx fun r row => tupleText (start + r * width) row := by
  induction rows generalizing start with
  | nil => rfl
  | cons row rows ih =>
    obtain ⟨hrow, hrows⟩ := List.forall_mem_cons.mp hwidth
    rw [tuples, List.map_cons, List.mapIdx_cons, ih hrows, render_tuple, Nat.zero_mul,
      Nat.add_zero, hrow]
    congr 2
    funext r row
    rw [Nat.succ_mul, Nat.add_assoc, Nat.add_comm width]

/-- The slots of all rows are counted through. -/
theorem slots_tuples (start : Nat) (rows : List (List Param)) :
    (tuples start rows).flatMap Sql.slots = List.range' (start + 1) rows.flatten.length := by
  induction rows generalizing start with
  | nil => rfl
  | cons row rows ih =>
    have hrow : (tuple start row).slots = List.range' (start + 1) row.length := by
      rw [tuple_eq]
      simp [Target.slots_slots]
    rw [tuples, List.flatMap_cons, ih, hrow, List.flatten_cons, List.length_append,
      Nat.add_right_comm, List.range'_append_1]

/-! ## A statement -/

/-- The statement inserts some rows, each of which has a value for each column. -/
structure Inserts (catalog : Catalog) (rows : List (List Param)) (statement : Statement) :
    Prop where
  /-- Slot `r * c + j + 1` stands at place `j` of row `r`. -/
  text : statement.sql.render = insertText catalog rows
  values : statement.values = rows.flatten.map (·.value)
  length : statement.values.length = rows.length * catalog.insertColumns.length
  /-- The value in slot `r * c + j + 1` is the one at place `j` of row `r`. -/
  value : ∀ r j row p, rows[r]? = some row → row[j]? = some p →
    statement.values[r * catalog.insertColumns.length + j]? = some p.value
  /-- Whoever scans the text finds all slots from the first to the last, in order. -/
  slots : (Sql.scan statement.sql.render).filterMap Sql.Lexeme.slot? =
    List.range' 1 statement.values.length

variable (catalog : Catalog)

/-- An insert fills at least the columns that have a role. -/
theorem insertColumns_pos : 0 < catalog.insertColumns.length := by
  simp [Catalog.insertColumns]

/-- An insert binds the values of its rows, one row after the other. -/
theorem values_insertStatement (rows : List (List Param)) :
    (insertStatement catalog rows).values = rows.flatten.map (·.value) := by
  rw [insertStatement, List.map_flatten, List.flatMap_def]

/-- The slots of an insert are numbered like the values that it binds. -/
theorem slots_insertStatement (rows : List (List Param)) :
    (insertStatement catalog rows).sql.slots = List.range' 1 rows.flatten.length := by
  have hcolumns : (catalog.insertColumns.map fun c => ([.name c.name] : Sql)).flatMap Sql.slots =
      [] := by
    simp
  simp [insertStatement, Catalog.qualifiedTable, hcolumns, slots_tuples]

variable {catalog}

/-- An insert of rows with the width of the table inserts these rows. -/
theorem insertStatement_inserts {rows : List (List Param)} (hne : rows ≠ [])
    (hwidth : ∀ row ∈ rows, row.length = catalog.insertColumns.length) :
    Inserts catalog rows (insertStatement catalog rows) := by
  have hpos := insertColumns_pos catalog
  have hvalues := values_insertStatement catalog rows
  have hreadable : (insertStatement catalog rows).sql.Readable := by
    refine readable_insertStatement catalog hne ?_
    intro row hrow
    rw [← List.length_pos_iff, hwidth row hrow]
    exact hpos
  constructor
  · have hcolumns : (catalog.insertColumns.map fun c => ([.name c.name] : Sql)).map Sql.render =
        catalog.writtenNames.map Identifier.quote := by
      rw [← Catalog.map_name_insertColumns, List.map_map, List.map_map]
      refine List.map_congr_left ?_
      intro c _
      simp [Sql.render, Sql.Token.render]
    have htuples := render_tuples hwidth 0
    simp only [Nat.zero_add] at htuples
    unfold insertStatement insertText
    simp only [Sql.render_append, Sql.render_commas, hcolumns, htuples, render_qualifiedTable,
      Catalog.length_writtenNames]
    rfl
  · exact hvalues
  · rw [hvalues, List.length_map, length_flatten_of_width hwidth]
  · intro r j row p hrow hp
    rw [hvalues, List.getElem?_map, getElem?_flatten_of_width hwidth hrow hp]
    rfl
  · rw [Sql.slots_scan hreadable, slots_insertStatement, hvalues, List.length_map]

/-! ## All statements -/

/-- **Inserts lose nothing and keep to the limit.** Rows of a value for each column are divided
among the statements in their order, so that all but the last statement take as many rows as the
limit allows, and none of them is without a row. -/
theorem insertStatements_complete (catalog : Catalog) (rows : List (List Param))
    (hcolumns : catalog.insertColumns.length ≤ maxBoundValues)
    (hwidth : ∀ row ∈ rows, row.length = catalog.insertColumns.length) :
    let statements := insertStatements catalog rows
    (rows = [] → statements = []) ∧
      statements.flatMap (·.values) = rows.flatMap (fun row => row.map (·.value)) ∧
      (∀ statement ∈ statements, statement.values.length ≤ maxBoundValues) ∧
      ∃ parts : List (List (List Param)), parts.flatten = rows ∧
        List.Forall₂ (Inserts catalog) parts statements ∧
        (∀ part ∈ parts, part ≠ []) ∧
        ∀ part ∈ parts.dropLast,
          part.length = maxBoundValues / catalog.insertColumns.length := by
  intro statements
  have hpos := insertColumns_pos catalog
  -- The lower bound on the number of rows is not needed: a row always fits.
  have hquotient : 0 < maxBoundValues / catalog.insertColumns.length :=
    Nat.div_pos hcolumns hpos
  have hsize : rowsPerStatement catalog = maxBoundValues / catalog.insertColumns.length := by
    unfold rowsPerStatement
    omega
  have hpart : ∀ part ∈ chunks (rowsPerStatement catalog) rows,
      Inserts catalog part (insertStatement catalog part) := by
    intro part hpart
    refine insertStatement_inserts (ne_nil_of_mem_chunks hpart) ?_
    intro row hrow
    refine hwidth row ?_
    rw [← flatten_chunks (rowsPerStatement catalog) rows]
    exact List.mem_flatten_of_mem hpart hrow
  refine ⟨?_, ?_, ?_, chunks (rowsPerStatement catalog) rows, flatten_chunks _ _, ?_,
    fun part => ne_nil_of_mem_chunks, ?_⟩
  · rintro rfl
    show (chunks _ _).map _ = []
    rw [chunks_nil, List.map_nil]
  · rw [List.flatMap_def]
    exact insertStatements_values catalog rows
  · intro statement hstatement
    obtain ⟨part, hmem, rfl⟩ := List.mem_map.mp hstatement
    have hlength := length_le_of_mem_chunks (by omega) hmem
    rw [hsize] at hlength
    rw [(hpart part hmem).length]
    exact (Nat.mul_le_mul_right _ hlength).trans (Nat.div_mul_le_self _ _)
  · show List.Forall₂ _ _ ((chunks _ _).map _)
    rw [List.forall₂_map_right_iff, List.forall₂_same]
    exact hpart
  · intro part hmem
    rw [← hsize]
    exact length_of_mem_dropLast_chunks (by omega) hmem

/-- One row more than a statement takes makes two statements, the second of which is numbered from
one again. -/
theorem insertStatements_complete_notes :
    let row : List Param := [.plain (.uuid none), .plain (.text none), .plain (.vector []),
      .plain (.integer none), .casted (.text none) "json"]
    let rows := List.replicate 13108 row
    Catalog.notes.insertColumns.length ≤ maxBoundValues ∧
      (∀ row ∈ rows, row.length = Catalog.notes.insertColumns.length) ∧
      ∃ parts : List (List (List Param)), parts.flatten = rows ∧
        List.Forall₂ (Inserts .notes) parts (insertStatements .notes rows) ∧
        (∀ part ∈ parts, part ≠ []) ∧ ∀ part ∈ parts.dropLast, part.length = 13107 := by
  intro row rows
  have hcolumns : Catalog.notes.insertColumns.length ≤ maxBoundValues := by decide
  -- All rows are alike, so one of them decides their width.
  have hwidth : ∀ row ∈ rows, row.length = Catalog.notes.insertColumns.length := by
    intro _ hrow
    obtain rfl := List.eq_of_mem_replicate hrow
    rfl
  exact ⟨hcolumns, hwidth, (insertStatements_complete .notes rows hcolumns hwidth).2.2.2⟩

end VectorTable
