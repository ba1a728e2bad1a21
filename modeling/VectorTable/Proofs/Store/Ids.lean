import VectorTable.Proofs.Row.Parameter
import VectorTable.Proofs.Session.Atomicity
import VectorTable.Proofs.Store.Insert
import VectorTable.Proofs.Uuid

/-!
# VectorTable — the ids that are returned

A store that makes up the ids of a batch returns them in the order of the embeddings, and whoever
removes them later removes the rows of that batch. Ids are compared as UUIDs: the way they are
spelled plays no part.

* `Deletes` — a statement that deletes the rows with some ids;
* `Store.insertedRows` — the rows among the values of some requests;
* `Store.Names` — ids that name the rows of a batch, one by one;
* `Store.returned_ids_name_rows` — the returned ids do, and removal goes by what ids spell.
-/

namespace VectorTable

/-! ## Deletion -/

/-- The deletion of the rows whose ids are in the list that the only slot takes. -/
def deleteText (catalog : Catalog) : String :=
  "DELETE FROM " ++ catalog.quotedTable ++ " WHERE " ++ Identifier.quote catalog.id.name ++
    " = ANY($1::" ++ Identifier.quote catalog.id.typeName ++ "[])"

/-- The statement deletes the rows with some ids, which are the one value that it binds. -/
structure Deletes (catalog : Catalog) (uuids : List Uuid) (statement : Statement) : Prop where
  text : statement.sql.render = deleteText catalog
  values : statement.values = [.uuids uuids]
  /-- Whoever scans the text finds a single slot. -/
  slots : (Sql.scan statement.sql.render).filterMap Sql.Lexeme.slot? = [1]

/-- The statement of a removal deletes the rows with its ids. -/
theorem deletes_deleteStatement (catalog : Catalog) (uuids : List Uuid) :
    Deletes catalog uuids (deleteStatement catalog uuids) := by
  refine ⟨?_, rfl, ?_⟩
  · unfold deleteStatement deleteText
    rw [Sql.render_append, Sql.render_append, render_qualifiedTable]
    have hslot : " = ANY(" ++ ("$" ++ toString 1 ++ "::") = " = ANY($1::" := by decide +kernel
    simp [Sql.render, Sql.Token.render, String.append_assoc, ← hslot]
  · rw [Sql.slots_scan (readable_deleteStatement catalog uuids)]
    simp [deleteStatement, Catalog.qualifiedTable]

namespace Store

variable {s : Store} {ids : List String} {embeddings : List Embedding}
  {segments : List (Option TextSegment)}

/-! ## Rows among the requests -/

/-- The rows that the statements among some requests bind, one statement after the other. -/
def insertedRows (s : Store) (requests : List Request) : List (List SqlValue) :=
  requests.flatMap fun
    | .execute statement => chunks s.catalog.insertColumns.length statement.values
    | _ => []

/-- The rows of some inserts are read off their values, as all have the width of the table. -/
theorem insertedRows_statements {parts : List (List (List Param))}
    (h : ∀ part ∈ parts, ∀ row ∈ part, row.length = s.catalog.insertColumns.length) :
    s.insertedRows ((parts.map (insertStatement s.catalog)).map .execute) =
      parts.flatten.map fun row => row.map (·.value) := by
  induction parts with
  | nil => rfl
  | cons part parts ih =>
    obtain ⟨hpart, hrest⟩ := List.forall_mem_cons.mp h
    rw [List.flatten_cons, List.map_append, ← ih hrest, ← chunks_values hpart]
    rfl

/-- Neither the beginning of a transaction nor its end has a row. -/
theorem insertedRows_transaction (statements : List Request) :
    s.insertedRows (.begin :: statements ++ [.commit]) = s.insertedRows statements := by
  show List.flatMap _ (statements ++ [Request.commit]) = _
  rw [List.flatMap_append]
  exact List.append_nil _

/-- Wherever a batch is cut, its rows are those of its statements. -/
theorem insertedRows_batch {rows : List (List Param)}
    (h : ∀ row ∈ rows, row.length = s.catalog.insertColumns.length) :
    s.insertedRows (.begin :: (insertStatements s.catalog rows).map .execute ++ [.commit]) =
      rows.map fun row => row.map (·.value) := by
  have hparts : ∀ part ∈ chunks (rowsPerStatement s.catalog) rows, ∀ row ∈ part,
      row.length = s.catalog.insertColumns.length := by
    intro part hpart row hrow
    refine h row ?_
    rw [← flatten_chunks (rowsPerStatement s.catalog) rows]
    exact List.mem_flatten_of_mem hpart hrow
  rw [insertedRows_transaction, insertStatements, insertedRows_statements hparts, flatten_chunks]

/-! ## Removal -/

/-- All ids that are parsed go into one statement, which is sent whether or not it is refused. -/
theorem requests_removeAll (hids : ids ≠ []) {uuids : List Uuid} (h : parseIds ids = .ok uuids)
    (db : Database) (sent generated : Nat) :
    ((s.removeAll ids).run db sent generated).requests =
      [.execute (deleteStatement s.catalog uuids)] := by
  unfold removeAll
  rw [if_neg (by simpa using hids), h]
  -- Behind the checks there is a message, the request, and a message about the answer.
  show ((Session.log _ _ _ >>= fun _ => Session.send _ _ >>= fun _ => Session.log _ _ _).run db sent
    generated).requests = _
  rw [Session.run_log_bind]
  cases hanswer : db.answer sent (.execute (deleteStatement s.catalog uuids)) with
  | error source => rw [Session.run_send_bind_error hanswer]
  | ok reply =>
    rw [Session.run_send_bind_ok hanswer]
    rfl

/-- Ids that spell the same UUIDs are the same to a removal. -/
theorem removeAll_congr {ids' : List String} (h : List.Forall₂
      (fun id id' => ∃ u : Uuid, u.Spells id.toList ∧ u.Spells id'.toList) ids ids') :
    s.removeAll ids = s.removeAll ids' := by
  have hempty : ids.isEmpty = ids'.isEmpty := by cases h <;> rfl
  -- Two spellings of one identifier are read as the same one.
  have hparsed : ∃ uuids, parseIds ids = .ok uuids ∧ parseIds ids' = .ok uuids := by
    simp only [parseIds_eq_ok, Uuid.parse?_eq_some_iff]
    clear hempty
    induction h with
    | nil => exact ⟨[], .nil, .nil⟩
    | cons hfirst _ ih =>
      obtain ⟨u, hu, hu'⟩ := hfirst
      obtain ⟨uuids, huuids, huuids'⟩ := ih
      exact ⟨u :: uuids, .cons hu huuids, .cons hu' huuids'⟩
  obtain ⟨uuids, huuids, huuids'⟩ := hparsed
  unfold removeAll
  rw [huuids, huuids', h.length_eq, hempty]

/-! ## New ids -/

/-- The UUIDs that a database makes up next. -/
def newIds (db : Database) (generated count : Nat) : List Uuid :=
  (List.range' generated count).map db.newId

/-- New ids are those that the database makes up next, in order. -/
theorem run_generateIds (s : Store) (count : Nat) (db : Database) (sent generated : Nat) :
    (s.interface.generateIds count).run db sent generated =
      ⟨[], [], generated + count, .ok ((newIds db generated count).map toString)⟩ := by
  unfold EmbeddingStore.generateIds
  induction count generalizing generated with
  | zero => rfl
  | succ count ih =>
    have hrest := ih (generated + 1)
    rw [List.replicate_succ, List.mapM_cons]
    -- The first id is taken from the stream, and the others are put behind it.
    show Session.run db sent (generated + 1) (_ >>= fun rest => pure _) = _
    rw [Session.run_bind_pure, hrest, Nat.add_assoc, Nat.add_comm 1 count]
    rfl

/-! ## Rows of a batch -/

/-- A row starts with its id. -/
theorem heads_encodeRow {triples : List (Uuid × Embedding × Option TextSegment)}
    {rows : List (List Param)}
    (h : List.Forall₂
      (fun triple row => encodeRow s.catalog triple.1 triple.2.1 triple.2.2 = .ok row)
      triples rows) :
    (rows.map fun row => row.map (·.value)).map List.head? =
      (triples.map Prod.fst).map fun uuid => some (.uuid (some uuid)) := by
  induction h with
  | nil => rfl
  | @cons triple row _ _ hrow _ ih =>
    obtain ⟨split, -, rfl⟩ := encodeRow_eq_ok.mp hrow
    simp only [List.map_cons, ih]
    exact congrArg (fun id => some id :: _) (s.catalog.id.idParam_value triple.1)

/-- The rows of a batch start with its ids, in order. -/
theorem heads_encodeBatch {rows : List (List Param)}
    (h : s.encodeBatch ids embeddings segments = .ok rows)
    (hembeddings : embeddings.length = ids.length) (hsegments : segments.length = ids.length) :
    ∃ uuids, parseIds ids = .ok uuids ∧
      (rows.map fun row => row.map (·.value)).map List.head? =
        uuids.map fun uuid => some (.uuid (some uuid)) := by
  obtain ⟨uuids, -, huuids, -, -, -, hrows⟩ := encodeBatch_eq_ok.mp h
  have hlength := (parseIds_eq_ok.mp huuids).length_eq
  have hzip : (uuids.zip (embeddings.zip segments)).map Prod.fst = uuids := by
    refine List.map_fst_zip ?_
    rw [List.length_zip]
    omega
  exact ⟨uuids, huuids, by rw [heads_encodeRow hrows, hzip]⟩

/-- A row that has an id and a vector, and nothing else. -/
def Bare (s : Store) (row : List SqlValue) : Prop :=
  ∃ id vector nulls, row = [id, .text none, vector] ++ nulls ∧
    nulls.length = s.catalog.metadata.length + s.catalog.overflow.toList.length ∧
    ∀ value ∈ nulls, value.isNull = true

/-- Without a segment there is neither text nor metadata, and what they would fill is null. -/
theorem RowOf.bare {id : String} {embedding : Embedding} {row : List SqlValue}
    (h : s.RowOf id embedding none row) : s.Bare row := by
  obtain ⟨uuid, split, -, hsplit, rfl⟩ := h
  obtain rfl := Except.ok.inj (Metadata.split_none.symm.trans hsplit)
  refine ⟨_, _, _, rfl, ?_, fun value hvalue => ?_⟩
  · rw [List.length_map, List.length_append, Metadata.columnParams, List.length_map]
    cases s.catalog.overflow <;> rfl
  · obtain ⟨p, hp, rfl⟩ := List.mem_map.mp hvalue
    rcases List.mem_append.mp hp with hp | hp
    · obtain ⟨c, -, rfl⟩ := List.mem_map.mp hp
      exact (c.binds_param none).isNull_iff.mpr rfl
    · obtain ⟨c, -, rfl⟩ := Option.map_eq_some_iff.mp (Option.mem_toList.mp hp)
      rfl

/-! ## Batches -/

/-- Ids that name the rows of a batch. The requests insert rows in one transaction, the rows that
they bind are those of the ids with their vectors and segments, and the removal of the ids is one
deletion of the ids of these rows and of no others. -/
structure Names (s : Store) (ids : List String) (embeddings : List Embedding)
    (segments : List (Option TextSegment)) (requests : List Request) : Prop where
  ids_length : ids.length = embeddings.length
  segments_length : segments.length = embeddings.length
  nothing : embeddings = [] → requests = []
  transaction : embeddings ≠ [] → s.InsertsRows (s.insertedRows requests) requests
  rows_length : (s.insertedRows requests).length = embeddings.length
  row (i : Nat) (id : String) (embedding : Embedding) (segment : Option TextSegment) :
    ids[i]? = some id → embeddings[i]? = some embedding → segments[i]? = some segment →
    ∃ row, (s.insertedRows requests)[i]? = some row ∧ s.RowOf id embedding segment row
  removed : ids ≠ [] → ∃ uuids statement,
    (s.insertedRows requests).map List.head? = uuids.map (fun uuid => some (.uuid (some uuid))) ∧
    Deletes s.catalog uuids statement ∧
    ∀ db sent generated,
      ((s.removeAll ids).run db sent generated).requests = [.execute statement]

/-- Where a batch has been stored, its ids name its rows. -/
theorem names_addAllWithIds (hembeddings : embeddings.length = ids.length)
    (hsegments : segments.length = ids.length) {db : Database} {sent generated : Nat}
    (h : ((s.addAllWithIds ids embeddings segments).run db sent generated).result = .ok ()) :
    s.Names ids embeddings segments
      ((s.addAllWithIds ids embeddings segments).run db sent generated).requests := by
  by_cases hids : ids = []
  · -- Nothing is sent for an empty batch, and there are no rows to name.
    subst hids
    obtain rfl := List.length_eq_zero_iff.mp hembeddings
    obtain rfl := List.length_eq_zero_iff.mp hsegments
    exact ⟨rfl, rfl, fun _ => rfl, fun hne => absurd rfl hne, rfl, nofun, fun hne => absurd rfl hne⟩
  · cases hbatch : s.encodeBatch ids embeddings segments with
    | error error =>
      rw [addAllWithIds_of_error hembeddings hsegments hids hbatch] at h
      cases h
    | ok rows =>
      obtain ⟨hlength, hreceives, hrow⟩ := encodeBatch_rowOf hbatch hembeddings hsegments
      obtain ⟨uuids, huuids, hheads⟩ := heads_encodeBatch hbatch hembeddings hsegments
      -- Nothing has been refused, so that the whole transaction has been sent.
      have hobliging : ∀ n request, db.obliging.Answers n request := fun _ _ => ⟨_, rfl⟩
      obtain ⟨hrequests, -⟩ := completes_addAllWithIds hembeddings hsegments hids hbatch hobliging
        sent generated
      rw [(s.guarded_addAllWithIds ids embeddings segments).run_obliging h] at hrequests
      rw [hrequests]
      have hrows := insertedRows_batch fun row hmem => (hreceives row hmem).length_eq.symm
      refine ⟨hembeddings.symm, by omega, fun hnil => ?_, fun _ => ?_, ?_, ?_, fun _ => ?_⟩
      · rw [hnil] at hembeddings
        exact absurd (List.length_eq_zero_iff.mp hembeddings.symm) hids
      · rw [hrows]
        refine insertsRows_insertStatements (fun hnil => hids ?_) hreceives
        rw [hnil] at hlength
        exact List.length_eq_zero_iff.mp hlength.symm
      · rw [hrows, List.length_map, hlength, hembeddings]
      · intro i id embedding segment hid hembedding hsegment
        obtain ⟨row, hi, hrowOf⟩ := hrow i id embedding segment hid hembedding hsegment
        rw [hrows]
        exact ⟨row.map (·.value), by rw [List.getElem?_map, hi, Option.map_some], hrowOf⟩
      · rw [hrows]
        exact ⟨uuids, _, hheads, deletes_deleteStatement s.catalog uuids,
          requests_removeAll hids huuids⟩

/-- A batch under new ids, which are returned. -/
def addUnderNewIds (s : Store) (embeddings : List Embedding)
    (segments : List (Option TextSegment)) : Session (List String) := do
  let ids ← s.interface.generateIds embeddings.length
  s.addAllWithIds ids embeddings segments
  return ids

theorem addAllWithSegments_of_ne {texts : List TextSegment} (h : embeddings.length ≠ texts.length) :
    s.interface.addAllWithSegments embeddings texts =
      .fail (.violation (.unequalBatch embeddings.length texts.length)) := by
  unfold EmbeddingStore.addAllWithSegments
  rw [if_pos h]
  rfl

theorem addAllWithSegments_of_eq {texts : List TextSegment} (h : embeddings.length = texts.length) :
    s.interface.addAllWithSegments embeddings texts =
      s.addUnderNewIds embeddings (texts.map some) := by
  unfold EmbeddingStore.addAllWithSegments
  rw [if_neg (not_not.mpr h)]
  rfl

/-- A batch under new ids is stored like one under given ids, which are returned then. -/
theorem run_addUnderNewIds (s : Store) (embeddings : List Embedding)
    (segments : List (Option TextSegment)) (db : Database) (sent generated : Nat) :
    let ids := (newIds db generated embeddings.length).map toString
    let t := (s.addAllWithIds ids embeddings segments).run db sent (generated + embeddings.length)
    (s.addUnderNewIds embeddings segments).run db sent generated =
      ⟨t.requests, t.events, t.generated, t.result.map fun _ => ids⟩ := by
  have hids := s.run_generateIds embeddings.length db sent generated
  unfold addUnderNewIds
  rw [Session.run_bind_ok (congrArg Transcript.result hids), hids, Session.run_bind_pure]
  rfl

/-- Where a batch under new ids has been stored, they name its rows. -/
theorem names_addUnderNewIds (hsegments : segments.length = embeddings.length) {db : Database}
    {sent generated : Nat}
    (h : ((s.addUnderNewIds embeddings segments).run db sent generated).result = .ok ids) :
    s.Names ids embeddings segments
      ((s.addUnderNewIds embeddings segments).run db sent generated).requests := by
  rw [run_addUnderNewIds] at h ⊢
  obtain ⟨⟨⟩, hresult, rfl⟩ := map_eq_ok.mp h
  have hlength : ((newIds db generated embeddings.length).map toString).length =
      embeddings.length := by
    rw [List.length_map, newIds, List.length_map, List.length_range']
  exact names_addAllWithIds hlength.symm (hsegments.trans hlength.symm) hresult

/-- Without segments all rows are bare. -/
theorem Names.bare {requests : List Request}
    (h : s.Names ids embeddings (List.replicate embeddings.length none) requests) :
    ∀ row ∈ s.insertedRows requests, s.Bare row := by
  intro row hrow
  obtain ⟨i, hi⟩ := List.mem_iff_getElem?.mp hrow
  have hids := h.ids_length
  have hrows := h.rows_length
  have hlt : i < (s.insertedRows requests).length := (List.getElem?_eq_some_iff.mp hi).1
  obtain ⟨row', hi', hrowOf⟩ := h.row i ids[i] embeddings[i] none
    (List.getElem?_eq_getElem (by omega)) (List.getElem?_eq_getElem (by omega))
    (List.getElem?_replicate_of_lt (by omega))
  obtain rfl := Option.some.inj (hi.symm.trans hi')
  exact hrowOf.bare

/-- **Returned ids name the stored rows.** Where a batch is stored under new ids, they name its
rows, in order, and a later removal of them goes for just these rows. Equally many embeddings and
segments are asked for before anything else. A removal is one deletion of the UUIDs that its ids
spell, whichever way they are spelled. -/
theorem returned_ids_name_rows (s : Store) :
    (∀ embeddings db sent generated ids,
      let t := (s.interface.addAll embeddings).run db sent generated
      t.result = .ok ids →
        s.Names ids embeddings (List.replicate embeddings.length none) t.requests ∧
          ∀ row ∈ s.insertedRows t.requests, s.Bare row) ∧
    (∀ embeddings segments db sent generated ids,
      let t := (s.interface.addAllWithSegments embeddings segments).run db sent generated
      t.result = .ok ids → s.Names ids embeddings (segments.map some) t.requests) ∧
    (∀ embeddings (segments : List TextSegment) db sent generated,
      embeddings.length ≠ segments.length →
      (s.interface.addAllWithSegments embeddings segments).run db sent generated =
        ⟨[], [], generated,
          .error (.violation (.unequalBatch embeddings.length segments.length))⟩) ∧
    (∀ ids uuids, ids ≠ [] →
      List.Forall₂ (fun id uuid => Uuid.parse? id = some uuid) ids uuids →
      ∃ statement, Deletes s.catalog uuids statement ∧
        ∀ db sent generated,
          ((s.removeAll ids).run db sent generated).requests = [.execute statement]) ∧
    ∀ ids ids' : List String,
      List.Forall₂ (fun id id' => ∃ u : Uuid, u.Spells id.toList ∧ u.Spells id'.toList) ids ids' →
      s.removeAll ids = s.removeAll ids' := by
  refine ⟨?_, ?_, ?_, ?_, fun ids ids' h => removeAll_congr h⟩
  · intro embeddings db sent generated ids t h
    have hnames : s.Names ids embeddings (List.replicate embeddings.length none) t.requests :=
      names_addUnderNewIds List.length_replicate h
    exact ⟨hnames, hnames.bare⟩
  · intro embeddings segments db sent generated ids t h
    by_cases hequal : embeddings.length = segments.length
    · simp only [t, addAllWithSegments_of_eq hequal] at h ⊢
      exact names_addUnderNewIds (by rw [List.length_map, hequal]) h
    · simp only [t, addAllWithSegments_of_ne hequal] at h
      cases h
  · intro embeddings segments db sent generated hne
    rw [addAllWithSegments_of_ne hne]
    rfl
  · intro ids uuids hids h
    exact ⟨_, deletes_deleteStatement s.catalog uuids,
      requests_removeAll hids (parseIds_eq_ok.mpr h)⟩

/-- A note is stored under a new id, which can be removed by another spelling. -/
theorem returned_ids_name_rows_urn :
    let uuid : Uuid := ⟨List.replicate 32 10, rfl⟩
    let t := (notes.interface.addAll [⟨[.zero false, .zero true]⟩]).run
      (.answering (fun _ _ => ⟨[], 0⟩) fun _ => uuid) 0 0
    let ids := ["aaaaaaaa-aaaa-aaaa-aaaa-aaaaaaaaaaaa"]
    t.result = .ok ids ∧ notes.Names ids [⟨[.zero false, .zero true]⟩] [none] t.requests ∧
      notes.removeAll ids = notes.removeAll ["URN:UUID:AAAAAAAA-AAAA-AAAA-AAAA-AAAAAAAAAAAA"] := by
  intro uuid t ids
  obtain ⟨hadd, -, -, -, hremove⟩ := returned_ids_name_rows notes
  have hresult : t.result = .ok ids := eq_ok_of_toOption (by decide +kernel)
  refine ⟨hresult, (hadd _ _ 0 0 ids hresult).1, hremove _ _ (.cons ⟨uuid, ?_, ?_⟩ .nil)⟩
  · exact Uuid.parse?_eq_some_iff.mp (by decide +kernel)
  · exact Uuid.parse?_eq_some_iff.mp (by decide +kernel)

end Store

end VectorTable
