import VectorTable.Proofs.Catalog
import VectorTable.Proofs.Row.Shape
import VectorTable.Proofs.Session.Run
import VectorTable.Proofs.Sql.Inserts
import VectorTable.Store

/-!
# VectorTable — inserting a batch

A batch is checked in full, encoded row by row, and sent in one transaction, cut into as many
statements as the limit on bound values asks for.

* `Store.Accepts` — the batches that are sent;
* `Store.RowOf` — what a row binds for one id with its vector and segment;
* `Store.InsertsRows` — requests that insert rows in one transaction;
* `Store.addAllWithIds_stores_batch` — exactly these batches are sent, and exactly their rows.
-/

namespace VectorTable

namespace Store

/-- The store over the table of notes. -/
def notes : Store := ⟨.notes, .notes⟩

variable (s : Store)

/-! ## What is accepted -/

/-- The dimension that the vectors of a batch must have: the declared one or, where none is
declared, that of the first vector. -/
def expectedDimension? (embeddings : List Embedding) : Option Nat :=
  s.catalog.dimension?.or (embeddings.head?.map Embedding.dimension)

/-- The batches that can be stored. -/
structure Accepts (ids : List String) (embeddings : List Embedding)
    (segments : List (Option TextSegment)) : Prop where
  embeddings_length : embeddings.length = ids.length
  segments_length : segments.length = ids.length
  ids_ne_nil : ids ≠ []
  uuids : ∀ id ∈ ids, ∃ uuid, Uuid.parse? id = some uuid
  dimension : ∃ expected, 0 < expected ∧ s.expectedDimension? embeddings = some expected ∧
    ∀ embedding ∈ embeddings, embedding.dimension = expected
  storable : ∀ segment, some segment ∈ segments → segment.metadata.Storable s.catalog

/-- The values of the row that stores a segment and its vector under an id. -/
def RowOf (id : String) (embedding : Embedding) (segment : Option TextSegment)
    (values : List SqlValue) : Prop :=
  ∃ uuid split, Uuid.parse? id = some uuid ∧
    Metadata.split s.catalog (segment.map (·.metadata)) = .ok split ∧
    values = [.uuid (some uuid), .text (segment.map (·.text)), .vector embedding.vector] ++
      (split.columns ++ split.overflow.toList).map (·.value)

/-! ## Checking a batch -/

/-- Ids are parsed one by one. -/
theorem parseIds_eq_ok {ids : List String} {uuids : List Uuid} :
    parseIds ids = .ok uuids ↔
      List.Forall₂ (fun id uuid => Uuid.parse? id = some uuid) ids uuids := by
  rw [parseIds, mapM_eq_ok_iff]
  constructor <;> refine fun h => h.imp fun id uuid hid => ?_
  · split at hid
    · cases hid
      assumption
    · cases hid
  · rw [hid]

theorem checkDimension_eq_ok {expected : Nat} {embedding : Embedding} :
    s.checkDimension expected embedding = .ok () ↔ embedding.dimension = expected := by
  unfold checkDimension
  split
  · rename_i h
    exact iff_of_true rfl h
  · rename_i h
    exact iff_of_false (fun hok => by cases hok) h

variable {s} {ids : List String} {embeddings : List Embedding}
  {segments : List (Option TextSegment)}

/-- What an accepted batch has been checked for, and the rows it is encoded into. -/
theorem encodeBatch_eq_ok {rows : List (List Param)} :
    s.encodeBatch ids embeddings segments = .ok rows ↔
      ∃ uuids expected, parseIds ids = .ok uuids ∧
        expected = s.catalog.dimension?.getD ((embeddings.head?.map Embedding.dimension).getD 0) ∧
        expected ≠ 0 ∧ (∀ embedding ∈ embeddings, embedding.dimension = expected) ∧
        List.Forall₂
          (fun triple row => encodeRow s.catalog triple.1 triple.2.1 triple.2.2 = .ok row)
          (uuids.zip (embeddings.zip segments)) rows := by
  unfold encodeBatch
  rw [bind_eq_ok]
  constructor
  · rintro ⟨uuids, huuids, h⟩
    dsimp only at h
    split at h
    · cases h
    rename_i hexpected
    obtain ⟨⟨⟩, hdimensions, hrows⟩ := bind_eq_ok.mp h
    refine ⟨uuids, _, huuids, rfl, hexpected, fun embedding hmem => ?_, mapM_eq_ok_iff.mp hrows⟩
    exact s.checkDimension_eq_ok.mp (forM_eq_ok_iff.mp hdimensions embedding hmem)
  · rintro ⟨uuids, expected, huuids, rfl, hexpected, hdimensions, hrows⟩
    refine ⟨uuids, huuids, ?_⟩
    dsimp only
    rw [if_neg hexpected]
    refine bind_eq_ok.mpr ⟨(), forM_eq_ok_iff.mpr fun embedding hmem => ?_,
      mapM_eq_ok_iff.mpr hrows⟩
    exact s.checkDimension_eq_ok.mpr (hdimensions embedding hmem)

/-- The position of a triple of a batch. -/
theorem getElem?_zip_zip {uuids : List Uuid} {i : Nat} {uuid : Uuid} {embedding : Embedding}
    {segment : Option TextSegment} :
    (uuids.zip (embeddings.zip segments))[i]? = some (uuid, embedding, segment) ↔
      uuids[i]? = some uuid ∧ embeddings[i]? = some embedding ∧ segments[i]? = some segment := by
  rw [List.getElem?_zip_eq_some, List.getElem?_zip_eq_some]

/-- The dimension that is asked for is positive exactly if there is one at all. -/
theorem expectedDimension?_eq_some {expected : Nat} (hpos : 0 < expected) :
    s.expectedDimension? embeddings = some expected ↔
      expected = s.catalog.dimension?.getD ((embeddings.head?.map Embedding.dimension).getD 0) := by
  unfold expectedDimension?
  cases s.catalog.dimension? with
  | some declared => simp [eq_comm]
  | none =>
    cases embeddings.head?.map Embedding.dimension with
    | some first => simp [eq_comm]
    | none => simp; omega

/-- A batch of equally many ids, vectors and segments passes all checks exactly if it can be
stored. -/
theorem exists_encodeBatch_iff (hembeddings : embeddings.length = ids.length)
    (hsegments : segments.length = ids.length) (hids : ids ≠ []) :
    (∃ rows, s.encodeBatch ids embeddings segments = .ok rows) ↔
      s.Accepts ids embeddings segments := by
  constructor
  · rintro ⟨rows, h⟩
    obtain ⟨uuids, expected, huuids, hexpected, hne, hdimensions, hrows⟩ := encodeBatch_eq_ok.mp h
    have hparsed := parseIds_eq_ok.mp huuids
    refine ⟨hembeddings, hsegments, hids, fun id hid => ?_, ⟨expected, by omega, ?_, hdimensions⟩,
      fun segment hsegment => ?_⟩
    · obtain ⟨i, hi⟩ := List.mem_iff_getElem?.mp hid
      obtain ⟨uuid, -, huuid⟩ := exists_getElem?_of_forall₂ hparsed hi
      exact ⟨uuid, huuid⟩
    · exact (expectedDimension?_eq_some (by omega)).mpr hexpected
    · -- The segment stands in a triple of the batch, and the row of that triple was encoded.
      obtain ⟨i, hi⟩ := List.mem_iff_getElem?.mp hsegment
      have hlt : i < segments.length := (List.getElem?_eq_some_iff.mp hi).1
      have hlength := hparsed.length_eq
      have htriple : (uuids.zip (embeddings.zip segments))[i]?
          = some (uuids[i], embeddings[i], some segment) :=
        getElem?_zip_zip.mpr
          ⟨List.getElem?_eq_getElem (by omega), List.getElem?_eq_getElem (by omega), hi⟩
      obtain ⟨row, -, hrow⟩ := exists_getElem?_of_forall₂ hrows htriple
      exact exists_encodeRow_iff.mp ⟨row, hrow⟩ segment rfl
  · intro h
    obtain ⟨expected, hpos, hexpected, hdimensions⟩ := h.dimension
    have huuids : ∃ uuids, parseIds ids = .ok uuids := by
      refine exists_mapM_eq_ok fun id hid => ?_
      obtain ⟨uuid, huuid⟩ := h.uuids id hid
      exact ⟨uuid, by rw [huuid]⟩
    obtain ⟨uuids, huuids⟩ := huuids
    have hrows : ∃ rows, (uuids.zip (embeddings.zip segments)).mapM
        (fun triple => encodeRow s.catalog triple.1 triple.2.1 triple.2.2) = .ok rows := by
      refine exists_mapM_eq_ok fun (uuid, embedding, segment) htriple => ?_
      have hmem : segment ∈ segments := (List.of_mem_zip (List.of_mem_zip htriple).2).2
      exact exists_encodeRow_iff.mpr fun d hd => h.storable d (hd ▸ hmem)
    obtain ⟨rows, hrows⟩ := hrows
    exact ⟨rows, encodeBatch_eq_ok.mpr ⟨uuids, expected, huuids,
      (expectedDimension?_eq_some hpos).mp hexpected, by omega, hdimensions,
      mapM_eq_ok_iff.mp hrows⟩⟩

/-- The encoded rows are the rows of the triples, in their order. -/
theorem encodeBatch_rowOf {rows : List (List Param)}
    (h : s.encodeBatch ids embeddings segments = .ok rows)
    (hembeddings : embeddings.length = ids.length) (hsegments : segments.length = ids.length) :
    rows.length = ids.length ∧
      (∀ row ∈ rows, List.Forall₂ Column.Receives s.catalog.insertColumns row) ∧
      ∀ (i : Nat) id embedding segment, ids[i]? = some id → embeddings[i]? = some embedding →
        segments[i]? = some segment →
        ∃ row : List Param, rows[i]? = some row ∧
          s.RowOf id embedding segment (row.map (·.value)) := by
  obtain ⟨uuids, -, huuids, -, -, -, hrows⟩ := encodeBatch_eq_ok.mp h
  have hparsed := parseIds_eq_ok.mp huuids
  refine ⟨?_, fun row hrow => ?_, fun i id embedding segment hid hembedding hsegment => ?_⟩
  · have hlength := hparsed.length_eq
    rw [← hrows.length_eq, List.length_zip, List.length_zip]
    omega
  · obtain ⟨i, hi⟩ := List.mem_iff_getElem?.mp hrow
    obtain ⟨triple, -, htriple⟩ := exists_getElem?_of_forall₂ hrows.flip hi
    exact encodeRow_receives htriple
  · obtain ⟨uuid, huuid, hparse⟩ := exists_getElem?_of_forall₂ hparsed hid
    obtain ⟨row, hi, hrow⟩ := exists_getElem?_of_forall₂ hrows
      (getElem?_zip_zip.mpr ⟨huuid, hembedding, hsegment⟩)
    obtain ⟨split, hsplit, rfl⟩ := encodeRow_eq_ok.mp hrow
    refine ⟨_, hi, uuid, split, hparse, hsplit, ?_⟩
    simp [Column.idParam_value, Param.plain]

/-- Since all rows are equally long, cutting their values finds them again. -/
theorem chunks_values {rows : List (List Param)}
    (h : ∀ row ∈ rows, row.length = s.catalog.insertColumns.length) :
    chunks s.catalog.insertColumns.length ((rows.map fun row => row.map (·.value)).flatten) =
      rows.map fun row => row.map (·.value) := by
  refine chunks_flatten (by simp [Catalog.insertColumns]) fun values hvalues => ?_
  obtain ⟨row, hmem, rfl⟩ := List.mem_map.mp hvalues
  rw [List.length_map]
  exact h row hmem

/-! ## Sending a batch -/

/-- The messages of a batch that has passed its checks. -/
def logDropped (s : Store) (segments : List (Option TextSegment)) : Session Unit :=
  (s.droppedKeyMessages segments).forM (Session.log .store .debug)

/-- The transaction that inserts rows. -/
def sendRows (s : Store) (rows : List (List Param)) : Session Unit := do
  let _ ← .send .begin (s.refusal "insert")
  (insertStatements s.catalog rows).forM fun statement => do
    .log .store .debug <| s!"insert of {statement.values.length} parameters " ++
      s!"into {s.tableText}"
    let _ ← .send (.execute statement) (s.refusal "insert")
  let _ ← .send .commit (s.refusal "insert")

theorem completes_logDropped (s : Store) (segments : List (Option TextSegment)) (db : Database) :
    (s.logDropped segments).Completes db [] := by
  have h : (s.logDropped segments).Completes db
      ((s.droppedKeyMessages segments).flatMap fun _ => []) :=
    Session.completes_forM fun message _ => Session.completes_log .store .debug message
  rwa [List.flatMap_eq_nil_iff.mpr fun _ _ => rfl] at h

/-- The transaction begins with a request, whatever the database answers. -/
theorem exists_run_sendRows (s : Store) (rows : List (List Param)) (db : Database)
    (sent generated : Nat) :
    ∃ rest, ((s.sendRows rows).run db sent generated).requests = .begin :: rest := by
  unfold sendRows
  exact Session.exists_run_send_bind _ _ _ _ _ _

/-- A database that answers everything is sent the statements between `BEGIN` and `COMMIT`. -/
theorem completes_sendRows (s : Store) (rows : List (List Param)) {db : Database}
    (h : ∀ n request, db.Answers n request) :
    (s.sendRows rows).Completes db
      (.begin :: (insertStatements s.catalog rows).map .execute ++ [.commit]) := by
  have hstatements : ((insertStatements s.catalog rows).forM fun statement => do
      Session.log .store .debug <| s!"insert of {statement.values.length} parameters " ++
        s!"into {s.tableText}"
      let _ ← Session.send (.execute statement) (s.refusal "insert")).Completes db
        ((insertStatements s.catalog rows).flatMap fun statement => [.execute statement]) := by
    refine Session.completes_forM fun statement _ => ?_
    refine (Session.completes_log _ _ _).bind fun _ => ?_
    exact (Session.completes_send h _ _).bind fun _ => Session.completes_pure ()
  have hall := (Session.completes_send h .begin (s.refusal "insert")).bind fun _ =>
    hstatements.bind fun _ => (Session.completes_send h .commit (s.refusal "insert")).bind fun _ =>
      Session.completes_pure ()
  rwa [List.append_nil, ← List.map_eq_flatMap, ← List.append_assoc] at hall

section

variable (hembeddings : embeddings.length = ids.length) (hsegments : segments.length = ids.length)
  (hids : ids ≠ [])

include hembeddings hsegments hids

/-- A batch that cannot be encoded is refused with the error of its encoding. -/
theorem addAllWithIds_of_error {error : Error}
    (h : s.encodeBatch ids embeddings segments = .error error) :
    s.addAllWithIds ids embeddings segments = .fail error := by
  unfold addAllWithIds
  rw [if_neg (by simp [hembeddings, hsegments]), if_neg (by simpa using hids), h]
  rfl

/-- A batch that is encoded is sent, after a word about the keys that are dropped. -/
theorem addAllWithIds_of_ok {rows : List (List Param)}
    (h : s.encodeBatch ids embeddings segments = .ok rows) :
    s.addAllWithIds ids embeddings segments
      = s.logDropped segments >>= fun _ => s.sendRows rows := by
  unfold addAllWithIds
  rw [if_neg (by simp [hembeddings, hsegments]), if_neg (by simpa using hids), h]
  rfl

/-- A batch that passes its checks is sent in one transaction. -/
theorem completes_addAllWithIds {rows : List (List Param)}
    (h : s.encodeBatch ids embeddings segments = .ok rows) {db : Database}
    (hdb : ∀ n request, db.Answers n request) :
    (s.addAllWithIds ids embeddings segments).Completes db
      (.begin :: (insertStatements s.catalog rows).map .execute ++ [.commit]) := by
  rw [addAllWithIds_of_ok hembeddings hsegments hids h]
  exact (s.completes_logDropped segments db).bind fun _ => s.completes_sendRows rows hdb

/-- A batch of equally many ids, vectors and segments, and of at least one of each, is sent
exactly if it can be stored. -/
theorem addAllWithIds_sends_iff (db : Database) (sent generated : Nat) :
    ((s.addAllWithIds ids embeddings segments).run db sent generated).requests ≠ [] ↔
      s.Accepts ids embeddings segments := by
  rw [← exists_encodeBatch_iff hembeddings hsegments hids]
  cases h : s.encodeBatch ids embeddings segments with
  | error error =>
    rw [addAllWithIds_of_error hembeddings hsegments hids h]
    exact iff_of_false (fun hne => hne rfl) (fun ⟨rows, hrows⟩ => by cases hrows)
  | ok rows =>
    refine iff_of_true ?_ ⟨rows, rfl⟩
    rw [addAllWithIds_of_ok hembeddings hsegments hids h]
    obtain ⟨hnone, ⟨⟩, hresult⟩ := s.completes_logDropped segments db sent generated
    rw [Session.run_bind_ok hresult, hnone]
    -- The messages sent nothing, so that the transaction comes first.
    obtain ⟨rest, hrest⟩ := s.exists_run_sendRows rows db
      (sent + ([] : List Request).length) ((s.logDropped segments).run db sent generated).generated
    exact hrest ▸ List.cons_ne_nil _ _

end

/-! ## The batch in the database -/

/-- The values that the statements among some requests bind, one statement after the other. -/
def boundValues (requests : List Request) : List SqlValue :=
  requests.flatMap fun
    | .execute statement => statement.values
    | _ => []

/-- A transaction binds what its statements bind. -/
theorem boundValues_transaction (statements : List Statement) :
    boundValues (.begin :: statements.map .execute ++ [.commit]) =
      statements.flatMap (·.values) := by
  simp [boundValues, List.flatMap_map]

/-- Requests that insert rows of values in one transaction. Between the beginning and the end there
are one or more inserts into the columns of the table, each of them of the next rows. -/
structure InsertsRows (s : Store) (rows : List (List SqlValue)) (requests : List Request) :
    Prop where
  transaction : ∃ (parts : List (List (List Param))) (inserts : List Statement), parts ≠ [] ∧
    requests = .begin :: inserts.map .execute ++ [.commit] ∧
    List.Forall₂ (Inserts s.catalog) parts inserts ∧
    parts.flatten.map (fun row => row.map (·.value)) = rows ∧
    ∀ row ∈ parts.flatten, List.Forall₂ Column.Receives s.catalog.insertColumns row
  /-- The bound values are cut into the rows by the number of columns. -/
  values : boundValues requests = rows.flatten
  width : ∀ row ∈ rows, row.length = s.catalog.insertColumns.length

/-- However many statements the limit on bound values asks for, they insert the rows. -/
theorem insertsRows_insertStatements {rows : List (List Param)} (hne : rows ≠ [])
    (hrows : ∀ row ∈ rows, List.Forall₂ Column.Receives s.catalog.insertColumns row) :
    s.InsertsRows (rows.map fun row => row.map (·.value))
      (.begin :: (insertStatements s.catalog rows).map .execute ++ [.commit]) := by
  have hwidth : ∀ row ∈ rows, row.length = s.catalog.insertColumns.length := fun row hrow =>
    (hrows row hrow).length_eq.symm
  have hflatten := flatten_chunks (rowsPerStatement s.catalog) rows
  refine ⟨⟨chunks (rowsPerStatement s.catalog) rows, _, chunks_ne_nil _ hne, rfl, ?_, ?_, ?_⟩,
    ?_, ?_⟩
  · unfold insertStatements
    refine List.forall₂_map_right_iff.mpr (List.forall₂_same.mpr fun part hpart => ?_)
    refine insertStatement_inserts (ne_nil_of_mem_chunks hpart) fun row hrow => hwidth row ?_
    rw [← hflatten]
    exact List.mem_flatten_of_mem hpart hrow
  · rw [hflatten]
  · rwa [hflatten]
  · rw [boundValues_transaction, insertStatements_values]
  · intro values hvalues
    obtain ⟨row, hrow, rfl⟩ := List.mem_map.mp hvalues
    rw [List.length_map, hwidth row hrow]

/-- What a batch sends when every request is answered: it inserts as many rows as it has triples,
and they are the rows of the triples in their order. -/
structure SendsBatch (s : Store) (ids : List String) (embeddings : List Embedding)
    (segments : List (Option TextSegment)) (t : Transcript Unit) : Prop where
  returned : t.result = .ok ()
  stored : ∃ rows, s.InsertsRows rows t.requests ∧ rows.length = ids.length ∧
    ∀ (i : Nat) id embedding segment, ids[i]? = some id → embeddings[i]? = some embedding →
      segments[i]? = some segment →
      ∃ row, rows[i]? = some row ∧ s.RowOf id embedding segment row

/-- A batch that is accepted is sent as a whole. -/
theorem addAllWithIds_sendsBatch (h : s.Accepts ids embeddings segments)
    (reply : Nat → Request → Reply) (newId : Nat → Uuid) :
    s.SendsBatch ids embeddings segments
      ((s.addAllWithIds ids embeddings segments).run (.answering reply newId) 0 0) := by
  have hembeddings := h.embeddings_length
  have hsegments := h.segments_length
  obtain ⟨rows, hrows⟩ := (exists_encodeBatch_iff hembeddings hsegments h.ids_ne_nil).mpr h
  obtain ⟨hlength, hreceives, hrow⟩ := encodeBatch_rowOf hrows hembeddings hsegments
  have hanswers : ∀ n request, (Database.answering reply newId).Answers n request :=
    fun _ _ => ⟨_, rfl⟩
  obtain ⟨hrequests, ⟨⟩, hresult⟩ :=
    completes_addAllWithIds hembeddings hsegments h.ids_ne_nil hrows hanswers 0 0
  have hne : rows ≠ [] := fun hnil => h.ids_ne_nil (List.length_eq_zero_iff.mp (by simp_all))
  refine ⟨hresult, rows.map fun row => row.map (·.value), ?_, ?_, ?_⟩
  · rw [hrequests]
    exact insertsRows_insertStatements hne hreceives
  · rw [List.length_map, hlength]
  · intro i id embedding segment hid hembedding hsegment
    obtain ⟨row, hi, hrowOf⟩ := hrow i id embedding segment hid hembedding hsegment
    exact ⟨row.map (·.value), by rw [List.getElem?_map, hi, Option.map_some], hrowOf⟩

/-- **A batch insert stores exactly the batch.** Statements are sent for the accepted batches and
for no others, an empty batch sends nothing, and when all requests are answered they are one
transaction of inserts into the table, whose values are the rows of the batch, in order. -/
theorem addAllWithIds_stores_batch (s : Store) (ids : List String) (embeddings : List Embedding)
    (segments : List (Option TextSegment)) :
    (∀ db : Database, ((s.addAllWithIds ids embeddings segments).run db 0 0).requests ≠ [] ↔
      s.Accepts ids embeddings segments) ∧
    (∀ db : Database, ids.length = 0 → embeddings.length = 0 → segments.length = 0 →
      (s.addAllWithIds ids embeddings segments).run db 0 0 = ⟨[], [], 0, .ok ()⟩) ∧
    (∀ (reply : Nat → Request → Reply) (newId : Nat → Uuid),
      let t := (s.addAllWithIds ids embeddings segments).run (.answering reply newId) 0 0
      t.requests ≠ [] → s.SendsBatch ids embeddings segments t) := by
  have hsends (db : Database) :
      ((s.addAllWithIds ids embeddings segments).run db 0 0).requests ≠ [] ↔
        s.Accepts ids embeddings segments := by
    by_cases hlengths : embeddings.length = ids.length ∧ segments.length = ids.length
    · obtain ⟨hembeddings, hsegments⟩ := hlengths
      by_cases hids : ids = []
      · -- An empty batch has a value at once; there is nothing in it to accept.
        refine iff_of_false (fun hne => hne ?_) fun h => h.ids_ne_nil hids
        unfold addAllWithIds
        rw [if_neg (by simp [hembeddings, hsegments]), if_pos (by simp [hids])]
        rfl
      · exact addAllWithIds_sends_iff hembeddings hsegments hids db 0 0
    · refine iff_of_false (fun hne => hne ?_) fun h =>
        hlengths ⟨h.embeddings_length, h.segments_length⟩
      unfold addAllWithIds
      rw [if_pos (by omega)]
      rfl
  refine ⟨hsends, fun db hids hembeddings hsegments => ?_, fun reply newId hne => ?_⟩
  · unfold addAllWithIds
    rw [if_neg (by omega), if_pos (by simpa using hids)]
    rfl
  · exact addAllWithIds_sendsBatch ((hsends _).mp hne) reply newId

/-- A batch of one vector without a segment is stored, whatever the database answers. -/
theorem addAllWithIds_stores_batch_one_note :
    let ids := ["01234567-89ab-cdef-0123-456789abcdef"]
    let embeddings : List Embedding := [⟨[.zero false, .zero true]⟩]
    ∀ (reply : Nat → Request → Reply) (newId : Nat → Uuid),
      let t := (notes.addAllWithIds ids embeddings [none]).run (.answering reply newId) 0 0
      t.requests ≠ [] ∧ notes.SendsBatch ids embeddings [none] t := by
  intro ids embeddings reply newId t
  obtain ⟨hsends, -, hstores⟩ := addAllWithIds_stores_batch notes ids embeddings [none]
  have haccepts : notes.Accepts ids embeddings [none] := by
    refine ⟨rfl, rfl, List.cons_ne_nil _ _, ?_, ⟨2, by decide, by decide, ?_⟩, ?_⟩
    · exact List.forall_mem_singleton.mpr (Option.isSome_iff_exists.mp (by decide))
    · exact List.forall_mem_singleton.mpr rfl
    · intro segment hsegment
      cases List.mem_singleton.mp hsegment
  have hsent : t.requests ≠ [] := (hsends _).mpr haccepts
  exact ⟨hsent, hstores reply newId hsent⟩

end Store

end VectorTable
