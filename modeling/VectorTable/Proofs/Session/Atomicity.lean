import VectorTable.Administration
import VectorTable.Proofs.Config.Validation
import VectorTable.Proofs.Row.Merge
import VectorTable.Proofs.Session.Refusal
import VectorTable.Store

/-!
# VectorTable — what a failure leaves behind

All operations on a database fail in the same way: a refused request is the last one that is
sent, and input that is not accepted sends none.

* `Operation` — the operations, with their input;
* `Session.FailsAtomically` — how a failure shows;
* `Operation.failsAtomically` — every operation fails in this way.
-/

namespace VectorTable

/-! ## Faults of a table -/

namespace Catalog

variable {config : StoreConfig} {columns : List Column} {error : Error}

/-- A column that is missing is a fault of the table, and not of what was asked. -/
theorem find_not_rejects {name role : String}
    (h : find config columns name role = .error error) : ¬ error.RejectsInput := by
  unfold find at h
  split at h <;> cases h
  exact not_false

/-- For settings without a conflict, every fault of the columns is one of the table. -/
theorem findRoles_not_rejects (hlists : config.checkColumnLists = .ok ())
    (h : findRoles config columns = .error error) : ¬ error.RejectsInput := by
  unfold findRoles at h
  simp only [hlists, bind_eq_error] at h
  rcases h with hfalse | ⟨-, -, h⟩
  · cases hfalse
  split at h
  · cases h
    exact not_false
  -- The columns are looked up one after another, and each failure blames the table.
  rcases bind_eq_error.mp h with hid | ⟨id, -, h⟩
  · exact find_not_rejects hid
  rcases bind_eq_error.mp h with hcontent | ⟨content, -, h⟩
  · exact find_not_rejects hcontent
  split at h
  · cases h
    exact not_false
  rcases bind_eq_error.mp h with hembedding | ⟨embedding, -, h⟩
  · exact find_not_rejects hembedding
  split at h <;> cases h
  exact not_false

/-- So is any other fault of a catalog. -/
theorem ofRoles_not_rejects {roles : Roles}
    (h : ofRoles config columns roles = .error error) : ¬ error.RejectsInput := by
  rcases bind_eq_error.mp h with hmetadata | ⟨metadata, -, h⟩
  · unfold findMetadata at hmetadata
    split at hmetadata
    · obtain ⟨name, -, hname⟩ := exists_of_mapM_eq_error hmetadata
      exact find_not_rejects (map_eq_error.mp hname)
    · cases hmetadata
  · cases h

end Catalog

/-! ## Faults of a row -/

/-- A stored value that cannot be read is no fault of a search. -/
theorem MetadataValue.ofJson?_not_rejects {key : String} {v : Json} {error : Error}
    (h : MetadataValue.ofJson? key v = .error error) : ¬ error.RejectsInput := by
  unfold MetadataValue.ofJson? at h
  split at h
  · cases h
  · cases h
  · split at h
    · cases h
    · cases h
      exact not_false
  · cases h
  · cases h
    exact not_false

/-- So are stored metadata that cannot be read. -/
theorem Metadata.ofJson_not_rejects {v : Json} {error : Error}
    (h : Metadata.ofJson v = .error error) : ¬ error.RejectsInput := by
  unfold Metadata.ofJson at h
  split at h
  · cases h
  · rename_i members
    -- An error in a member is an error of encoding, not of the input.
    rcases bind_eq_error.mp (map_eq_error.mp h) with hmembers | ⟨entries, -, hpure⟩
    · obtain ⟨⟨key, value⟩, -, hvalue⟩ := exists_of_mapM_eq_error hmembers
      rcases bind_eq_error.mp hvalue with hvalue | ⟨entry, -, hpure⟩
      · exact MetadataValue.ofJson?_not_rejects hvalue
      · cases hpure
    · cases hpure
  · cases h
    exact not_false

/-- A stored row that cannot be read is a fault of the storage or of the encoding. -/
theorem decodeMatches_not_rejects {catalog : Catalog} {rows : List Row} {error : Error}
    (h : decodeMatches catalog rows = .error error) : ¬ error.RejectsInput := by
  obtain ⟨row, -, hrow⟩ := exists_of_mapM_eq_error h
  rcases bind_eq_error.mp hrow with hcells | ⟨raw, -, hrow⟩
  · obtain ⟨source, -, rfl⟩ := mapError_eq_error.mp hcells
    exact not_false
  rcases bind_eq_error.mp hrow with hmerge | ⟨metadata, -, hrow⟩
  · -- Columns are merged without failure; only stored JSON can be broken.
    rw [Metadata.merge_eq] at hmerge
    have hstored := map_eq_error.mp hmerge
    unfold Metadata.ofOverflow at hstored
    split at hstored
    · cases hstored
    · split at hstored
      · exact Metadata.ofJson_not_rejects hstored
      · cases hstored
        exact not_false
  · cases hrow

/-! ## The operations are guarded -/

section

open Session (Guarded)

/-- A store reports what the database refuses, with the reason that it was given. -/
theorem Store.refusal_storage (s : Store) (operation source : String) :
    (s.refusal operation source).2.Reports source := ⟨_, rfl⟩

/-- To read the columns of a table is one request, whose answer is not checked. -/
theorem Store.guarded_readColumns (config : StoreConfig) {once : Bool} :
    (Store.readColumns config).Guarded once := by
  unfold Store.readColumns
  refine (Guarded.send fun _ => ⟨_, rfl⟩).bind fun reply => ?_
  refine (Guarded.lift fun error h => ?_).bind fun columns => ?_
  · -- A row that cannot be read is a storage error.
    obtain ⟨source, -, rfl⟩ := mapError_eq_error.mp h
    exact not_false
  · exact Guarded.log_bind trivial

/-- Behind the columns of a table only faults of the table are reported, as long as the
configuration does not contradict itself. -/
theorem Store.guarded_verifyColumns {config : StoreConfig} (columns : List Column)
    (hlists : config.checkColumnLists = .ok ()) :
    (Store.verifyColumns config columns).Guarded true := by
  unfold Store.verifyColumns
  refine (Guarded.lift fun error h => Catalog.findRoles_not_rejects hlists h).bind fun roles => ?_
  have hcatalog : (liftM (Catalog.ofRoles config columns roles) : Session Catalog).Guarded true :=
    Guarded.lift fun error h => Catalog.ofRoles_not_rejects h
  split
  · exact Guarded.log_bind hcatalog
  · exact hcatalog

/-- To open a table is guarded: the configuration is checked before anything is sent. -/
theorem Store.guarded_openTable (config : StoreConfig) :
    (Store.openTable config).Guarded false := by
  refine Guarded.check fun ⟨⟩ hvalid => ?_
  have hlists := StoreConfig.checkColumnLists_of_validate hvalid
  refine (Store.guarded_readColumns config).bind fun columns => ?_
  refine (Store.guarded_verifyColumns columns hlists).bind fun catalog => ?_
  exact Guarded.log_bind trivial

variable (s : Store)

/-- To store a batch is guarded: all of it is encoded before anything is sent. -/
theorem Store.guarded_addAllWithIds (ids : List String) (embeddings : List Embedding)
    (segments : List (Option TextSegment)) :
    (s.addAllWithIds ids embeddings segments).Guarded false := by
  unfold Store.addAllWithIds
  split
  · exact fun h => absurd h (by decide)
  split
  · trivial
  refine Guarded.check fun rows _ => ?_
  refine (Guarded.forM fun message _ => Guarded.log).bind fun _ => ?_
  -- From here on requests are sent, and no more input is rejected.
  refine (Guarded.send (s.refusal_storage "insert")).bind fun _ => ?_
  refine (Guarded.forM fun statement _ => ?_).bind fun _ => ?_
  · exact Guarded.log_bind ((Guarded.send (s.refusal_storage "insert")).bind fun _ => trivial)
  · exact (Guarded.send (s.refusal_storage "insert")).bind fun _ => trivial

/-- To remove rows is guarded: all ids are parsed before anything is sent. -/
theorem Store.guarded_removeAll (ids : List String) : (s.removeAll ids).Guarded false := by
  unfold Store.removeAll
  split
  · exact fun h => absurd h (by decide)
  refine Guarded.check fun uuids _ => Guarded.log_bind ?_
  exact (Guarded.send (s.refusal_storage "delete")).bind fun _ => trivial

/-- A search is guarded: the request is checked and translated before anything is sent. -/
theorem Store.guarded_nearest (request : SearchRequest) (limit : UInt64) :
    (s.nearest request limit).Guarded false := by
  unfold Store.nearest
  refine Guarded.check fun statement _ => Guarded.log_bind ?_
  refine (Guarded.send (s.refusal_storage "search")).bind fun _ => ?_
  refine (Guarded.forM fun setting _ => ?_).bind fun _ => ?_
  · exact (Guarded.send (s.refusal_storage "search")).bind fun _ => trivial
  refine (Guarded.send (s.refusal_storage "search")).bind fun reply => ?_
  refine (Guarded.send (s.refusal_storage "search")).bind fun _ => ?_
  exact Guarded.lift fun error h => decodeMatches_not_rejects h

theorem Store.guarded_search (request : SearchRequest) : (s.search request).Guarded false :=
  Guarded.check fun limit _ => s.guarded_nearest request limit

/-- A re-ranking adds nothing to the search that it starts with. -/
theorem Store.guarded_searchDiverse (request : SearchRequest) :
    (s.searchDiverse request).Guarded false := by
  refine Guarded.check fun k _ => ?_
  exact (s.guarded_nearest request (max s.config.fetchLimit k)).bind fun _ => trivial

namespace Administration

/-- To create a table is guarded: its configuration is checked before anything is sent. -/
theorem guarded_createTable (config : TableConfig) : (createTable config).Guarded false := by
  refine Guarded.check fun ⟨⟩ _ => ?_
  refine (Guarded.send fun _ => ⟨_, rfl⟩).bind fun _ => ?_
  refine (Guarded.forM fun sql _ => ?_).bind fun _ => ?_
  · exact Guarded.log_bind ((Guarded.send fun _ => ⟨_, rfl⟩).bind fun _ => trivial)
  · exact (Guarded.send fun _ => ⟨_, rfl⟩).bind fun _ => trivial

/-- A single statement has nothing to be checked. -/
theorem guarded_execute (sql : Sql) (context : String) {once : Bool} :
    (execute sql context).Guarded once :=
  Guarded.log_bind ((Guarded.send fun _ => ⟨_, rfl⟩).bind fun _ => trivial)

/-- To create an index is guarded: its names and its options are checked before anything is sent. -/
theorem guarded_createIndex (schema table column : String) (index : VectorIndex)
    (concurrently : Bool) : (createIndex schema table column index concurrently).Guarded false := by
  refine Guarded.check fun _ _ => Guarded.check fun _ _ => Guarded.check fun _ _ => ?_
  refine Guarded.check fun _ _ => ?_
  refine (Guarded.forM fun extension _ => guarded_execute _ _).bind fun _ => ?_
  exact (guarded_execute _ _).bind fun _ => trivial

/-- To drop an index is guarded: its names are checked first. -/
theorem guarded_dropIndex (schema index : String) : (dropIndex schema index).Guarded false :=
  Guarded.check fun _ _ => (guarded_execute _ _).bind fun _ => trivial

/-- To rebuild an index is guarded: its names are checked first. -/
theorem guarded_rebuildIndex (schema index : String) : (rebuildIndex schema index).Guarded false :=
  Guarded.check fun _ _ => guarded_execute _ _

end Administration

end

/-! ## All operations -/

/-- The operations of the library on a database, each with its input and the type of the value
that it returns. -/
inductive Operation : Type → Type where
  | openTable (config : StoreConfig) : Operation Store
  | addAllWithIds (s : Store) (ids : List String) (embeddings : List Embedding)
      (segments : List (Option TextSegment)) : Operation Unit
  | removeAll (s : Store) (ids : List String) : Operation Unit
  | search (s : Store) (request : SearchRequest) : Operation (List Match)
  | searchDiverse (s : Store) (request : SearchRequest) : Operation (List Match)
  | createTable (config : TableConfig) : Operation Unit
  | createIndex (schema table column : String) (index : VectorIndex) (concurrently : Bool) :
      Operation Unit
  | dropIndex (schema index : String) : Operation Unit
  | rebuildIndex (schema index : String) : Operation Unit

def Operation.session {α : Type} : Operation α → Session α
  | .openTable config => Store.openTable config
  | .addAllWithIds s ids embeddings segments => s.addAllWithIds ids embeddings segments
  | .removeAll s ids => s.removeAll ids
  | .search s request => s.search request
  | .searchDiverse s request => s.searchDiverse request
  | .createTable config => Administration.createTable config
  | .createIndex schema table column index concurrently =>
    Administration.createIndex schema table column index concurrently
  | .dropIndex schema index => Administration.dropIndex schema index
  | .rebuildIndex schema index => Administration.rebuildIndex schema index

/-- **Every operation is guarded.** -/
theorem Operation.guarded_session {α : Type} (operation : Operation α) :
    operation.session.Guarded false := by
  cases operation with
  | openTable config => exact Store.guarded_openTable config
  | addAllWithIds s ids embeddings segments =>
    exact s.guarded_addAllWithIds ids embeddings segments
  | removeAll s ids => exact s.guarded_removeAll ids
  | search s request => exact s.guarded_search request
  | searchDiverse s request => exact s.guarded_searchDiverse request
  | createTable config => exact Administration.guarded_createTable config
  | createIndex schema table column index concurrently =>
    exact Administration.guarded_createIndex schema table column index concurrently
  | dropIndex schema index => exact Administration.guarded_dropIndex schema index
  | rebuildIndex schema index => exact Administration.guarded_rebuildIndex schema index

/-- How a session fails. -/
structure Session.FailsAtomically {α : Type} (session : Session α) : Prop where
  /-- Where a database that would answer everything refuses one request, the run sends the same
  requests up to that one, and its result is a storage error with the driver's words. -/
  refused (reply : Nat → Request → Reply) (newId : Nat → Uuid) (source : String) (i : Nat) :
    let db := Database.answering reply newId
    let full := session.run db 0 0
    i < full.requests.length →
    let run := session.run (db.refusingAt i source) 0 0
    run.requests = full.requests.take (i + 1) ∧
      ∃ context, run.result = .error (.storage context source)
  /-- No request follows a refused one. -/
  followed (db : Database) (j : Nat) (request : Request) :
    (session.run db 0 0).requests[j]? = some request →
    j + 1 < (session.run db 0 0).requests.length → db.Answers j request
  /-- A transaction is committed only after all that was sent before has been answered. -/
  committed (db : Database) (j k : Nat) (request : Request) :
    (session.run db 0 0).requests[k]? = some .commit → j < k →
    (session.run db 0 0).requests[j]? = some request → db.Answers j request
  /-- A value is returned only if every request was answered. -/
  returned (db : Database) (value : α) (j : Nat) (request : Request) :
    (session.run db 0 0).result = .ok value →
    (session.run db 0 0).requests[j]? = some request → db.Answers j request
  /-- Input that is refused for itself has sent nothing. -/
  rejected (db : Database) (error : Error) :
    (session.run db 0 0).result = .error error → error.RejectsInput →
    (session.run db 0 0).requests = []

/-- **Failure atomicity.** Every operation on a database, on every input, fails atomically. -/
theorem Operation.failsAtomically {α : Type} (operation : Operation α) :
    operation.session.FailsAtomically := by
  have hguarded := operation.guarded_session
  constructor
  case refused =>
    intro reply newId source i db full hi
    obtain ⟨hrequests, error, hresult, context, rfl⟩ :=
      hguarded.run_refusingAt reply newId source 0 0 i hi
    rw [Nat.zero_add] at hrequests hresult
    exact ⟨hrequests, context, hresult⟩
  -- A request with a later one behind it has been answered; so has each one of a run that succeeds.
  case followed =>
    intro db j request hj hlater
    have h := hguarded.run_answered db 0 0 j request hj (.inl hlater)
    rwa [Nat.zero_add] at h
  case committed =>
    intro db j k request hk hjk hj
    obtain ⟨hlength, -⟩ := List.getElem?_eq_some_iff.mp hk
    have h := hguarded.run_answered db 0 0 j request hj (.inl (by omega))
    rwa [Nat.zero_add] at h
  case returned =>
    intro db value j request hresult hj
    have h := hguarded.run_answered db 0 0 j request hj (.inr ⟨value, hresult⟩)
    rwa [Nat.zero_add] at h
  case rejected =>
    intro db error hresult hrejects
    exact hguarded.rejected_silent db 0 0 error hresult hrejects

end VectorTable
