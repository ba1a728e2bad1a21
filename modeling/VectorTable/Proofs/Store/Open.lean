import VectorTable.Proofs.Session.Run
import VectorTable.Proofs.Catalog
import VectorTable.Store

/-!
# VectorTable — opening a store

A store is opened exactly where its configuration is sound and the columns that the database reports
pass verification. So whoever holds a store knows this about it.

* `Store.openTable_ok_iff` — when a store is opened, and which one;
* `Store.Opened` — the stores there are.
-/

namespace VectorTable

/-- A column as a row of the introspection. -/
def Column.reported (c : Column) : Row :=
  [.text c.name, .text c.dataType, .text c.typeName, .int4 c.modifier]

namespace Store

variable {config : StoreConfig} {db : Database} {sent generated : Nat}

/-- The columns that a database reports are read as they are. -/
theorem mapM_columnOfRow_reported (columns : List Column) :
    (columns.map Column.reported).mapM columnOfRow = .ok columns := by
  induction columns with
  | nil => rfl
  | cons c rest ih =>
    have hc : columnOfRow c.reported = .ok c := rfl
    rw [List.map_cons, List.mapM_cons, hc, ih]
    rfl

/-- The columns are read exactly if the database answers and its rows are columns. -/
theorem readColumns_ok_iff {columns : List Column} :
    ((readColumns config).run db sent generated).result = .ok columns ↔
      ∃ reply, db.answer sent (.select (introspection config)) = .ok reply ∧
        reply.rows.mapM columnOfRow = .ok columns := by
  unfold readColumns
  rw [Session.result_send_bind_eq_ok]
  refine exists_congr fun reply => and_congr_right fun _ => ?_
  rw [Session.result_bind_eq_ok, Session.run_lift]
  constructor
  · rintro ⟨read, hread, hlog⟩
    cases hlog
    exact mapError_eq_ok.mp hread
  · intro hrows
    exact ⟨columns, mapError_eq_ok.mpr hrows, rfl⟩

/-- The message about a missing JSON column changes nothing in what is accepted. -/
theorem verifyColumns_ok_iff {columns : List Column} {catalog : Catalog} :
    ((verifyColumns config columns).run db sent generated).result = .ok catalog ↔
      Catalog.verify config columns = .ok catalog := by
  unfold verifyColumns Catalog.verify
  rw [Session.result_bind_eq_ok, bind_eq_ok, Session.run_lift]
  refine exists_congr fun roles => and_congr_right fun _ => ?_
  have hlast : ((liftM (Catalog.ofRoles config columns roles) : Session Catalog).run db sent
      generated).result = .ok catalog ↔ Catalog.ofRoles config columns roles = .ok catalog := by
    rw [Session.run_lift]
  split
  · exact hlast
  · exact hlast

/-- **Opening a store.** A store is opened exactly if its configuration is accepted, the database
answers with columns, and these are verified. -/
theorem openTable_ok_iff {s : Store} :
    ((openTable config).run db sent generated).result = .ok s ↔
      s.config = config ∧ config.validate = .ok () ∧ ∃ reply columns,
        db.answer sent (.select (introspection config)) = .ok reply ∧
        reply.rows.mapM columnOfRow = .ok columns ∧
        Catalog.verify config columns = .ok s.catalog := by
  unfold openTable
  rw [Session.result_bind_eq_ok, Session.run_lift]
  constructor
  · rintro ⟨⟨⟩, hvalid, h⟩
    obtain ⟨columns, hcolumns, h⟩ := Session.result_bind_eq_ok.mp h
    obtain ⟨catalog, hcatalog, hlog⟩ := Session.result_bind_eq_ok.mp h
    obtain ⟨reply, hanswer, hrows⟩ := readColumns_ok_iff.mp hcolumns
    have hverify := verifyColumns_ok_iff.mp hcatalog
    cases hlog
    exact ⟨rfl, hvalid, reply, columns, hanswer, hrows, hverify⟩
  · rintro ⟨rfl, hvalid, reply, columns, hanswer, hrows, hverify⟩
    refine ⟨(), hvalid, ?_⟩
    refine Session.result_bind_eq_ok.mpr
      ⟨columns, readColumns_ok_iff.mpr ⟨reply, hanswer, hrows⟩, ?_⟩
    exact Session.result_bind_eq_ok.mpr ⟨s.catalog, verifyColumns_ok_iff.mpr hverify, rfl⟩

/-- The stores there are: each of them has been opened over some database. -/
def Opened (s : Store) : Prop :=
  ∃ (config : StoreConfig) (db : Database) (sent generated : Nat),
    ((openTable config).run db sent generated).result = .ok s

/-- A store that was opened has a valid configuration. -/
theorem Opened.validate {s : Store} (h : s.Opened) : s.config.validate = .ok () := by
  obtain ⟨config, db, sent, generated, hopen⟩ := h
  obtain ⟨rfl, hvalid, -⟩ := openTable_ok_iff.mp hopen
  exact hvalid

/-- The store over the table of notes, with any settings for its searches, has been opened over a
database with that table. -/
theorem opened_notes_options (options : Option QueryOptions) :
    Opened ⟨{ StoreConfig.notes with queryOptions := options }, .notes⟩ := by
  refine ⟨{ StoreConfig.notes with queryOptions := options },
    .answering (fun _ _ => ⟨Catalog.notes.columns.map Column.reported, 0⟩)
      (fun _ => ⟨List.replicate 32 0, rfl⟩), 0, 0, ?_⟩
  -- The settings are not looked at when a store is opened.
  refine openTable_ok_iff.mpr ⟨rfl, StoreConfig.validate_notes, _, Catalog.notes.columns, rfl, ?_,
    rfl⟩
  exact mapM_columnOfRow_reported Catalog.notes.columns

theorem opened_notes : Opened ⟨.notes, .notes⟩ := opened_notes_options none

end Store

end VectorTable
