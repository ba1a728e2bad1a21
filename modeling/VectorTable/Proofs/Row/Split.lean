import VectorTable.Proofs.Filter.Stored
import VectorTable.Proofs.Metadata.RoundTrip

/-!
# VectorTable — metadata spread over a table

Each entry of metadata has one place in a row: the column with the name of its key or, if there is
none, the JSON column. Only what goes into the JSON column has to be finite.

* `Metadata.SpreadAs` — metadata spread over the columns, entry by entry;
* `Metadata.PlacedOnce` — each entry has one place, or the table has none for it;
* `Metadata.split_partitions` — what can be spread, and how.
-/

namespace VectorTable

/-! ## Places -/

/-- A place for a value in a row: the metadata column with a number, or the JSON column. -/
inductive Place where
  | column (index : Nat)
  | json

namespace SplitMetadata

/-- The JSON value in the JSON column. -/
def json? (s : SplitMetadata) : Option Json :=
  match s.overflow with
  | some ⟨.text (some text), _⟩ => Json.parse? text
  | _ => none

/-- A place belongs to a key: a column with its name, or the JSON column if its object has a
member under the key. -/
def Names (catalog : Catalog) (s : SplitMetadata) (key : String) : Place → Prop
  | .column i => ∃ c, catalog.metadata[i]? = some c ∧ c.name = key
  | .json => ∃ members v, s.json? = some (.object members) ∧ Entries.get? key members = some v

/-- A place holds a value under a key. -/
def Holds (catalog : Catalog) (s : SplitMetadata) (key : String) (value : MetadataValue) :
    Place → Prop
  | .column i => ∃ c, catalog.metadata[i]? = some c ∧ c.name = key ∧
      s.columns[i]? = some (c.param (some value))
  | .json => ∃ members v, s.json? = some (.object members) ∧ Entries.get? key members = some v ∧
      value.toJson = .ok v

end SplitMetadata

namespace Metadata

variable {catalog : Catalog} {d : Metadata} {s : SplitMetadata}

/-- Each entry is held in one place and its key names no other, unless the table has no place for
it. -/
structure PlacedOnce (catalog : Catalog) (d : Metadata) (s : SplitMetadata) : Prop where
  once : ∀ key value, d.get? key = some value →
    (∃ c ∈ catalog.metadata, c.name = key) ∨ catalog.overflow.isSome →
    ∃ place, s.Holds catalog key value place ∧
      ∀ place', s.Names catalog key place' → place' = place
  dropped : ∀ key, (∀ c ∈ catalog.metadata, c.name ≠ key) → catalog.overflow = none →
    ∀ place, ¬ s.Names catalog key place

/-- A value for the JSON column has no JSON form. -/
def Refused (catalog : Catalog) (m : Option Metadata) : Prop :=
  catalog.overflow.isSome ∧ ∃ d key value, m = some d ∧ d.get? key = some value ∧
    (∀ c ∈ catalog.metadata, c.name ≠ key) ∧ ¬ value.IsFinite

/-- The value for the JSON column: none if there is no such column, a null if there is no metadata,
and otherwise the text of an object of all entries whose keys have no column. -/
def StoresRest (catalog : Catalog) (m : Option Metadata) (param : Option Param) : Prop :=
  match catalog.overflow, m with
  | none, _ => param = none
  | some column, none => param = some (.casted (.text none) column.typeName)
  | some column, some d => ∃ (rest : Metadata) (object : Json),
    (∀ key, rest.get? key =
      if ∃ c ∈ catalog.metadata, c.name = key then none else d.get? key) ∧
    rest.toJson = .ok object ∧
    param = some (.casted (.text (some object.render)) column.typeName)

/-- Metadata spread over a table: each column has the value under its name. -/
structure SpreadAs (catalog : Catalog) (m : Option Metadata) (s : SplitMetadata) : Prop where
  width : s.columns.length = catalog.metadata.length
  column : ∀ (i : Nat) (c : Column), catalog.metadata[i]? = some c →
    s.columns[i]? = some (c.param (m.bind (·.get? c.name)))
  overflow : StoresRest catalog m s.overflow

/-! ## What is left for the JSON column -/

/-- The metadata without a column. -/
def rest (catalog : Catalog) (d : Metadata) : Metadata :=
  ⟨d.withoutColumn catalog, d.ascending.filter _⟩

/-- The rest of some metadata has no key with a column, and all others as they were. -/
theorem get?_rest (catalog : Catalog) (d : Metadata) (key : String) :
    (d.rest catalog).get? key =
      if ∃ c ∈ catalog.metadata, c.name = key then none else d.get? key := by
  refine (get?_withoutColumn d key).trans (if_congr ?_ rfl rfl)
  simp [Catalog.metadataColumn?]

/-- Whatever agrees with the rest under every key is the rest. -/
theorem eq_rest {rest : Metadata} (h : ∀ key, rest.get? key =
    if ∃ c ∈ catalog.metadata, c.name = key then none else d.get? key) :
    rest = d.rest catalog := by
  -- The description fixes every look-up.
  refine Dictionary.ext_get? fun key => ?_
  rw [h, get?_rest]

/-- The JSON column takes the JSON form of the rest. -/
theorem overflowJson_rest (d : Metadata) :
    overflowJson catalog (some d) = (d.rest catalog).toJson.map some :=
  overflowJson_some d

/-- The JSON column stores the rest of the metadata, where a table has such a column. -/
theorem storesRest_iff {m : Option Metadata} {param : Option Param} :
    StoresRest catalog m param ↔ match catalog.overflow with
      | none => param = none
      | some column => ∃ json, overflowJson catalog m = .ok json ∧
        param = some (.casted (.text (json.map Json.render)) column.typeName) := by
  unfold StoresRest
  split <;> rename_i hoverflow
  · rw [hoverflow]
  · rw [hoverflow]
    constructor
    · exact fun h => ⟨none, rfl, h⟩
    · rintro ⟨json, hjson, h⟩
      -- Without metadata the column is null.
      cases hjson
      exact h
  · rename_i d
    rw [hoverflow]
    simp only [overflowJson_rest, map_eq_ok]
    constructor
    · rintro ⟨rest, object, hrest, hobject, h⟩
      obtain rfl := eq_rest hrest
      exact ⟨some object, ⟨object, hobject, rfl⟩, h⟩
    · rintro ⟨_, ⟨object, hobject, rfl⟩, h⟩
      exact ⟨d.rest catalog, object, get?_rest catalog d, hobject, h⟩

/-! ## Spreading -/

/-- The columns are bound one by one, each with the value of its own key. -/
theorem columns_eq_iff {m : Option Metadata} {columns : List Param} :
    columns = columnParams catalog m ↔ columns.length = catalog.metadata.length ∧
      ∀ (i : Nat) (c : Column), catalog.metadata[i]? = some c →
        columns[i]? = some (c.param (m.bind (·.get? c.name))) := by
  constructor
  · rintro rfl
    refine ⟨List.length_map _, fun i c hc => ?_⟩
    rw [columnParams, List.getElem?_map, hc, Option.map_some]
  · rintro ⟨hwidth, hcolumn⟩
    refine List.ext_getElem? fun i => ?_
    rw [columnParams, List.getElem?_map]
    cases hc : catalog.metadata[i]? with
    | some c => exact hcolumn i c hc
    | none =>
      -- Beyond the last column there is nothing on either side.
      rw [Option.map_none, List.getElem?_eq_none_iff, hwidth]
      exact List.getElem?_eq_none_iff.mp hc

/-- Spreading gives what is described, and the description leaves nothing open. -/
theorem split_eq_ok_iff {m : Option Metadata} :
    Metadata.split catalog m = .ok s ↔ SpreadAs catalog m s := by
  have hspread : SpreadAs catalog m s ↔
      s.columns = columnParams catalog m ∧ StoresRest catalog m s.overflow := by
    rw [columns_eq_iff]
    exact ⟨fun h => ⟨⟨h.width, h.column⟩, h.overflow⟩, fun h => ⟨h.1.1, h.1.2, h.2⟩⟩
  obtain ⟨columns, overflow⟩ := s
  rw [hspread, storesRest_iff]
  cases hoverflow : catalog.overflow with
  | none =>
    rw [split_of_none hoverflow, Except.ok.injEq, SplitMetadata.mk.injEq]
    exact and_congr eq_comm eq_comm
  | some column =>
    rw [split_of_some hoverflow, map_eq_ok]
    constructor
    · rintro ⟨json, hjson, hsplit⟩
      cases hsplit
      exact ⟨rfl, json, hjson, rfl⟩
    · rintro ⟨rfl, json, hjson, rfl⟩
      exact ⟨json, hjson, rfl⟩

/-- Metadata cannot be split only for a float that is not finite. -/
theorem split_eq_error {m : Option Metadata} {error : Error}
    (h : Metadata.split catalog m = .error error) : ∃ x, error = .encoding (.notFinite x) := by
  cases hoverflow : catalog.overflow with
  | none =>
    rw [split_of_none hoverflow] at h
    cases h
  | some column =>
    rw [split_of_some hoverflow, map_eq_error] at h
    cases m with
    | none => cases h
    | some d =>
      rw [overflowJson_rest, map_eq_error] at h
      exact toJson_eq_error h

/-- Only a value that the JSON column cannot hold stands in the way. -/
theorem exists_split_eq_error_iff {m : Option Metadata} :
    (∃ error, Metadata.split catalog m = .error error) ↔ Refused catalog m := by
  rw [exists_eq_error_iff, exists_split_iff]
  constructor
  · intro h
    push Not at h
    obtain ⟨d, rfl, hd⟩ := h
    unfold Storable at hd
    push Not at hd
    obtain ⟨column, hcolumn, key, value, hvalue, hkey, hinfinite⟩ := hd
    exact ⟨hcolumn ▸ rfl, d, key, value, rfl, hvalue,
      Catalog.metadataColumn?_eq_none_iff.mp hkey, hinfinite⟩
  · rintro ⟨hoverflow, d, key, value, rfl, hvalue, hkey, hinfinite⟩ hstorable
    obtain ⟨column, hcolumn⟩ := Option.isSome_iff_exists.mp hoverflow
    exact hinfinite (hstorable d rfl column hcolumn key value hvalue
      (Catalog.metadataColumn?_eq_none_iff.mpr hkey))

/-! ## Places of entries -/

/-- The members in the JSON column are the entries that have no column. -/
theorem json?_of_spreadAs {column : Column} (hoverflow : catalog.overflow = some column)
    (h : SpreadAs catalog (some d) s) : ∃ members, s.json? = some (.object members) ∧
      ∀ key v, Entries.get? key members = some v ↔
        ∃ value, (d.rest catalog).get? key = some value ∧ value.toJson = .ok v := by
  have hrest := h.overflow
  rw [storesRest_iff, hoverflow] at hrest
  obtain ⟨_, hjson, hparam⟩ := hrest
  rw [overflowJson_rest] at hjson
  obtain ⟨object, hobject, rfl⟩ := map_eq_ok.mp hjson
  obtain ⟨members, rfl, hmembers⟩ := entriesToJson_eq_ok.mp hobject
  obtain ⟨hfits, -⟩ := ofJson_entriesToJson (d.rest catalog).ascending hobject
  -- The text in the column is read back as the object that was written.
  refine ⟨members, ?_, fun key v => get?_members (d.rest catalog).ascending hmembers⟩
  rw [SplitMetadata.json?, hparam]
  exact Json.parse?_render _ hfits

/-- A table without a column for other metadata stores no JSON. -/
theorem json?_of_none (hoverflow : catalog.overflow = none) {m : Option Metadata}
    (h : SpreadAs catalog m s) : s.json? = none := by
  have hrest := h.overflow
  rw [storesRest_iff, hoverflow] at hrest
  rw [SplitMetadata.json?, hrest]

/-- The JSON column has a member only for a key without a column. -/
theorem of_names_json {key : String} (h : SpreadAs catalog (some d) s)
    (hnames : s.Names catalog key .json) : ∀ c ∈ catalog.metadata, c.name ≠ key := by
  obtain ⟨members, v, hjson, hmember⟩ := hnames
  cases hoverflow : catalog.overflow with
  | none =>
    rw [json?_of_none hoverflow h] at hjson
    cases hjson
  | some column =>
    obtain ⟨members', hjson', hmembers⟩ := json?_of_spreadAs hoverflow h
    rw [hjson'] at hjson
    cases hjson
    obtain ⟨value, hvalue, -⟩ := (hmembers key v).mp hmember
    rw [get?_rest] at hvalue
    intro c hc hname
    -- The rest has no entry for a key that a column takes.
    rw [if_pos ⟨c, hc, hname⟩] at hvalue
    cases hvalue

/-- Each key is placed once: in its column, or as a member of the JSON object. -/
theorem placedOnce_of_split (hdistinct : (catalog.metadata.map (·.name)).Nodup)
    (h : Metadata.split catalog (some d) = .ok s) : PlacedOnce catalog d s := by
  have hspread := split_eq_ok_iff.mp h
  constructor
  · intro key value hvalue hplace
    by_cases hcolumn : ∃ c ∈ catalog.metadata, c.name = key
    · obtain ⟨c, hc, rfl⟩ := hcolumn
      obtain ⟨i, hi⟩ := List.mem_iff_getElem?.mp hc
      -- No other column has the name, and the JSON column has no member under it.
      refine ⟨.column i, ⟨c, hi, rfl, ?_⟩, ?_⟩
      · rw [hspread.column i c hi, Option.bind_some, hvalue]
      · rintro (j | _) hnames
        · obtain ⟨c', hj, hname⟩ := hnames
          rw [Catalog.position_unique hdistinct hj hi hname]
        · exact absurd rfl (of_names_json hspread hnames c hc)
    · -- The value is among the rest, and it is finite as the whole was spread.
      obtain ⟨column, hoverflow⟩ := Option.isSome_iff_exists.mp (hplace.resolve_left hcolumn)
      have hnone : catalog.metadataColumn? key = none :=
        Catalog.metadataColumn?_eq_none_iff.mpr fun c hc hname => hcolumn ⟨c, hc, hname⟩
      have hfinite := exists_split_iff _ |>.mp ⟨s, h⟩ d rfl column hoverflow key value hvalue hnone
      obtain ⟨v, hv⟩ := (MetadataValue.toJson_ok_iff value).mpr hfinite
      obtain ⟨members, hjson, hmembers⟩ := json?_of_spreadAs hoverflow hspread
      refine ⟨.json, ⟨members, v, hjson, (hmembers key v).mpr ⟨value, ?_, hv⟩, hv⟩, ?_⟩
      · rw [get?_rest, if_neg hcolumn, hvalue]
      · rintro (j | _) hnames
        · obtain ⟨c, hc, hname⟩ := hnames
          exact absurd ⟨c, List.mem_of_getElem? hc, hname⟩ hcolumn
        · rfl
  · intro key hnone hoverflow
    rintro (i | _) hnames
    · obtain ⟨c, hc, hname⟩ := hnames
      exact hnone c (List.mem_of_getElem? hc) hname
    · obtain ⟨members, v, hjson, -⟩ := hnames
      rw [json?_of_none hoverflow hspread] at hjson
      cases hjson

/-! ## The order of entries -/

/-- The entries of an object may be written in any order. -/
theorem entriesToJson_of_perm {entries l : Entries MetadataValue} (hasc : entries.Ascending)
    (hperm : l.Perm entries) {members : List (String × Json)}
    (h : entriesToJson l = .ok (.object members)) :
    entriesToJson entries = .ok (.ofMembers members) := by
  obtain ⟨_, heq, hmembers⟩ := entriesToJson_eq_ok.mp h
  cases heq
  -- Sorting undoes whatever order the entries were gone through in.
  have hsorted : Entries.sort l = entries := by
    rw [← Entries.sort_perm hperm.symm hasc.nodup_keys, hasc.sort_eq]
  refine entriesToJson_eq_ok.mpr ⟨Entries.sort members, rfl, ?_⟩
  rw [← hsorted]
  exact Entries.forall₂_sort (r := fun value v => MetadataValue.toJson value = .ok v) hmembers

/-- The entries for the JSON column may be gone through in any order. -/
theorem split_of_perm {column : Column} {l : Entries MetadataValue}
    {members : List (String × Json)} (hoverflow : catalog.overflow = some column)
    (hperm : l.Perm (d.withoutColumn catalog)) (h : entriesToJson l = .ok (.object members)) :
    ∃ s, Metadata.split catalog (some d) = .ok s ∧ s.overflow =
      some (.casted (.text (some (Json.ofMembers members).render)) column.typeName) := by
  have hjson : overflowJson catalog (some d) = .ok (some (.ofMembers members)) := by
    rw [overflowJson_rest, toJson, entriesToJson_of_perm (d.rest catalog).ascending hperm h]
    rfl
  refine ⟨_, (split_of_some hoverflow _).trans (congrArg _ hjson), rfl⟩

end Metadata

/-! ## Rows -/

/-- A row fails where its metadata cannot be spread, and with the same error. -/
theorem encodeRow_eq_error {catalog : Catalog} {id : Uuid} {embedding : Embedding}
    {segment : Option TextSegment} {error : Error} :
    encodeRow catalog id embedding segment = .error error ↔
      Metadata.split catalog (segment.map (·.metadata)) = .error error := by
  unfold encodeRow
  rw [bind_eq_error]
  constructor
  · rintro (h | ⟨s, -, h⟩)
    · exact h
    · cases h
  · exact .inl

namespace Metadata

/-- **Splitting partitions the metadata.** It fails exactly if a value for the JSON column has no
JSON form; otherwise each metadata column has the value under its name and the JSON column the text
of all the others, each entry having one place. The order in which the entries were put in, or are
gone through, makes no difference. A row is the id, the text, the vector and what was split, and it
fails in the same cases. -/
theorem split_partitions (catalog : Catalog) :
    (∀ m, (∃ error, Metadata.split catalog m = .error error) ↔ Refused catalog m) ∧
    (∀ m error, Metadata.split catalog m = .error error →
      ∃ x, error = .encoding (.notFinite x)) ∧
    (∀ m s, Metadata.split catalog m = .ok s ↔ SpreadAs catalog m s) ∧
    ((catalog.metadata.map (·.name)).Nodup → ∀ d s,
      Metadata.split catalog (some d) = .ok s → PlacedOnce catalog d s) ∧
    (∀ l l' : Entries MetadataValue, l.Perm l' → (l.map (·.1)).Nodup →
      Metadata.split catalog (some (.ofList l)) = Metadata.split catalog (some (.ofList l'))) ∧
    (∀ column d l members, catalog.overflow = some column →
      List.Perm l (d.withoutColumn catalog) → entriesToJson l = .ok (.object members) →
      ∃ s, Metadata.split catalog (some d) = .ok s ∧ s.overflow =
        some (.casted (.text (some (Json.ofMembers members).render)) column.typeName)) ∧
    ∀ id embedding segment,
      (∀ error, encodeRow catalog id embedding segment = .error error ↔
        Metadata.split catalog (segment.map (·.metadata)) = .error error) ∧
      ∀ row, encodeRow catalog id embedding segment = .ok row ↔
        ∃ s, SpreadAs catalog (segment.map (·.metadata)) s ∧
          row.length = catalog.insertColumns.length ∧
          row = [catalog.id.idParam id, .plain (.text (segment.map (·.text))),
            .plain (.vector embedding.vector)] ++ s.columns ++ s.overflow.toList := by
  refine ⟨fun m => exists_split_eq_error_iff, fun m error => split_eq_error,
    fun m s => split_eq_ok_iff, fun hdistinct d s => placedOnce_of_split hdistinct,
    fun l l' hperm hkeys => by rw [Dictionary.ofList_perm hperm hkeys],
    fun column d l members => split_of_perm, ?_⟩
  intro id embedding segment
  refine ⟨fun error => encodeRow_eq_error, fun row => ?_⟩
  constructor
  · intro hrow
    obtain ⟨s, hs, heq⟩ := encodeRow_eq_ok.mp hrow
    exact ⟨s, split_eq_ok_iff.mp hs, encodeRow_length hrow, heq⟩
  · rintro ⟨s, hs, -, heq⟩
    exact encodeRow_eq_ok.mpr ⟨s, split_eq_ok_iff.mpr hs, heq⟩

/-- A page, which has a column, and a score and an author, which have none. -/
def spreadEntries : Entries MetadataValue :=
  [("score", .double (Binary.zero true)), ("page", .integer 3), ("author", .string "Ada")]

/-- The hypotheses can be met, with entries that are neither put in nor gone through in the order
of their keys. -/
theorem split_partitions_scored :
    ∃ s members, Metadata.split .notes (some (.ofList spreadEntries)) = .ok s ∧
      (Catalog.notes.metadata.map (·.name)).Nodup ∧ PlacedOnce .notes (.ofList spreadEntries) s ∧
      spreadEntries.Perm spreadEntries.reverse ∧ (spreadEntries.map (·.1)).Nodup ∧
      Metadata.split .notes (some (.ofList spreadEntries.reverse)) = .ok s ∧
      entriesToJson [("score", .double (Binary.zero true)), ("author", .string "Ada")] =
        .ok (.object members) ∧
      s.overflow = some (.casted (.text (some (Json.ofMembers members).render)) "json") := by
  have hdistinct : (Catalog.notes.metadata.map (·.name)).Nodup := by decide
  -- The entries are inserted in the other order as well.
  have hperm : spreadEntries.Perm spreadEntries.reverse := spreadEntries.reverse_perm.symm
  have hkeys : (spreadEntries.map (·.1)).Nodup := by decide
  obtain ⟨-, -, -, hplaced, horder, hvisit, -⟩ := split_partitions .notes
  obtain ⟨s, hs, hjson⟩ := hvisit .notesMetadata (.ofList spreadEntries)
    [("score", .double (Binary.zero true)), ("author", .string "Ada")] _ rfl (by decide) rfl
  exact ⟨s, _, hs, hdistinct, hplaced hdistinct _ s hs, hperm, hkeys,
    (horder _ _ hperm hkeys).symm.trans hs, rfl, hjson⟩

end Metadata

end VectorTable
