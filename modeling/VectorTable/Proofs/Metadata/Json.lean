import VectorTable.Metadata.Basic
import VectorTable.Proofs.Except
import VectorTable.Proofs.Json.RoundTrip
import VectorTable.Proofs.Metadata.Getters

/-!
# VectorTable — metadata in JSON

* `MetadataValue.IsFinite` — the values that have a JSON form;
* `Metadata.entriesToJson_ok_iff` — the entries that have one;
* `Metadata.ofJson_of_entriesToJson`, `Metadata.ofJson_entriesToJson` — entries read back from their
  JSON object.
-/

namespace VectorTable

/-- The value is not an infinite float or `nan`. -/
def MetadataValue.IsFinite : MetadataValue → Prop
  | .float x => x.isFinite = true
  | .double x => x.isFinite = true
  | _ => True

/-- A float has a JSON number if and only if it is finite. -/
theorem MetadataValue.finiteNumber_ok_iff (x : Double) :
    (∃ v, finiteNumber x = .ok v) ↔ x.isFinite = true := by
  unfold finiteNumber
  split
  · rename_i h
    exact iff_of_true ⟨_, rfl⟩ h
  · rename_i h
    refine iff_of_false ?_ h
    rintro ⟨v, hv⟩
    cases hv

/-- All values but floats that are not finite have a JSON form. -/
theorem MetadataValue.toJson_ok_iff (value : MetadataValue) :
    (∃ v, value.toJson = .ok v) ↔ value.IsFinite := by
  cases value with
  | float x => exact (finiteNumber_ok_iff _).trans (by rw [Binary.isFinite_widen]; rfl)
  | double x => exact finiteNumber_ok_iff x
  | string s => exact iff_of_true ⟨_, rfl⟩ trivial
  | integer i => exact iff_of_true ⟨_, rfl⟩ trivial
  | long i => exact iff_of_true ⟨_, rfl⟩ trivial
  | uuid u => exact iff_of_true ⟨_, rfl⟩ trivial

/-- What an object of entries is made of: the same keys, each with the JSON form of its value. -/
theorem Metadata.entriesToJson_eq_ok {entries : Entries MetadataValue} {json : Json} :
    entriesToJson entries = .ok json ↔ ∃ members, json = .object members ∧
      List.Forall₂ (fun e m => m.1 = e.1 ∧ e.2.toJson = .ok m.2) entries members := by
  have hmember (e : String × MetadataValue) (m : String × Json) :
      (do return (e.1, ← e.2.toJson) : Except Error (String × Json)) = .ok m ↔
        m.1 = e.1 ∧ e.2.toJson = .ok m.2 := by
    rw [bind_eq_ok]
    constructor
    · rintro ⟨v, hv, hm⟩
      cases hm
      exact ⟨rfl, hv⟩
    · rintro ⟨hkey, hv⟩
      exact ⟨m.2, hv, by rw [← hkey]; rfl⟩
  -- An object is written member by member.
  unfold entriesToJson
  rw [bind_eq_ok]
  constructor
  · rintro ⟨members, hmembers, hjson⟩
    cases hjson
    exact ⟨members, rfl, (mapM_eq_ok_iff.mp hmembers).imp fun e m => (hmember e m).mp⟩
  · rintro ⟨members, rfl, hmembers⟩
    exact ⟨members, mapM_eq_ok_iff.mpr (hmembers.imp fun e m => (hmember e m).mpr), rfl⟩

/-- The members of an object of entries are the JSON forms of the entries. -/
theorem Metadata.mem_members {entries : Entries MetadataValue} {members : List (String × Json)}
    (h : List.Forall₂ (fun e m => m.1 = e.1 ∧ e.2.toJson = .ok m.2) entries members)
    {key : String} {v : Json} :
    (key, v) ∈ members ↔ ∃ value, (key, value) ∈ entries ∧ value.toJson = .ok v := by
  constructor
  · intro hmem
    obtain ⟨i, hi⟩ := List.mem_iff_getElem?.mp hmem
    obtain ⟨⟨k, value⟩, hentry, rfl, hvalue⟩ := exists_getElem?_of_forall₂ h.flip hi
    exact ⟨value, List.mem_of_getElem? hentry, hvalue⟩
  · rintro ⟨value, hmem, hvalue⟩
    obtain ⟨i, hi⟩ := List.mem_iff_getElem?.mp hmem
    obtain ⟨⟨k, v'⟩, hmember, rfl, hv'⟩ := exists_getElem?_of_forall₂ h hi
    -- The member at the position of the entry has the only JSON form of its value.
    obtain rfl := Except.ok.inj (hv'.symm.trans hvalue)
    exact List.mem_of_getElem? hmember

/-- The members of an object have the keys of the entries that they are made from. -/
theorem Metadata.keys_members {entries : Entries MetadataValue} {members : List (String × Json)}
    (h : List.Forall₂ (fun e m => m.1 = e.1 ∧ e.2.toJson = .ok m.2) entries members) :
    members.map (·.1) = entries.map (·.1) := by
  induction h with
  | nil => rfl
  | cons hm _ ih => rw [List.map_cons, List.map_cons, hm.1, ih]

/-- Entries in order make members in order. -/
theorem Metadata.ascending_members {entries : Entries MetadataValue} (hasc : entries.Ascending)
    {members : Entries Json}
    (h : List.Forall₂ (fun e m => m.1 = e.1 ∧ e.2.toJson = .ok m.2) entries members) :
    members.Ascending :=
  hasc.of_keys (keys_members h)

/-- A member is found under a key if the entry of the key has this JSON form. -/
theorem Metadata.get?_members {entries : Entries MetadataValue} (hasc : entries.Ascending)
    {members : Entries Json}
    (h : List.Forall₂ (fun e m => m.1 = e.1 ∧ e.2.toJson = .ok m.2) entries members)
    {key : String} {v : Json} :
    Entries.get? key members = some v ↔
      ∃ value, Entries.get? key entries = some value ∧ value.toJson = .ok v := by
  rw [(ascending_members hasc h).get?_eq_some_iff, mem_members h]
  simp only [hasc.get?_eq_some_iff]

/-- Entries have a JSON form if all their values do. -/
theorem Metadata.entriesToJson_ok_iff (entries : Entries MetadataValue) :
    (∃ json, entriesToJson entries = .ok json) ↔ ∀ e ∈ entries, e.2.IsFinite := by
  have hmember (e : String × MetadataValue) :
      (∃ m, (do return (e.1, ← e.2.toJson) : Except Error (String × Json)) = .ok m) ↔
        e.2.IsFinite := by
    rw [← MetadataValue.toJson_ok_iff]
    constructor
    · rintro ⟨m, hm⟩
      obtain ⟨v, hv, -⟩ := bind_eq_ok.mp hm
      exact ⟨v, hv⟩
    · rintro ⟨v, hv⟩
      exact ⟨_, bind_eq_ok.mpr ⟨v, hv, rfl⟩⟩
  -- A traversal succeeds if each of its steps does.
  simp only [← hmember]
  rw [← exists_mapM_eq_ok_iff]
  constructor
  · rintro ⟨json, h⟩
    obtain ⟨members, hmembers, -⟩ := bind_eq_ok.mp h
    exact ⟨members, hmembers⟩
  · rintro ⟨members, hmembers⟩
    exact ⟨_, bind_eq_ok.mpr ⟨members, hmembers, rfl⟩⟩

/-! ## Reading back -/

/-- A whole number that fits 32 bits is read as one of 32 bits. -/
theorem MetadataValue.ofInt?_of_short {i : Int} (h : -0x80000000 ≤ i ∧ i < 0x80000000) :
    ofInt? i = some (.integer (Int32.ofInt i)) := if_pos h

/-- A value is read back from its JSON form, in the width that its number needs. -/
theorem MetadataValue.ofJson?_toJson (key : String) {value : MetadataValue} {v : Json}
    (h : value.toJson = .ok v) : MetadataValue.ofJson? key v = .ok (some value.normal) := by
  have hfinite {x : Double} (hx : finiteNumber x = .ok v) :
      MetadataValue.ofJson? key v = .ok (some (.double x)) := by
    unfold finiteNumber at hx
    split at hx <;> cases hx
    rfl
  cases value with
  | string s => cases h; rfl
  | uuid u => cases h; rfl
  | float x => exact hfinite h
  | double x => exact hfinite h
  | integer i =>
    cases h
    have hi : ofInt? i.toInt = some (.integer i) := by
      rw [ofInt?_of_short ⟨i.le_toInt, i.toInt_lt⟩, Int32.ofInt_toInt]
    simp only [Json.ofInt32, ofJson?, hi, normal]
  | long i =>
    cases h
    -- A long that fits 32 bits comes back as an integer, and any other as it was.
    have hi : ofInt? i.toInt = some (normal (.long i)) := by
      rw [ofInt?, normal]
      split
      · rfl
      · rw [if_pos ⟨i.le_toInt, i.toInt_lt⟩, Int64.ofInt_toInt]
    simp only [Json.ofInt64, ofJson?, hi]

/-- The JSON form of a value opens no arrays and objects. -/
theorem MetadataValue.fits_toJson {value : MetadataValue} {v : Json} (h : value.toJson = .ok v)
    (room : Nat) : v.Fits room := by
  have hfinite {x : Double} (hx : finiteNumber x = .ok v) : v.Fits room := by
    unfold finiteNumber at hx
    split at hx <;> cases hx
    cases room <;> trivial
  cases value with
  | float x => exact hfinite h
  | double x => exact hfinite h
  | string s => cases h; cases room <;> trivial
  | uuid u => cases h; cases room <;> trivial
  | integer i => cases h; cases room <;> trivial
  | long i => cases h; cases room <;> trivial

/-- **Entries are read back** from their JSON object, each value in the kind that JSON gives it. -/
theorem Metadata.ofJson_of_entriesToJson {entries : Entries MetadataValue} {json : Json}
    (h : entriesToJson entries = .ok json) :
    Metadata.ofJson json = .ok (.ofList (entries.map fun e => (e.1, e.2.normal))) := by
  obtain ⟨members, rfl, hmembers⟩ := entriesToJson_eq_ok.mp h
  -- No value of an entry is a JSON null, so that no member is passed over.
  have hread : entriesOfJson members = .ok (entries.map fun e => (e.1, e.2.normal)) := by
    refine bind_eq_ok.mpr ⟨entries.map fun e => some (e.1, e.2.normal), mapM_eq_ok_iff.mpr ?_, ?_⟩
    · clear h
      induction hmembers with
      | nil => exact .nil
      | @cons e m _ _ hm _ ih =>
        obtain ⟨key, v⟩ := m
        obtain ⟨rfl, hv⟩ := hm
        exact .cons (bind_eq_ok.mpr ⟨_, MetadataValue.ofJson?_toJson _ hv, rfl⟩) ih
    · simp [List.filterMap_map]
      rfl
  rw [Metadata.ofJson, hread]
  rfl

/-- The object of entries in order can be written as text, and their values are found in what is
read back. -/
theorem Metadata.ofJson_entriesToJson {entries : Entries MetadataValue}
    (hasc : entries.Ascending) {json : Json} (h : entriesToJson entries = .ok json) :
    json.Fits Json.maxDepth ∧ ∃ m, Metadata.ofJson json = .ok m ∧
      ∀ key, m.get? key = (Entries.get? key entries).map MetadataValue.normal := by
  have hread := ofJson_of_entriesToJson h
  obtain ⟨members, rfl, hmembers⟩ := entriesToJson_eq_ok.mp h
  have hfit : Json.MembersFit members (Json.maxDepth - 1) := by
    clear h hasc hread
    induction hmembers with
    | nil => trivial
    | cons hm _ ih => exact ⟨MetadataValue.fits_toJson hm.2 _, ih⟩
  refine ⟨⟨ascending_members hasc hmembers, hfit⟩, _, hread, fun key => ?_⟩
  rw [Dictionary.get?_ofList (hasc.map MetadataValue.normal), Entries.get?_map]

end VectorTable
