import VectorTable.Proofs.Metadata.Json

/-!
# VectorTable — metadata to JSON and back

Metadata can be written as a JSON object unless it holds a float that is not finite, and is read
back up to the kinds that JSON does not know. The other way round, whatever JSON value is read as
metadata is written again as it was, but for members that are null.

* `Metadata.normal` — metadata after it has gone through JSON;
* `Json.IsMetadata` — the JSON values that are read as metadata;
* `Metadata.json_round_trip` — both ways round.
-/

namespace VectorTable

/-! ## JSON values -/

namespace Json

def isNull : Json → Bool
  | .null => true
  | _ => false

/-- What may stand under a key: a text, a float, an integer that a signed number of 64 bits holds,
or null for no value. -/
def IsEntry : Json → Prop
  | .null => True
  | .string _ => True
  | .number (.integer i _) => -0x8000000000000000 ≤ i ∧ i < 0x8000000000000000
  | .number (.float _ _) => True
  | .bool _ | .array _ | .object _ => False

/-- An object of such members, or null for an object without members. -/
def IsMetadata : Json → Prop
  | .null => True
  | .object members => ∀ m ∈ members, m.2.IsEntry
  | _ => False

/-- The object without its members that are null. -/
def withoutNulls : Json → Json
  | .null => .object []
  | .object members => .ofMembers (members.filter fun m => !m.2.isNull)
  | v => v

/-- Members in order need not be put in order. -/
theorem withoutNulls_object {members : Entries Json} (h : members.Ascending) :
    (Json.object members).withoutNulls = .object (members.filter fun m => !m.2.isNull) := by
  have hfilter : Entries.Ascending (members.filter fun m => !m.2.isNull) := h.filter _
  rw [withoutNulls, ofMembers, hfilter.sort_eq]

end Json

/-! ## One value -/

namespace MetadataValue

/-- A whole number is a value if it fits 64 bits with a sign. -/
theorem ofInt?_isSome_iff {i : Int} :
    (∃ value, ofInt? i = some value) ↔ -0x8000000000000000 ≤ i ∧ i < 0x8000000000000000 := by
  unfold ofInt?
  split
  · rename_i hshort
    exact iff_of_true ⟨_, rfl⟩ (by omega)
  · split
    · rename_i hlong
      exact iff_of_true ⟨_, rfl⟩ hlong
    · rename_i hlong
      exact iff_of_false nofun hlong

/-- A JSON value is read if it is null, or of a kind that metadata have. -/
theorem ofJson?_ok_iff (key : String) {v : Json} :
    (∃ read, ofJson? key v = .ok read) ↔ v.IsEntry := by
  have hrefused {v : Json} {error : Error} (h : ofJson? key v = .error error) :
      ¬ ∃ read, ofJson? key v = .ok read := by
    rintro ⟨read, hread⟩
    rw [h] at hread
    cases hread
  cases v with
  | null => exact iff_of_true ⟨_, rfl⟩ trivial
  | string s => exact iff_of_true ⟨_, rfl⟩ trivial
  | bool b => exact iff_of_false (hrefused rfl) not_false
  | array items => exact iff_of_false (hrefused rfl) not_false
  | object members => exact iff_of_false (hrefused rfl) not_false
  | number n =>
    cases n with
    | float x hx => exact iff_of_true ⟨_, rfl⟩ trivial
    | integer i hi =>
      -- A whole number is read if it fits 64 bits with a sign.
      rw [Json.IsEntry, ← ofInt?_isSome_iff, ofJson?]
      cases hvalue : ofInt? i with
      | some value => exact iff_of_true ⟨_, rfl⟩ ⟨_, rfl⟩
      | none =>
        refine iff_of_false ?_ ?_
        · rintro ⟨read, hread⟩
          cases hread
        · rintro ⟨value, hvalue⟩
          cases hvalue

/-- Only null is read as no value. -/
theorem isNull_of_ofJson? {key : String} {v : Json} {read : Option MetadataValue}
    (h : ofJson? key v = .ok read) : v.isNull = read.isNone := by
  unfold ofJson? at h
  split at h
  · cases h
    rfl
  · cases h
    rfl
  · split at h
    · cases h
      rfl
    · cases h
  · cases h
    rfl
  · cases h

/-- An integer is written as it was, whichever of the two kinds it was read as. -/
theorem toJson_of_ofInt? {i : Int}
    {hi : -0x8000000000000000 ≤ i ∧ i < 0x10000000000000000} {value : MetadataValue}
    (h : ofInt? i = some value) : value.toJson = .ok (.number (.integer i hi)) := by
  unfold ofInt? at h
  split at h
  · rename_i hshort
    cases h
    -- The number fits, so that nothing is cut off.
    have hback : (Int32.ofInt i).toInt = i := Int32.toInt_ofInt_of_le hshort.1 hshort.2
    simp only [toJson, Json.ofInt32, hback]
  · split at h
    · rename_i hlong
      cases h
      have hback : (Int64.ofInt i).toInt = i := Int64.toInt_ofInt_of_le hlong.1 hlong.2
      simp only [toJson, Json.ofInt64, hback]
    · cases h

/-- A value that is read is written as it was. -/
theorem toJson_of_ofJson? {key : String} {v : Json} {value : MetadataValue}
    (h : ofJson? key v = .ok (some value)) : value.toJson = .ok v := by
  unfold ofJson? at h
  split at h
  · cases h
  · cases h
    rfl
  · split at h
    · rename_i hvalue
      cases h
      exact toJson_of_ofInt? hvalue
    · cases h
  · rename_i hx
    cases h
    exact dif_pos hx
  · cases h

/-- What has no JSON form is a float that is not finite. -/
theorem toJson_eq_error {value : MetadataValue} {error : Error} (h : value.toJson = .error error) :
    ∃ x, error = .encoding (.notFinite x) := by
  have hfinite {x : Double} (hx : finiteNumber x = .error error) :
      ∃ x, error = .encoding (.notFinite x) := by
    unfold finiteNumber at hx
    split at hx
    · cases hx
    · cases hx
      exact ⟨x, rfl⟩
  -- Only floats can fail, and both widths do so alike.
  cases value with
  | float x => exact hfinite h
  | double x => exact hfinite h
  | string s => cases h
  | integer i => cases h
  | long i => cases h
  | uuid u => cases h

end MetadataValue

namespace Metadata

/-! ## Writing -/

/-- Metadata have a JSON form if every value in them does. -/
theorem toJson_ok_iff {m : Metadata} :
    (∃ json, m.toJson = .ok json) ↔ ∀ key value, m.get? key = some value → value.IsFinite := by
  unfold toJson
  rw [entriesToJson_ok_iff]
  constructor
  · intro h key value hvalue
    exact h (key, value) ((m.mem_entries key value).mpr hvalue)
  · rintro h ⟨key, value⟩ hmem
    exact h key value ((m.mem_entries key value).mp hmem)

/-- Metadata without a JSON form are refused for a float that is not finite. -/
theorem toJson_eq_error {m : Metadata} {error : Error} (h : m.toJson = .error error) :
    ∃ x, error = .encoding (.notFinite x) := by
  rcases bind_eq_error.mp h with hmembers | ⟨members, -, hpure⟩
  · obtain ⟨e, -, he⟩ := exists_of_mapM_eq_error hmembers
    rcases bind_eq_error.mp he with hvalue | ⟨v, -, hpure⟩
    · exact MetadataValue.toJson_eq_error hvalue
    · cases hpure
  · cases hpure

/-- Metadata after it has gone through JSON. -/
def normal (m : Metadata) : Metadata :=
  ⟨m.entries.map fun e => (e.1, e.2.normal), m.ascending.map MetadataValue.normal⟩

/-- The normal form is taken value by value. -/
theorem get?_normal (m : Metadata) (key : String) :
    m.normal.get? key = (m.get? key).map MetadataValue.normal :=
  Entries.get?_map MetadataValue.normal key m.entries

/-- **From metadata to JSON and back**: what is read has every number in the width that it needs. -/
theorem ofJson_toJson {m : Metadata} {json : Json} (h : m.toJson = .ok json) :
    ofJson json = .ok m.normal := by
  have hsorted : Dictionary.ofList (m.entries.map fun e => (e.1, e.2.normal)) = m.normal := by
    unfold Dictionary.ofList normal
    congr 1
    exact (m.ascending.map MetadataValue.normal).sort_eq
  rw [ofJson_of_entriesToJson h, hsorted]

/-- No getter sees a difference between metadata and their normal form. -/
theorem getters_normal (m : Metadata) (key : String) : m.GettersKept m.normal key := by
  cases hvalue : m.get? key with
  | none =>
    refine gettersKept_of_eq ?_
    rw [get?_normal, hvalue, Option.map_none]
  | some value =>
    have hstored : m.normal.get? key = some value.normal := by
      rw [get?_normal, hvalue, Option.map_some]
    exact getters_kept hvalue hstored (.normal value)

/-! ## Reading -/

/-- One member is read as an entry or, if it is null, as none. -/
theorem readMember_eq_ok {m : String × Json} {entry : Option (String × MetadataValue)} :
    (do return (← MetadataValue.ofJson? m.1 m.2).map (m.1, ·) :
        Except Error (Option (String × MetadataValue))) = .ok entry ↔
      ∃ read, MetadataValue.ofJson? m.1 m.2 = .ok read ∧ read.map (m.1, ·) = entry := by
  rw [bind_eq_ok]
  refine exists_congr fun read => and_congr_right fun _ => ?_
  exact ⟨Except.ok.inj, congrArg Except.ok⟩

/-- Members are read if each of them is. -/
theorem entriesOfJson_ok_iff {members : List (String × Json)} :
    (∃ entries, entriesOfJson members = .ok entries) ↔ ∀ m ∈ members, m.2.IsEntry := by
  have hmember (m : String × Json) :
      (∃ entry, (do return (← MetadataValue.ofJson? m.1 m.2).map (m.1, ·) :
        Except Error (Option (String × MetadataValue))) = .ok entry) ↔ m.2.IsEntry := by
    simp only [readMember_eq_ok, ← MetadataValue.ofJson?_ok_iff m.1]
    constructor
    · rintro ⟨entry, read, hread, -⟩
      exact ⟨read, hread⟩
    · rintro ⟨read, hread⟩
      exact ⟨_, read, hread, rfl⟩
  -- A traversal succeeds if each of its steps does.
  simp only [← hmember]
  rw [← exists_mapM_eq_ok_iff]
  constructor
  · rintro ⟨entries, h⟩
    obtain ⟨read, hread, -⟩ := bind_eq_ok.mp h
    exact ⟨read, hread⟩
  · rintro ⟨read, hread⟩
    exact ⟨_, bind_eq_ok.mpr ⟨read, hread, rfl⟩⟩

/-- A JSON value is read if it is an object of members that are read. -/
theorem ofJson_ok_iff {v : Json} : (∃ m, ofJson v = .ok m) ↔ v.IsMetadata := by
  cases v with
  | null => exact iff_of_true ⟨∅, rfl⟩ trivial
  | bool b => exact iff_of_false nofun not_false
  | number n => exact iff_of_false nofun not_false
  | string s => exact iff_of_false nofun not_false
  | array items => exact iff_of_false nofun not_false
  | object members =>
    rw [Json.IsMetadata, ← entriesOfJson_ok_iff]
    constructor
    · rintro ⟨m, h⟩
      obtain ⟨entries, hentries, -⟩ := map_eq_ok.mp h
      exact ⟨entries, hentries⟩
    · rintro ⟨entries, hentries⟩
      exact ⟨_, map_eq_ok.mpr ⟨entries, hentries, rfl⟩⟩

/-- What is read from the members of an object is written as the members that are not null. -/
theorem forall₂_of_entriesOfJson {members : List (String × Json)} {entries : Entries MetadataValue}
    (h : entriesOfJson members = .ok entries) :
    List.Forall₂ (fun e m => m.1 = e.1 ∧ e.2.toJson = .ok m.2) entries
      (members.filter fun m => !m.2.isNull) := by
  obtain ⟨read, hread, hentries⟩ := bind_eq_ok.mp h
  cases hentries
  have hmembers := mapM_eq_ok_iff.mp hread
  clear h hread
  induction hmembers with
  | nil => exact .nil
  | @cons m entry members read hm _ ih =>
    obtain ⟨value, hvalue, rfl⟩ := readMember_eq_ok.mp hm
    have hnull := MetadataValue.isNull_of_ofJson? hvalue
    cases value with
    | none =>
      -- A null member leaves no entry.
      rw [List.filter_cons_of_neg (by simp [hnull])]
      exact ih
    | some value =>
      rw [List.filter_cons_of_pos (by simp [hnull])]
      exact .cons ⟨rfl, MetadataValue.toJson_of_ofJson? hvalue⟩ ih

/-- **From JSON to metadata and back**: what is written lacks the members that are null. -/
theorem toJson_of_ofJson {v : Json} {m : Metadata} (h : ofJson v = .ok m) :
    m.toJson = .ok v.withoutNulls := by
  cases v with
  | null =>
    cases h
    rfl
  | bool b => cases h
  | number n => cases h
  | string s => cases h
  | array items => cases h
  | object members =>
    obtain ⟨entries, hentries, rfl⟩ := map_eq_ok.mp h
    -- A dictionary sorts its entries, and the object its members, by the same keys.
    have hsorted := Entries.forall₂_sort (r := fun value v => MetadataValue.toJson value = .ok v)
      (forall₂_of_entriesOfJson hentries)
    exact entriesToJson_eq_ok.mpr ⟨_, rfl, hsorted⟩

/-! ## Both ways -/

/-- **Metadata and JSON.** Metadata is written unless it holds a float that is not finite; what is
read back has each value in the kind that JSON gives it, and no typed getter notices. What is read
as metadata are the objects of texts, floats, integers in range and nulls; they are written as they
were, without the nulls. -/
theorem json_round_trip :
    (∀ m : Metadata, (∃ x, m.toJson = .error (.encoding (.notFinite x))) ↔
      ∃ key value, m.get? key = some value ∧ ¬ value.IsFinite) ∧
    (∀ m : Metadata, (∀ key value, m.get? key = some value → value.IsFinite) →
      ∃ json, m.toJson = .ok json ∧ ofJson json = .ok m.normal ∧
        ∀ key, m.GettersKept m.normal key) ∧
    (∀ v : Json, (∃ m, ofJson v = .ok m) ↔ v.IsMetadata) ∧
    (∀ (v : Json) (m : Metadata), ofJson v = .ok m → m.toJson = .ok v.withoutNulls) ∧
    ∀ members : Entries Json, members.Ascending →
      (Json.object members).withoutNulls = .object (members.filter fun m => !m.2.isNull) := by
  refine ⟨?_, ?_, fun v => ofJson_ok_iff, fun v m => toJson_of_ofJson,
    fun members => Json.withoutNulls_object⟩
  · intro m
    constructor
    · -- If all values were finite, there would be a JSON form.
      rintro ⟨x, herror⟩
      by_contra hnone
      have hfinite : ∀ key value, m.get? key = some value → value.IsFinite := by
        intro key value hvalue
        by_contra hnot
        exact hnone ⟨key, value, hvalue, hnot⟩
      obtain ⟨json, hjson⟩ := toJson_ok_iff.mpr hfinite
      rw [herror] at hjson
      cases hjson
    · rintro ⟨key, value, hvalue, hnot⟩
      -- A value that is not finite leaves only the error, which is always of this kind.
      cases hresult : m.toJson with
      | ok json => exact absurd (toJson_ok_iff.mp ⟨json, hresult⟩ key value hvalue) hnot
      | error error =>
        obtain ⟨x, rfl⟩ := toJson_eq_error hresult
        exact ⟨x, rfl⟩
  · intro m hfinite
    obtain ⟨json, hjson⟩ := toJson_ok_iff.mpr hfinite
    exact ⟨json, hjson, ofJson_toJson hjson, getters_normal m⟩

/-- A page, a negative zero as score, and the id of a source. -/
def scoredEntries : Entries MetadataValue :=
  [("page", .long 7), ("score", .double (Binary.zero true)),
    ("source", .uuid ⟨List.replicate 32 ⟨7, by decide⟩, rfl⟩)]

def scored : Metadata := ⟨scoredEntries, by unfold Entries.Ascending; decide⟩

/-- The members of an object, one of them null. -/
def scoredMembers : Entries Json :=
  [("author", .null), ("page", .ofInt32 7), ("score", .number (.float (Binary.zero true) rfl))]

/-- The hypotheses can be met in both directions. -/
theorem json_round_trip_scored :
    (∀ key value, scored.get? key = some value → value.IsFinite) ∧
      (∃ json, scored.toJson = .ok json ∧ ofJson json = .ok scored.normal ∧
        ∀ key, scored.GettersKept scored.normal key) ∧
      scoredMembers.Ascending ∧
      ∃ m, ofJson (.object scoredMembers) = .ok m ∧
        m.toJson = .ok (Json.object scoredMembers).withoutNulls ∧
        (Json.object scoredMembers).withoutNulls =
          .object (scoredMembers.filter fun m => !m.2.isNull) := by
  obtain ⟨-, hwrite, hread, hback, hnulls⟩ := json_round_trip
  have hfinite : ∀ key value, scored.get? key = some value → value.IsFinite := by
    intro key value hvalue
    have hmem : (key, value) ∈ scoredEntries := (scored.mem_entries key value).mpr hvalue
    simp only [scoredEntries, List.mem_cons, List.not_mem_nil, or_false, Prod.mk.injEq] at hmem
    rcases hmem with ⟨rfl, rfl⟩ | ⟨rfl, rfl⟩ | ⟨rfl, rfl⟩
    · trivial
    · show (Binary.zero true).isFinite = true
      rfl
    · trivial
  have hasc : scoredMembers.Ascending := by
    unfold Entries.Ascending
    decide
  have hentries : (Json.object scoredMembers).IsMetadata := by
    simp [Json.IsMetadata, scoredMembers, Json.IsEntry, Json.ofInt32]
  obtain ⟨m, hm⟩ := (hread _).mpr hentries
  exact ⟨hfinite, hwrite scored hfinite, hasc, m, hm, hback _ m hm, hnulls _ hasc⟩

end Metadata

end VectorTable
