import VectorTable.Proofs.Json.Accepted
import VectorTable.Proofs.Metadata.RoundTrip
import VectorTable.Proofs.Row.Merge

/-!
# VectorTable — columns over JSON

What a merge gives, value by value, and when it fails. Under each key stands the last value that a
column has there; only where no column has one does the member of the JSON text count. The text
alone decides whether there is a result: it must be null or an object of texts and numbers.

* `Json.ObjectText` — the members of a text, repeated ones among them;
* `Json.DecodesTo`, `Json.Unreadable` — the members that have a value, and those that are refused;
* `Metadata.merge_gives_precedence` — the result and the faults of a merge.
-/

namespace VectorTable

namespace Json

/-- A text is an object of these members, in the order of the text. -/
def ObjectText (text : String) (members : List (String × Json)) : Prop :=
  ∃ before s after, text.toList = before ++ ('\x7b' :: (s ++ ['\x7d']) ++ after) ∧
    Blanks before ∧ Blanks after ∧ MembersText (maxDepth - 1) s members

/-- The metadata value of a JSON value. Null has none. -/
inductive DecodesTo : Json → MetadataValue → Prop
  | string (s : String) : DecodesTo (.string s) (.string s)
  | integer {i : Int} {h} (hi : -0x80000000 ≤ i ∧ i < 0x80000000) :
      DecodesTo (.number (.integer i h)) (.integer (Int32.ofInt i))
  | long {i : Int} {h} (hi : ¬ (-0x80000000 ≤ i ∧ i < 0x80000000))
      (hlong : i < 0x8000000000000000) :
      DecodesTo (.number (.integer i h)) (.long (Int64.ofInt i))
  | double (x : Double) (hx : x.isFinite = true) : DecodesTo (.number (.float x hx)) (.double x)

/-- A JSON value that metadata cannot hold: a truth value, an array, an object, or an integer beyond
the signed ones of 64 bits. -/
inductive Unreadable : Json → Prop
  | bool (b : Bool) : Unreadable (.bool b)
  | array (items : List Json) : Unreadable (.array items)
  | object (members : List (String × Json)) : Unreadable (.object members)
  | integer {i : Int} {h} (hi : 0x8000000000000000 ≤ i) : Unreadable (.number (.integer i h))

/-- What cannot be read are the values that no entry may have. -/
theorem unreadable_iff (v : Json) : v.Unreadable ↔ ¬ v.IsEntry := by
  constructor
  · intro h
    cases h with
    | integer hi => exact fun hentry => absurd hentry.2 (by omega)
    | bool b => exact not_false
    | array items => exact not_false
    | object members => exact not_false
  · intro h
    cases v with
    | null => exact absurd trivial h
    | string s => exact absurd trivial h
    | bool b => exact .bool b
    | array items => exact .array items
    | object members => exact .object members
    | number n =>
      cases n with
      | float x hx => exact absurd trivial h
      | integer i hi =>
        -- Below the signed integers of 64 bits there are none.
        refine .integer (Int.not_lt.mp fun hlt => h ⟨hi.1, hlt⟩)

/-- What a JSON value decodes to is what is read from it. -/
theorem decodesTo_iff (key : String) {v : Json} {value : MetadataValue} :
    v.DecodesTo value ↔ MetadataValue.ofJson? key v = .ok (some value) := by
  constructor
  · intro h
    cases h with
    | string s => rfl
    | double x hx => rfl
    | @integer i hrange hi => simp only [MetadataValue.ofJson?, MetadataValue.ofInt?, if_pos hi]
    | @long i hrange hi hlong =>
      simp only [MetadataValue.ofJson?, MetadataValue.ofInt?, if_neg hi, if_pos hlong,
        hrange.1, true_and]
  · intro h
    -- A value of any other kind is refused or left out.
    unfold MetadataValue.ofJson? at h
    split at h
    · cases h
    · cases h
      exact .string _
    · -- An integer takes the narrower of the two kinds that it fits.
      split at h
      · rename_i hint
        cases h
        unfold MetadataValue.ofInt? at hint
        split at hint
        · rename_i hi
          cases hint
          exact .integer hi
        · rename_i hi
          split at hint <;> cases hint
          rename_i hlong
          exact .long hi hlong.2
      · cases h
    · cases h
      exact .double _ _
    · cases h

/-- A text has one value at most. -/
theorem Denotes.unique {text : String} {v v' : Json} (h : Denotes text v) (h' : Denotes text v') :
    v = v' := by
  rw [← parse?_eq_some_iff] at h h'
  exact Option.some.inj (h.symm.trans h')

/-- An object is read with the last one of the members of each key. -/
theorem denotes_object_iff {text : String} {sorted : List (String × Json)} :
    Denotes text (.object sorted) ↔
      ∃ members, ObjectText text members ∧ sorted = Entries.sort members := by
  unfold Denotes ObjectText
  constructor
  · intro h
    generalize text.toList = s at h ⊢
    cases h with
    | @mk _ before t after _ hbefore hvalue hafter =>
      cases hvalue with
      | @object room s members hmembers =>
        exact ⟨members, ⟨before, s, after, rfl, hbefore, hafter, hmembers⟩, rfl⟩
  · rintro ⟨members, ⟨before, s, after, htext, hbefore, hafter, hmembers⟩, rfl⟩
    rw [htext]
    exact .mk hbefore (.object hmembers) hafter

end Json

namespace Metadata

variable {columns : List (String × Option MetadataValue)} {overflow : Option String}

/-- The columns that are not null. -/
def values (columns : List (String × Option MetadataValue)) : Entries MetadataValue :=
  columns.filterMap fun c => c.2.map (c.1, ·)

/-- A key is looked up in the columns first, the last of them before the others. -/
theorem get?_overlay (columns : List (String × Option MetadataValue)) (stored : Metadata)
    (key : String) : (overlay columns stored).get? key =
      (Entries.get? key (values columns).reverse).or (stored.get? key) := by
  induction columns generalizing stored with
  | nil => rfl
  | cons c columns ih =>
    obtain ⟨name, value⟩ := c
    rw [overlay_cons, ih]
    cases value with
    | none => rfl
    | some value =>
      have hvalues : values ((name, some value) :: columns) = (name, value) :: values columns := rfl
      -- A later column hides this one, and this one hides what is stored.
      rw [hvalues, List.reverse_cons, Entries.get?_append, Option.elim_some,
        Dictionary.get?_insert, Entries.get?_cons, Option.or_assoc]
      split <;> rfl

/-- The entries that are read are the members that decode to a value. -/
theorem mem_entriesOfJson {members : List (String × Json)} {entries : Entries MetadataValue}
    (h : entriesOfJson members = .ok entries) {key : String} {value : MetadataValue} :
    (key, value) ∈ entries ↔ ∃ v, (key, v) ∈ members ∧ v.DecodesTo value := by
  obtain ⟨read, hread, hentries⟩ := bind_eq_ok.mp h
  cases hentries
  simp only [List.mem_filterMap, id_eq, exists_eq_right, Json.decodesTo_iff key]
  have hmembers := mapM_eq_ok_iff.mp hread
  -- Each member is read by itself, and one that is null is passed over.
  constructor
  · intro hmem
    obtain ⟨⟨k, v⟩, hmember, hm⟩ := exists_of_mem_mapM hread hmem
    obtain ⟨decoded, hdecoded, heq⟩ := (readMember_eq_ok (m := (k, v))).mp hm
    obtain ⟨value', rfl, hpair⟩ := Option.map_eq_some_iff.mp heq
    obtain ⟨rfl, rfl⟩ := Prod.mk.inj hpair
    exact ⟨v, hmember, hdecoded⟩
  · rintro ⟨v, hmember, hdecoded⟩
    obtain ⟨i, hi⟩ := List.mem_iff_getElem?.mp hmember
    obtain ⟨entry, hentry, hm⟩ := exists_getElem?_of_forall₂ hmembers hi
    obtain ⟨decoded, hdecoded', rfl⟩ := (readMember_eq_ok (m := (key, v))).mp hm
    rw [hdecoded] at hdecoded'
    cases hdecoded'
    exact List.mem_of_getElem? hentry

/-- The values of an object are those of its members. -/
theorem get?_ofJson {members : Entries Json} (hasc : members.Ascending) {m : Metadata}
    (h : ofJson (.object members) = .ok m) {key : String} {value : MetadataValue} :
    m.get? key = some value ↔ ∃ v, Entries.get? key members = some v ∧ v.DecodesTo value := by
  obtain ⟨entries, hentries, rfl⟩ := map_eq_ok.mp h
  -- Reading passes over some members and keeps the order of the others.
  have hfilter : Entries.Ascending (members.filter fun m => !m.2.isNull) := hasc.filter _
  have hentriesAsc : entries.Ascending :=
    hfilter.of_keys (keys_members (forall₂_of_entriesOfJson hentries)).symm
  rw [Dictionary.get?_ofList hentriesAsc, hentriesAsc.get?_eq_some_iff, mem_entriesOfJson hentries]
  simp only [hasc.get?_eq_some_iff]

/-! ## The text -/

/-- A value that cannot be read is a fault of the encoding. -/
theorem ofJson?_eq_error {key : String} {v : Json} {error : Error}
    (h : MetadataValue.ofJson? key v = .error error) : ∃ fault, error = .encoding fault := by
  unfold MetadataValue.ofJson? at h
  split at h
  · cases h
  · cases h
  · split at h <;> cases h
    exact ⟨_, rfl⟩
  · cases h
  · cases h
    exact ⟨_, rfl⟩

/-- So is a JSON value that is not an object. -/
theorem ofJson_eq_error {v : Json} {error : Error} (h : ofJson v = .error error) :
    ∃ fault, error = .encoding fault := by
  unfold ofJson at h
  split at h
  · cases h
  · rcases bind_eq_error.mp (map_eq_error.mp h) with hread | ⟨read, -, hpure⟩
    · obtain ⟨m, -, hm⟩ := exists_of_mapM_eq_error hread
      rcases bind_eq_error.mp hm with hvalue | ⟨decoded, -, hpure⟩
      · exact ofJson?_eq_error hvalue
      · cases hpure
    · cases hpure
  · cases h
    exact ⟨_, rfl⟩

/-- A text that denotes a value is read as this value. -/
theorem ofOverflow_of_denotes {text : String} {v : Json} (h : Json.Denotes text v) :
    ofOverflow (some text) = ofJson v := by
  rw [ofOverflow, Json.parse?_eq_some_iff.mpr h]

/-- A text that denotes nothing is malformed. -/
theorem ofOverflow_of_forall {text : String} (h : ∀ v, ¬ Json.Denotes text v) :
    ofOverflow (some text) = .error (.encoding .malformedOverflow) := by
  rw [ofOverflow, Json.parse?_eq_none_iff.mpr h]

/-- All faults of a JSON column are faults of the encoding. -/
theorem ofOverflow_eq_error {error : Error} (h : ofOverflow overflow = .error error) :
    ∃ fault, error = .encoding fault := by
  cases overflow with
  | none => cases h
  | some text =>
    by_cases hvalue : ∃ v, Json.Denotes text v
    · obtain ⟨v, hv⟩ := hvalue
      rw [ofOverflow_of_denotes hv] at h
      exact ofJson_eq_error h
    · rw [ofOverflow_of_forall (not_exists.mp hvalue)] at h
      cases h
      exact ⟨_, rfl⟩

/-- A JSON value is no metadata if it is neither null nor an object, or has a member that cannot be
read. -/
theorem exists_ofJson_eq_error_iff {v : Json} :
    (∃ error, ofJson v = .error error) ↔ (v ≠ .null ∧ ∀ members, v ≠ .object members) ∨
      ∃ members key value, v = .object members ∧ (key, value) ∈ members ∧ value.Unreadable := by
  rw [exists_eq_error_iff, ofJson_ok_iff]
  cases v with
  | object members => simp [Json.IsMetadata, Json.unreadable_iff]
  | null => simp [Json.IsMetadata]
  | bool b => simp [Json.IsMetadata]
  | number n => simp [Json.IsMetadata]
  | string s => simp [Json.IsMetadata]
  | array items => simp [Json.IsMetadata]

/-- A JSON column is refused if its text denotes nothing, or something that is no metadata. Only the
last member of each name counts. -/
theorem exists_ofOverflow_eq_error_iff :
    (∃ error, ofOverflow overflow = .error error) ↔ ∃ text, overflow = some text ∧
      ((∀ v, ¬ Json.Denotes text v) ∨
        (∃ v, Json.Denotes text v ∧ v ≠ .null ∧ ∀ members, v ≠ .object members) ∨
        ∃ members key v, Json.ObjectText text members ∧ Entries.Last members key v ∧
          v.Unreadable) := by
  cases overflow with
  | none => exact iff_of_false nofun nofun
  | some text =>
    by_cases hvalue : ∃ v, Json.Denotes text v
    · obtain ⟨v, hv⟩ := hvalue
      rw [ofOverflow_of_denotes hv, exists_ofJson_eq_error_iff]
      -- Reading the object has sorted its members and kept the last one of each key.
      constructor
      · rintro (⟨hnull, hobject⟩ | ⟨sorted, key, value, rfl, hmem, hbad⟩)
        · exact ⟨text, rfl, .inr (.inl ⟨v, hv, hnull, hobject⟩)⟩
        · obtain ⟨members, htext, rfl⟩ := Json.denotes_object_iff.mp hv
          exact ⟨text, rfl, .inr (.inr ⟨members, key, value, htext, Entries.mem_sort_iff.mp hmem,
            hbad⟩)⟩
      · rintro ⟨_, ⟨⟩, hnone | ⟨v', hv', hnull, hobject⟩ |
          ⟨members, key, value, htext, hlast, hbad⟩⟩
        · exact absurd hv (hnone v)
        · obtain rfl := hv.unique hv'
          exact .inl ⟨hnull, hobject⟩
        · obtain rfl := hv.unique (Json.denotes_object_iff.mpr ⟨members, htext, rfl⟩)
          exact .inr ⟨_, key, value, rfl, Entries.mem_sort_iff.mpr hlast, hbad⟩
    · have hnone := not_exists.mp hvalue
      exact iff_of_true ⟨_, ofOverflow_of_forall hnone⟩ ⟨text, rfl, .inl hnone⟩

/-- The values of a text are those of the last members of its object, if it is one. -/
theorem get?_ofJson_of_denotes {text : String} {v : Json} (hv : Json.Denotes text v) {m : Metadata}
    (h : ofJson v = .ok m) {key : String} {value : MetadataValue} :
    m.get? key = some value ↔ ∃ members w, Json.ObjectText text members ∧
      Entries.Last members key w ∧ w.DecodesTo value := by
  -- Sorting keeps the last member of each key.
  have hlast_iff {members : List (String × Json)} {w : Json} :
      Entries.get? key (Entries.sort members) = some w ↔ Entries.Last members key w := by
    rw [(Entries.Ascending.sort members).get?_eq_some_iff, Entries.mem_sort_iff]
  constructor
  · intro hget
    cases v with
    | object sorted =>
      obtain ⟨members, htext, rfl⟩ := Json.denotes_object_iff.mp hv
      obtain ⟨w, hmember, hdecodes⟩ := (get?_ofJson (.sort members) h).mp hget
      exact ⟨members, w, htext, hlast_iff.mp hmember, hdecodes⟩
    | null =>
      -- Null is read as metadata without entries.
      cases h
      cases hget
    | bool b => cases h
    | number n => cases h
    | string s => cases h
    | array items => cases h
  · rintro ⟨members, w, htext, hlast, hdecodes⟩
    obtain rfl := hv.unique (Json.denotes_object_iff.mpr ⟨members, htext, rfl⟩)
    exact (get?_ofJson (.sort members) h).mpr ⟨w, hlast_iff.mpr hlast, hdecodes⟩

/-- The stored value of a key is what the last member of this name decodes to. -/
theorem get?_ofOverflow {stored : Metadata} (h : ofOverflow overflow = .ok stored) {key : String}
    {value : MetadataValue} : stored.get? key = some value ↔
      ∃ text members v, overflow = some text ∧ Json.ObjectText text members ∧
        Entries.Last members key v ∧ v.DecodesTo value := by
  cases overflow with
  | none =>
    -- Without a text nothing is stored, and no text is asked for.
    cases h
    refine iff_of_false nofun ?_
    rintro ⟨text, members, v, hnone, -⟩
    cases hnone
  | some text =>
    by_cases hvalue : ∃ v, Json.Denotes text v
    · obtain ⟨v, hv⟩ := hvalue
      rw [ofOverflow_of_denotes hv] at h
      rw [get?_ofJson_of_denotes hv h]
      constructor
      · rintro ⟨members, w, hrest⟩
        exact ⟨text, members, w, rfl, hrest⟩
      · rintro ⟨_, members, w, ⟨⟩, hrest⟩
        exact ⟨members, w, hrest⟩
    · rw [ofOverflow_of_forall (not_exists.mp hvalue)] at h
      cases h

/-! ## Both -/

/-- **Columns win over the JSON.** A merge fails exactly if its text is no JSON, is neither null nor
an object, or has under some key a last member that metadata cannot hold; columns have no part in
that. Otherwise a key has the last value that a column has under it or, if there is none, the value
of the last member, and it has no other. -/
theorem merge_gives_precedence (columns : List (String × Option MetadataValue))
    (overflow : Option String) :
    (∀ error, merge columns overflow = .error error → ∃ fault, error = .encoding fault) ∧
    ((∃ error, merge columns overflow = .error error) ↔ ∃ text, overflow = some text ∧
      ((∀ v, ¬ Json.Denotes text v) ∨
        (∃ v, Json.Denotes text v ∧ v ≠ .null ∧ ∀ members, v ≠ .object members) ∨
        ∃ members key v, Json.ObjectText text members ∧ Entries.Last members key v ∧
          v.Unreadable)) ∧
    (∀ columns' error,
      merge columns overflow = .error error ↔ merge columns' overflow = .error error) ∧
    ∀ m, merge columns overflow = .ok m → ∀ key value, m.get? key = some value ↔
      (values columns).Last key value ∨ (∀ v, ¬ (values columns).Last key v) ∧
        ∃ text members v, overflow = some text ∧ Json.ObjectText text members ∧
          Entries.Last members key v ∧ v.DecodesTo value := by
  simp only [merge_eq, map_eq_ok]
  refine ⟨fun error h => ofOverflow_eq_error (map_eq_error.mp h), ?_, ?_, ?_⟩
  · simp only [map_eq_error]
    exact exists_ofOverflow_eq_error_iff
  · intro columns' error
    rw [map_eq_error, map_eq_error]
  · rintro m ⟨stored, hstored, rfl⟩ key value
    -- The columns decide where one of them has a value, and the text does otherwise.
    rw [get?_overlay, ← get?_ofOverflow hstored]
    simp only [Entries.last_iff]
    cases Entries.get? key (values columns).reverse with
    | none => simp
    | some v => simp

/-- A refused member fails the merge, though a column has a value for its key. -/
example :
    (merge [("draft", some (.integer 1))] (some "\x7b\"draft\": true\x7d")).toOption = none := by
  decide +kernel

/-- A page with a value and without one, and a note without one. -/
def drafted : List (String × Option MetadataValue) :=
  [("page", some (.integer 2)), ("page", some (.integer 3)), ("page", none), ("note", none)]

/-- A page, two notes, and a key without a value. -/
def draftedText : String :=
  "\x7b \"page\": 7, \"note\": \"first\", \"note\": \"last\", \"gone\": null\x7d"

/-- The page is that of the last column with a value, and the note that of the last member. -/
theorem merge_gives_precedence_drafted :
    ∃ m, merge drafted (some draftedText) = .ok m ∧
      (values drafted).Last "page" (.integer 3) ∧ (∀ v, ¬ (values drafted).Last "note" v) ∧
      ∃ members v, Json.ObjectText draftedText members ∧ Entries.Last members "note" v ∧
        v.DecodesTo (.string "last") := by
  have hm : merge drafted (some draftedText) =
      .ok (.ofList [("note", .string "last"), ("page", .integer 3)]) :=
    eq_ok_of_toOption (by decide +kernel)
  obtain ⟨-, -, -, hvalues⟩ := merge_gives_precedence drafted (some draftedText)
  have hpage : (values drafted).Last "page" (.integer 3) := Entries.last_iff.mpr rfl
  have hnote : ∀ v, ¬ (values drafted).Last "note" v := by
    intro v hlast
    rw [Entries.last_iff] at hlast
    cases hlast
  refine ⟨_, hm, hpage, hnote, ?_⟩
  -- No column has a note, so that it comes from the text.
  rcases (hvalues _ hm "note" (.string "last")).mp (by decide +kernel) with hlast | ⟨-, hjson⟩
  · exact absurd hlast (hnote _)
  · obtain ⟨_, members, v, ⟨⟩, htext, hlast, hdecodes⟩ := hjson
    exact ⟨members, v, htext, hlast, hdecodes⟩

end Metadata

end VectorTable
