import VectorTable.Proofs.Catalog
import VectorTable.Proofs.Filter.Binding
import VectorTable.Proofs.Json.MemberText
import VectorTable.Proofs.Row.Encode
import VectorTable.Proofs.Sql.PredicateText

/-!
# VectorTable — what is stored can be found

Rows are written in one place and filters translated in another, and each of them converts the
values of metadata on its own. A filter for a value finds the rows that were written with it only
if both come to the same: the same parameter for a column, the same text for the JSON column.

* `Filter.ComparesColumn`, `Filter.ComparesMember` — the two forms of a comparison, and what it
  binds;
* `MetadataValue.StoredAsText` — how a JSON text holds a value;
* `Filter.eq_finds_stored` — a filter for a stored value asks for what is stored.
-/

namespace VectorTable

/-! ## Two forms of a comparison -/

namespace Filter

/-- A predicate says that a column equals a parameter, whose value is the only one that it
binds. -/
structure ComparesColumn (name : String) (param : Param) (b : Bindings) (p : Predicate)
    (b' : Bindings) : Prop where
  values : b'.toList = b.toList ++ [param.value]
  reads : Sql.read p.sql.render = some
    (.compare .eq (.column name) (Operand.bound (b.toList.length + 1) param.cast).expression)

/-- A predicate says that the member of a JSON column under a key equals a text, as numbers or as
texts. It binds the key and then the text. -/
structure ComparesMember (json key : String) (numeric : Bool) (text : String) (b : Bindings)
    (p : Predicate) (b' : Bindings) : Prop where
  values : b'.toList = b.toList ++ [.text (some key), .text (some text)]
  reads : Sql.read p.sql.render = some (if numeric then
      .compare .eq (Operand.memberNumber json (b.toList.length + 1)).expression
        (.cast (.slot (b.toList.length + 2)) "numeric")
    else
      .compare .eq (Operand.memberText json (b.toList.length + 1)).expression
        (.slot (b.toList.length + 2)))

variable {catalog : Catalog} {key : String} {value : MetadataValue}

/-- A key with a column: the comparison binds the parameter of the column. -/
theorem eq_column {c : Column} (h : catalog.metadataColumn? key = some c) (b : Bindings) :
    ∃ p b', ((Filter.compare .eq key value).toPredicate catalog).run b = .ok (p, b') ∧
      ComparesColumn c.name (c.param (some value)) b p b' := by
  have htarget : catalog.resolve key = .ok (.column c) := by rw [Catalog.resolve, h]
  refine ⟨_, _, compare_run htarget (Target.left_column_run c key value b) rfl, ?_⟩
  exact ⟨Bindings.toList_push _ _, Predicate.read_render trivial⟩

/-- A key without a column: the comparison binds the key and the text of the value. -/
theorem eq_member {column : Column} (hkey : catalog.metadataColumn? key = none)
    (hcolumn : catalog.overflow = some column) {param : Param} {text : String}
    (hparam : (Target.member column.name).param value = .ok param)
    (htext : param.value = .text (some text))
    (hcast : param.cast = if value.isNumeric then some "numeric" else none) (b : Bindings) :
    ∃ p b', ((Filter.compare .eq key value).toPredicate catalog).run b = .ok (p, b') ∧
      ComparesMember column.name key value.isNumeric text b p b' := by
  have htarget : catalog.resolve key = .ok (.member column.name) := by
    rw [Catalog.resolve, hkey, hcolumn]
  refine ⟨_, _, compare_run htarget (Target.left_member_run column.name key value b) hparam, ?_⟩
  constructor
  · -- The key is bound before the text.
    rw [Bindings.toList_push, Bindings.toList_push, htext, List.append_assoc]
    rfl
  · -- The number of the second slot counts the key.
    rw [if_neg (by decide), Predicate.read_render (p := .compare .eq _ _) trivial,
      Predicate.expression, Bindings.toList_push, List.length_append, List.length_singleton, hcast]
    cases value.isNumeric <;> rfl

end Filter

/-! ## Values in the JSON column -/

namespace MetadataValue

/-- A JSON text holds a value under a key. A number stands there in just these characters, and
any other value is the text that they denote. -/
structure StoredAsText (value : MetadataValue) (key text json : String) : Prop where
  number : value.isNumeric = true → ∃ members n, Json.parse? json = some (.object members) ∧
    Entries.get? key members = some (.number n) ∧
    (Json.memberTexts? json).bind (·.get? key) = some text
  string : value.isNumeric = false → ∃ members, Json.parse? json = some (.object members) ∧
    Entries.get? key members = some (.string text)

/-- The JSON of a number is a number. -/
theorem exists_number_of_toJson {value : MetadataValue} {v : Json}
    (hnumeric : value.isNumeric = true) (h : value.toJson = .ok v) : ∃ n, v = .number n := by
  have hfinite {x : Double} (hx : finiteNumber x = .ok v) : ∃ n, v = .number n := by
    unfold finiteNumber at hx
    split at hx <;> cases hx
    exact ⟨_, rfl⟩
  cases value with
  | integer i => cases h; exact ⟨_, rfl⟩
  | long i => cases h; exact ⟨_, rfl⟩
  | float x => exact hfinite h
  | double x => exact hfinite h
  | string s => cases hnumeric
  | uuid u => cases hnumeric

/-- The JSON of anything else is its plain text. -/
theorem eq_string_of_toJson {value : MetadataValue} {v : Json} (hnumeric : value.isNumeric = false)
    (h : value.toJson = .ok v) : v = .string value.toText := by
  cases value with
  | string s => cases h; rfl
  | uuid u => cases h; rfl
  | integer i => cases hnumeric
  | long i => cases hnumeric
  | float x => cases hnumeric
  | double x => cases hnumeric

end MetadataValue

namespace Metadata

variable {catalog : Catalog} {m : Metadata} {key : String} {value : MetadataValue}

/-- The JSON object of metadata has a member for each key without a column. -/
theorem get?_overflowJson {members : Entries Json}
    (h : entriesToJson (m.withoutColumn catalog) = .ok (.object members))
    (hget : m.get? key = some value) (hkey : catalog.metadataColumn? key = none) :
    ∃ v, value.toJson = .ok v ∧ Entries.get? key members = some v := by
  obtain ⟨_, heq, hmembers⟩ := entriesToJson_eq_ok.mp h
  cases heq
  have hmem : (key, value) ∈ m.withoutColumn catalog := mem_withoutColumn.mpr ⟨hget, hkey⟩
  have hfinite := (entriesToJson_ok_iff _).mp ⟨_, h⟩ _ hmem
  obtain ⟨v, hv⟩ := (MetadataValue.toJson_ok_iff value).mpr hfinite
  have hasc : (m.withoutColumn catalog).Ascending := m.ascending.filter _
  exact ⟨v, hv, (get?_members hasc hmembers).mpr ⟨value, hasc.get?_of_mem hmem, hv⟩⟩

/-- The value under a key without a column is stored as the text that a filter binds for it. -/
theorem storedAsText_split {column : Column} {split : SplitMetadata}
    (h : Metadata.split catalog (some m) = .ok split) (hcolumn : catalog.overflow = some column)
    (hget : m.get? key = some value) (hkey : catalog.metadataColumn? key = none) :
    ∃ json text param, split.overflow = some (.casted (.text (some json)) column.typeName) ∧
      (Target.member column.name).param value = .ok param ∧ param.value = .text (some text) ∧
      param.cast = (if value.isNumeric then some "numeric" else none) ∧
      value.StoredAsText key text json := by
  rw [split_of_some hcolumn] at h
  obtain ⟨_, hjson, rfl⟩ := map_eq_ok.mp h
  rw [overflowJson_some] at hjson
  obtain ⟨object, hobject, rfl⟩ := map_eq_ok.mp hjson
  obtain ⟨members, rfl, -⟩ := entriesToJson_eq_ok.mp hobject
  obtain ⟨v, hv, hmember⟩ := get?_overflowJson hobject hget hkey
  obtain ⟨hfits, -⟩ := ofJson_entriesToJson (m.ascending.filter _) hobject
  have hparse := Json.parse?_render (.object members) hfits
  unfold Target.param
  cases hnumeric : value.isNumeric with
  | true =>
    -- Both the row and the filter render the same JSON number.
    obtain ⟨n, rfl⟩ := MetadataValue.exists_number_of_toJson hnumeric hv
    refine ⟨_, (Json.number n).render, _, rfl, by rw [hv]; rfl, rfl, rfl,
      ⟨fun _ => ⟨members, n, hparse, hmember, ?_⟩, fun h => by rw [hnumeric] at h; cases h⟩⟩
    rw [Json.memberTexts?_render hfits.1, hmember, Option.map_some]
  | false =>
    obtain rfl := MetadataValue.eq_string_of_toJson hnumeric hv
    exact ⟨_, value.toText, _, rfl, rfl, rfl, rfl,
      ⟨fun h => (by rw [hnumeric] at h; cases h), fun _ => ⟨members, hparse, hmember⟩⟩⟩

end Metadata

/-! ## Rows and filters -/

/-- **What is stored can be found.** Let metadata be written to a row, and take any of its entries
that the table has a place for. The filter for this entry can be translated. Where the key has a
column, it compares the column with the very parameter that the row binds there. Where it has
none, it compares the member of the JSON column under the key with a text: for a number the
characters that stand in the JSON text of the row, and for any other value the text that is
stored there. -/
theorem Filter.eq_finds_stored {config : StoreConfig} {columns : List Column} {catalog : Catalog}
    (hvalid : config.validate = .ok ()) (hdistinct : (columns.map (·.name)).Nodup)
    (hverify : Catalog.verify config columns = .ok catalog) {m : Metadata} {split : SplitMetadata}
    (hsplit : Metadata.split catalog (some m) = .ok split) {key : String} {value : MetadataValue}
    (hentry : m.get? key = some value)
    (hplace : (∃ c ∈ catalog.metadata, c.name = key) ∨ catalog.overflow.isSome) (b : Bindings) :
    ∃ p b', ((Filter.compare .eq key value).toPredicate catalog).run b = .ok (p, b') ∧
      (∀ (i : Nat) (c : Column), catalog.metadata[i]? = some c → c.name = key →
        ∃ param, split.columns[i]? = some param ∧ ComparesColumn key param b p b') ∧
      ((∀ c ∈ catalog.metadata, c.name ≠ key) →
        ∃ column json text, catalog.overflow = some column ∧
          split.overflow = some (.casted (.text (some json)) column.typeName) ∧
          value.StoredAsText key text json ∧
          ComparesMember column.name key value.isNumeric text b p b') := by
  cases hkey : catalog.metadataColumn? key with
  | some c =>
    obtain ⟨hmem, rfl⟩ := Catalog.metadataColumn?_eq_some hkey
    obtain ⟨p, b', hrun, hcompares⟩ := eq_column hkey b
    refine ⟨p, b', hrun, fun i c' hc' hname => ?_, fun hnone => absurd rfl (hnone c hmem)⟩
    -- There is only one column with this name, and the row binds its parameter at its place.
    have hsame := Catalog.metadataColumn?_name hvalid hdistinct hverify (List.mem_of_getElem? hc')
    rw [hname, hkey] at hsame
    obtain rfl := Option.some.inj hsame
    refine ⟨c.param (some value), ?_, hcompares⟩
    rw [Metadata.split_columns hsplit, Metadata.columnParams, List.getElem?_map, hc',
      Option.map_some, Option.bind_some, hentry]
  | none =>
    have hnone := List.find?_eq_none.mp hkey
    have hne : ∀ c ∈ catalog.metadata, c.name ≠ key := fun c hc hname =>
      hnone c hc (decide_eq_true hname)
    have habsent : ¬ ∃ c ∈ catalog.metadata, c.name = key := by
      rintro ⟨c, hc, hname⟩
      exact hne c hc hname
    obtain ⟨column, hcolumn⟩ := Option.isSome_iff_exists.mp (hplace.resolve_left habsent)
    obtain ⟨json, text, param, hoverflow, hparam, htext, hcast, hstored⟩ :=
      Metadata.storedAsText_split hsplit hcolumn hentry hkey
    obtain ⟨p, b', hrun, hcompares⟩ := eq_member hkey hcolumn hparam htext hcast b
    exact ⟨p, b', hrun, fun i c hc hname => absurd hname (hne c (List.mem_of_getElem? hc)),
      fun _ => ⟨column, json, text, hcolumn, hoverflow, hstored, hcompares⟩⟩

/-- A note with a page, which has a column, and a score of a tenth in 32 bits, which has none. In
JSON the score has the digits of the 64-bit float with the same value. -/
theorem Filter.eq_finds_stored_score :
    let score : MetadataValue := .float (.signed false ⟨0x3dcccccd, by decide⟩)
    let json := "\x7b\"score\":0.10000000149011612\x7d"
    ∃ p b', ((Filter.compare .eq "score" score).toPredicate .notes).run .empty = .ok (p, b') ∧
      score.StoredAsText "score" "0.10000000149011612" json ∧
      ComparesMember "metadata_json" "score" true "0.10000000149011612" .empty p b' := by
  intro score json
  have hsplit : Metadata.split .notes (some (.ofList [("page", .integer 3), ("score", score)]))
      = .ok ⟨[.plain (.integer (some 3))], some (.casted (.text (some json)) "json")⟩ :=
    eq_ok_of_toOption (by decide +kernel)
  obtain ⟨p, b', hrun, -, hmember⟩ := eq_finds_stored StoreConfig.validate_notes
    (show (Catalog.notes.columns.map (·.name)).Nodup by decide) rfl hsplit
    (show Dictionary.get? "score" _ = some score by decide +kernel) (.inr rfl) .empty
  obtain ⟨column, json', text, hcolumn, hoverflow, hstored, hcompares⟩ := hmember (by decide)
  cases hcolumn
  cases hoverflow
  -- The text is the one that stands in the row.
  obtain ⟨-, -, -, -, htext⟩ := hstored.number rfl
  have hscore : (Json.memberTexts? json).bind (·.get? "score") = some "0.10000000149011612" := by
    decide +kernel
  obtain rfl := Option.some.inj (htext.symm.trans hscore)
  exact ⟨p, b', hrun, hstored, hcompares⟩

end VectorTable
