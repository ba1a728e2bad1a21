import VectorTable.Proofs.Dictionary
import VectorTable.Proofs.Except
import VectorTable.Row.Decode

/-!
# VectorTable — metadata put together from a row

A merge has two parts: the metadata that the JSON text stores, and the columns written over it.

* `Metadata.ofOverflow` — the first part;
* `Metadata.overlay` — the second part;
* `Metadata.merge_eq` — a merge is the one after the other;
* `Metadata.get?_overlay_of_mem`, `Metadata.get?_overlay_of_forall` — columns win over the JSON.
-/

namespace VectorTable.Metadata

/-- The metadata in the JSON column of a row. -/
def ofOverflow : Option String → Except Error Metadata
  | none => .ok ∅
  | some text =>
    match Json.parse? text with
    | some v => Metadata.ofJson v
    | none => .error (.encoding .malformedOverflow)

/-- The values of columns written over some metadata. Null columns write nothing. -/
def overlay (columns : List (String × Option MetadataValue)) (stored : Metadata) : Metadata :=
  columns.foldl (fun m (key, value) => value.elim m fun v => m.insert key v) stored

/-- The columns are laid over the metadata of the JSON column. -/
theorem merge_eq (columns : List (String × Option MetadataValue)) (overflow : Option String) :
    merge columns overflow = (ofOverflow overflow).map (overlay columns) := by
  unfold merge
  cases overflow with
  | none => rfl
  | some text =>
    cases hparse : Json.parse? text with
    | none => simp only [ofOverflow, hparse]; rfl
    | some v => simp only [ofOverflow, hparse]; rfl

/-! ## Look-ups -/

variable {columns : List (String × Option MetadataValue)} {key : String}

/-- A column that is null leaves what lies below it. -/
theorem overlay_cons (name : String) (value : Option MetadataValue) (stored : Metadata) :
    overlay ((name, value) :: columns) stored
      = overlay columns (value.elim stored fun v => stored.insert name v) := rfl

/-- A key without a value in the columns is looked up in the JSON. -/
theorem get?_overlay_of_forall (h : ∀ value, (key, some value) ∉ columns) (stored : Metadata) :
    (overlay columns stored).get? key = stored.get? key := by
  induction columns generalizing stored with
  | nil => rfl
  | cons head rest ih =>
    obtain ⟨name, value⟩ := head
    rw [overlay_cons, ih fun v hv => h v (List.mem_cons_of_mem _ hv)]
    cases value with
    | none => rfl
    | some v =>
      have hne : key ≠ name := fun heq => h v (heq ▸ List.mem_cons_self)
      rw [Option.elim_some, Dictionary.get?_insert, if_neg hne]

/-- A value in a column hides the JSON. -/
theorem get?_overlay_of_mem (hnodup : (columns.map (·.1)).Nodup) {value : MetadataValue}
    (h : (key, some value) ∈ columns) (stored : Metadata) :
    (overlay columns stored).get? key = some value := by
  induction columns generalizing stored with
  | nil => cases h
  | cons head rest ih =>
    obtain ⟨hhead, hrest⟩ := List.nodup_cons.mp hnodup
    rcases List.mem_cons.mp h with rfl | hmem
    · rw [overlay_cons, get?_overlay_of_forall, Option.elim_some, Dictionary.get?_insert,
        if_pos rfl]
      exact fun v hv => hhead (List.mem_map.mpr ⟨_, hv, rfl⟩)
    · exact ih hrest hmem _

end VectorTable.Metadata
