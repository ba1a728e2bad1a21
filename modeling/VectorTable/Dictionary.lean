/-!
# VectorTable — dictionaries

Finite maps from texts, kept as a list of entries in strictly increasing order of their keys.
The order is part of the type, so a dictionary is determined by its look-ups and is always
listed in the same order.

* `Entries.insert`, `Entries.erase`, `Entries.get?` — the operations on lists of entries;
* `Dictionary` — such a list with its order.
-/

namespace VectorTable

/-- A list of keys with values. -/
abbrev Entries (α : Type) := List (String × α)

namespace Entries

variable {α : Type}

/-- The keys are in strictly increasing order. -/
def Ascending (entries : Entries α) : Prop := entries.Pairwise fun a b => a.1 < b.1

/-- Puts an entry in its place, instead of an entry with the same key. -/
def insert (key : String) (value : α) : Entries α → Entries α
  | [] => [(key, value)]
  | (k, v) :: rest =>
    if key < k then (key, value) :: (k, v) :: rest
    else if key = k then (key, value) :: rest
    else (k, v) :: insert key value rest

/-- Takes out the entries with a key. -/
def erase (key : String) (entries : Entries α) : Entries α :=
  entries.filter fun e => e.1 ≠ key

/-- The value at a key. -/
def get? (key : String) (entries : Entries α) : Option α := entries.lookup key

/-- All entries of a list put in one after the other, later ones winning. -/
def sort (entries : Entries α) : Entries α :=
  entries.foldl (fun sorted e => insert e.1 e.2 sorted) []

theorem mem_insert {key : String} {value : α} {e : String × α} {entries : Entries α}
    (h : e ∈ insert key value entries) : e = (key, value) ∨ e ∈ entries := by
  induction entries with
  | nil => simpa [insert] using h
  | cons head rest ih =>
    obtain ⟨k, v⟩ := head
    rw [insert] at h
    split at h
    · simpa using h
    · split at h
      · rcases List.mem_cons.mp h with h | h
        · exact .inl h
        · exact .inr (List.mem_cons_of_mem _ h)
      · rcases List.mem_cons.mp h with h | h
        · exact .inr (h ▸ List.mem_cons_self)
        · exact (ih h).imp_right (List.mem_cons_of_mem _)

theorem Ascending.insert {key : String} {value : α} {entries : Entries α}
    (h : Ascending entries) : Ascending (Entries.insert key value entries) := by
  induction entries with
  | nil => exact List.pairwise_singleton _ _
  | cons head rest ih =>
    obtain ⟨k, v⟩ := head
    have hrest := List.pairwise_cons.mp h
    rw [Entries.insert]
    split
    · rename_i hlt
      refine List.pairwise_cons.mpr ⟨fun e he => ?_, h⟩
      rcases List.mem_cons.mp he with rfl | he
      · exact hlt
      · exact String.lt_trans hlt (hrest.1 e he)
    · rename_i hge
      split
      · rename_i heq
        subst heq
        exact List.pairwise_cons.mpr hrest
      · rename_i hne
        refine List.pairwise_cons.mpr ⟨fun e he => ?_, ih hrest.2⟩
        rcases mem_insert he with rfl | he
        · rcases Decidable.em (k < key) with hlt | hnot
          · exact hlt
          · exact absurd (String.le_antisymm (String.not_lt.mp hnot) (String.not_lt.mp hge)) hne
        · exact hrest.1 e he

theorem Ascending.erase {key : String} {entries : Entries α} (h : Ascending entries) :
    Ascending (Entries.erase key entries) :=
  List.Pairwise.filter _ h

theorem Ascending.sort (entries : Entries α) : Ascending (Entries.sort entries) := by
  suffices ∀ (l : Entries α) (acc : Entries α), Ascending acc →
      Ascending (l.foldl (fun sorted e => Entries.insert e.1 e.2 sorted) acc) from
    this entries [] List.Pairwise.nil
  intro l
  induction l with
  | nil => exact fun _ h => h
  | cons _ _ ih => exact fun _ h => ih _ h.insert

end Entries

/-- A finite map from texts. -/
structure Dictionary (α : Type) where
  entries : Entries α
  ascending : entries.Ascending

namespace Dictionary

variable {α : Type}

instance [DecidableEq α] : DecidableEq (Dictionary α) := fun a b =>
  decidable_of_iff (a.entries = b.entries)
    ⟨fun h => by cases a; cases b; simp_all, fun h => h ▸ rfl⟩

def empty : Dictionary α := ⟨[], List.Pairwise.nil⟩

instance : Inhabited (Dictionary α) := ⟨empty⟩

instance : EmptyCollection (Dictionary α) := ⟨empty⟩

def insert (key : String) (value : α) (d : Dictionary α) : Dictionary α :=
  ⟨d.entries.insert key value, d.ascending.insert⟩

def erase (key : String) (d : Dictionary α) : Dictionary α :=
  ⟨d.entries.erase key, d.ascending.erase⟩

def get? (key : String) (d : Dictionary α) : Option α := d.entries.get? key

def contains (key : String) (d : Dictionary α) : Bool := (d.get? key).isSome

def size (d : Dictionary α) : Nat := d.entries.length

def isEmpty (d : Dictionary α) : Bool := d.entries.isEmpty

/-- The dictionary of a list of entries; of equal keys the last one counts. -/
def ofList (entries : Entries α) : Dictionary α :=
  ⟨Entries.sort entries, Entries.Ascending.sort entries⟩

end Dictionary

end VectorTable
