import Mathlib.Data.List.Forall2
import Mathlib.Data.List.Nodup
import VectorTable.Dictionary

/-!
# VectorTable — look-ups in dictionaries

A dictionary has the entries that its look-ups find, each key once.

* `Dictionary.mem_entries` — entries are what look-ups find;
* `Dictionary.get?_insert` — what an insertion changes;
* `Dictionary.ofList_perm` — different keys may be put in in any order;
* `Entries.forall₂_sort` — sorting depends on the keys alone.
-/

namespace VectorTable

variable {α : Type}

namespace Entries

/-- The first entry of a key is the one that is found. -/
theorem get?_cons (key k : String) (v : α) (rest : Entries α) :
    get? key ((k, v) :: rest) = if key = k then some v else get? key rest := by
  rw [get?, List.lookup_cons]
  by_cases h : key = k
  · rw [h, beq_self_eq_true, if_pos rfl]
  · rw [beq_false_of_ne h, if_neg h]
    rfl

/-- Whatever is found under a key is an entry. -/
theorem mem_of_get? {key : String} {value : α} {entries : Entries α}
    (h : get? key entries = some value) : (key, value) ∈ entries := by
  induction entries with
  | nil => cases h
  | cons head rest ih =>
    obtain ⟨k, v⟩ := head
    rw [get?_cons] at h
    split at h
    · rename_i hkey
      subst hkey
      obtain rfl := Option.some.inj h
      exact List.mem_cons_self
    · exact List.mem_cons_of_mem _ (ih h)

/-- In an ascending list an entry is found under its key, which does not repeat. -/
theorem Ascending.get?_of_mem {key : String} {value : α} {entries : Entries α}
    (hasc : entries.Ascending) (h : (key, value) ∈ entries) : get? key entries = some value := by
  induction entries with
  | nil => cases h
  | cons head rest ih =>
    obtain ⟨k, v⟩ := head
    obtain ⟨hhead, hrest⟩ := List.pairwise_cons.mp hasc
    rw [get?_cons]
    rcases List.mem_cons.mp h with heq | hmem
    · obtain ⟨rfl, rfl⟩ := Prod.mk.inj heq
      exact if_pos rfl
    · -- An entry behind the first one has a greater key.
      have hne : key ≠ k := fun heq => String.lt_irrefl k (heq ▸ hhead (key, value) hmem)
      rw [if_neg hne]
      exact ih hrest hmem

/-- A look-up in an ascending list is membership. -/
theorem Ascending.get?_eq_some_iff {key : String} {value : α} {entries : Entries α}
    (hasc : entries.Ascending) : get? key entries = some value ↔ (key, value) ∈ entries :=
  ⟨mem_of_get?, hasc.get?_of_mem⟩

/-- An entry that was put in is found, and the others are found as before. -/
theorem get?_insert (key other : String) (value : α) (entries : Entries α) :
    get? other (entries.insert key value)
      = if other = key then some value else get? other entries := by
  induction entries with
  | nil => exact get?_cons other key value []
  | cons head rest ih =>
    obtain ⟨k, v⟩ := head
    rw [insert, get?_cons]
    -- The cases of the insertion: before the first entry, in its place, behind it.
    split
    · rw [get?_cons, get?_cons]
    · split
      · rename_i heq
        subst heq
        rw [get?_cons]
        split <;> rfl
      · rename_i hne
        rw [get?_cons, ih]
        by_cases hk : other = k
        · rw [if_pos hk, if_neg (hk ▸ Ne.symm hne), if_pos hk]
        · rw [if_neg hk, if_neg hk]

/-- Values may be mapped before or after a look-up. -/
theorem get?_map {β : Type} (f : α → β) (key : String) (entries : Entries α) :
    get? key (entries.map fun e => (e.1, f e.2)) = (get? key entries).map f := by
  induction entries with
  | nil => rfl
  | cons head rest ih =>
    obtain ⟨k, v⟩ := head
    rw [List.map_cons, get?_cons, get?_cons, ih]
    split <;> rfl

/-- Keys stay in order when values are mapped. -/
theorem Ascending.map {β : Type} (f : α → β) {entries : Entries α} (h : entries.Ascending) :
    Ascending (entries.map fun e => (e.1, f e.2)) :=
  List.pairwise_map.mpr h

/-- The order depends on the keys alone. -/
theorem Ascending.of_keys {β : Type} {l : Entries α} {l' : Entries β} (h : l.Ascending)
    (hkeys : l'.map (·.1) = l.map (·.1)) : l'.Ascending := by
  have hpairs := List.pairwise_map.mpr h
  rw [← hkeys] at hpairs
  exact List.pairwise_map.mp hpairs

/-- An entry above all others goes to the end. -/
theorem insert_of_lt {key : String} {value : α} {entries : Entries α}
    (h : ∀ e ∈ entries, e.1 < key) : entries.insert key value = entries ++ [(key, value)] := by
  induction entries with
  | nil => rfl
  | cons head rest ih =>
    obtain ⟨k, v⟩ := head
    have hlt : k < key := h (k, v) List.mem_cons_self
    have hgt : ¬ key < k := fun hgt => String.lt_irrefl k (String.lt_trans hlt hgt)
    have hne : key ≠ k := fun heq => String.lt_irrefl k (heq ▸ hlt)
    rw [insert, if_neg hgt, if_neg hne,
      ih fun e he => h e (List.mem_cons_of_mem _ he), List.cons_append]

/-- Sorting leaves alone what is in order. -/
theorem Ascending.sort_eq {entries : Entries α} (h : entries.Ascending) :
    Entries.sort entries = entries := by
  -- What has been put in so far is in order before everything that is still to come.
  suffices ∀ (l acc : Entries α), (acc ++ l).Ascending →
      l.foldl (fun sorted e => Entries.insert e.1 e.2 sorted) acc = acc ++ l from this entries [] h
  intro l
  induction l with
  | nil => exact fun acc _ => (List.append_nil acc).symm
  | cons e l ih =>
    intro acc hacc
    have hlast : ∀ a ∈ acc, a.1 < e.1 := fun a ha =>
      (List.pairwise_append.mp hacc).2.2 a ha e List.mem_cons_self
    rw [List.foldl_cons, insert_of_lt hlast, ih _ (by rwa [List.append_assoc]),
      List.append_assoc]
    rfl

/-! ## The order of insertion -/

/-- A second list is only asked for the keys that the first one does not have. -/
theorem get?_append (key : String) (l l' : Entries α) :
    get? key (l ++ l') = (get? key l).or (get? key l') := by
  induction l with
  | nil => rfl
  | cons head rest ih =>
    obtain ⟨k, v⟩ := head
    rw [List.cons_append, get?_cons, get?_cons, ih]
    split <;> rfl

/-- Of several entries with one key the last one counts. -/
theorem get?_sort (key : String) (l : Entries α) : get? key (sort l) = get? key l.reverse := by
  -- What has been put in so far is hidden by what is still to come.
  suffices ∀ acc : Entries α, get? key (l.foldl (fun sorted e => insert e.1 e.2 sorted) acc) =
      (get? key l.reverse).or (get? key acc) by
    have hsort := this []
    rwa [show get? key [] = none from rfl, Option.or_none] at hsort
  induction l with
  | nil => exact fun acc => rfl
  | cons e l ih =>
    intro acc
    obtain ⟨k, v⟩ := e
    rw [List.foldl_cons, ih, List.reverse_cons, get?_append, get?_insert, get?_cons,
      Option.or_assoc]
    split <;> rfl

/-- The last entry of a key. -/
def Last (l : Entries α) (key : String) (value : α) : Prop :=
  ∃ before after, l = before ++ (key, value) :: after ∧ ∀ v, (key, v) ∉ after

/-- Nothing is found under a key that no entry has. -/
theorem get?_eq_none_iff {key : String} {l : Entries α} :
    get? key l = none ↔ ∀ v, (key, v) ∉ l := by
  induction l with
  | nil => exact iff_of_true rfl fun v => List.not_mem_nil
  | cons head rest ih =>
    obtain ⟨k, w⟩ := head
    rw [get?_cons]
    split
    · rename_i hkey
      subst hkey
      exact iff_of_false nofun fun h => h w List.mem_cons_self
    · rename_i hne
      simp [ih, hne]

/-- Looking up finds the first entry of a key. -/
theorem get?_eq_some_iff_append {key : String} {value : α} {l : Entries α} :
    get? key l = some value ↔
      ∃ before after, l = before ++ (key, value) :: after ∧ ∀ v, (key, v) ∉ before := by
  constructor
  · intro h
    induction l with
    | nil => cases h
    | cons head rest ih =>
      obtain ⟨k, w⟩ := head
      rw [get?_cons] at h
      split at h
      · rename_i hkey
        subst hkey
        obtain rfl := Option.some.inj h
        exact ⟨[], rest, rfl, fun v => List.not_mem_nil⟩
      · rename_i hne
        obtain ⟨before, after, rfl, hbefore⟩ := ih h
        refine ⟨(k, w) :: before, after, rfl, fun v hv => ?_⟩
        rcases List.mem_cons.mp hv with heq | hmem
        · -- The first entry has another key, and those behind it are passed by induction.
          exact hne (Prod.mk.inj heq).1
        · exact hbefore v hmem
  · rintro ⟨before, after, rfl, hbefore⟩
    rw [get?_append, get?_eq_none_iff.mpr hbefore, Option.none_or, get?_cons, if_pos rfl]

/-- The last entry of a key is the first one from behind. -/
theorem last_iff {key : String} {value : α} {l : Entries α} :
    l.Last key value ↔ get? key l.reverse = some value := by
  rw [get?_eq_some_iff_append]
  constructor
  · rintro ⟨before, after, rfl, hafter⟩
    refine ⟨after.reverse, before.reverse, by simp, fun v hv => ?_⟩
    exact hafter v (List.mem_reverse.mp hv)
  · rintro ⟨after, before, hl, hafter⟩
    refine ⟨before.reverse, after.reverse, ?_, fun v hv => ?_⟩
    · rw [← List.reverse_reverse l, hl]
      simp
    · exact hafter v (List.mem_reverse.mp hv)

/-- An ascending list has each key once. -/
theorem Ascending.nodup_keys {l : Entries α} (h : l.Ascending) : (l.map (·.1)).Nodup := by
  unfold Ascending at h
  refine List.pairwise_map.mpr (h.imp fun {a b} hlt heq => ?_)
  exact String.lt_irrefl b.1 (heq ▸ hlt)

/-- Of the entries of a key the last one is kept. -/
theorem mem_sort_iff {key : String} {value : α} {l : Entries α} :
    (key, value) ∈ sort l ↔ l.Last key value := by
  rw [← (Ascending.sort l).get?_eq_some_iff, get?_sort, last_iff]

/-- Entries in order are determined by what is found among them. -/
theorem Ascending.ext {l l' : Entries α} (h : l.Ascending) (h' : l'.Ascending)
    (hget : ∀ key, get? key l = get? key l') : l = l' := by
  have hmem : ∀ e : String × α, e ∈ l ↔ e ∈ l' := by
    rintro ⟨key, value⟩
    rw [← h.get?_eq_some_iff, ← h'.get?_eq_some_iff, hget]
  have hperm : l.Perm l' :=
    (List.perm_ext_iff_of_nodup (List.Nodup.of_map _ h.nodup_keys)
      (List.Nodup.of_map _ h'.nodup_keys)).mpr hmem
  refine hperm.eq_of_pairwise (fun a b _ _ hlt hgt => ?_) h h'
  exact absurd (String.lt_trans hlt hgt) (String.lt_irrefl a.1)

/-- Where keys do not repeat, every entry is found. -/
theorem get?_eq_some_iff_of_nodup {key : String} {value : α} {l : Entries α}
    (hkeys : (l.map (·.1)).Nodup) : get? key l = some value ↔ (key, value) ∈ l := by
  refine ⟨mem_of_get?, fun h => ?_⟩
  induction l with
  | nil => cases h
  | cons head rest ih =>
    obtain ⟨k, v⟩ := head
    obtain ⟨hhead, hrest⟩ := List.nodup_cons.mp hkeys
    rw [get?_cons]
    rcases List.mem_cons.mp h with heq | hmem
    · obtain ⟨rfl, rfl⟩ := Prod.mk.inj heq
      exact if_pos rfl
    · -- A key that stands behind the first entry is not that of the first entry.
      have hne : key ≠ k := by
        rintro rfl
        exact hhead (List.mem_map.mpr ⟨_, hmem, rfl⟩)
      rw [if_neg hne]
      exact ih hrest hmem

/-- Where keys do not repeat, a look-up does not depend on the order of the entries. -/
theorem get?_perm {l l' : Entries α} (hperm : l.Perm l') (hkeys : (l.map (·.1)).Nodup)
    (key : String) : get? key l = get? key l' := by
  refine Option.ext fun value => ?_
  rw [get?_eq_some_iff_of_nodup hkeys,
    get?_eq_some_iff_of_nodup ((hperm.map _).nodup_iff.mp hkeys), hperm.mem_iff]

/-- Entries with different keys may be put in in any order. -/
theorem sort_perm {l l' : Entries α} (hperm : l.Perm l') (hkeys : (l.map (·.1)).Nodup) :
    sort l = sort l' := by
  refine (Ascending.sort l).ext (.sort l') fun key => ?_
  have hreverse : (l.reverse.map (·.1)).Nodup := by
    rwa [List.map_reverse, (List.reverse_perm _).nodup_iff]
  rw [get?_sort, get?_sort]
  exact get?_perm ((l.reverse_perm.trans hperm).trans l'.reverse_perm.symm) hreverse key

/-- Where keys do not repeat, sorting loses no entry. -/
theorem perm_sort {l : Entries α} (hkeys : (l.map (·.1)).Nodup) : (sort l).Perm l := by
  have hreverse : (l.reverse.map (·.1)).Nodup := by
    rwa [List.map_reverse, (List.reverse_perm _).nodup_iff]
  refine (List.perm_ext_iff_of_nodup (List.Nodup.of_map _ (Ascending.sort l).nodup_keys)
    (List.Nodup.of_map _ hkeys)).mpr ?_
  rintro ⟨key, value⟩
  rw [← (Ascending.sort l).get?_eq_some_iff, get?_sort, get?_eq_some_iff_of_nodup hreverse,
    List.mem_reverse]

/-! ## Entries of the same keys -/

section

variable {β : Type} {r : α → β → Prop}

/-- Two lists with related values under the same keys stay so when related values are inserted. -/
theorem forall₂_insert {l : Entries α} {l' : Entries β}
    (h : List.Forall₂ (fun e e' => e'.1 = e.1 ∧ r e.2 e'.2) l l') (key : String) {a : α} {b : β}
    (hab : r a b) :
    List.Forall₂ (fun e e' => e'.1 = e.1 ∧ r e.2 e'.2) (l.insert key a) (l'.insert key b) := by
  induction h with
  | nil => exact .cons ⟨rfl, hab⟩ .nil
  | @cons e e' rest rest' he hrest ih =>
    obtain ⟨k, v⟩ := e
    obtain ⟨k', v'⟩ := e'
    obtain ⟨rfl, hv⟩ := he
    -- Both go to the same place, as it depends on the keys alone.
    rw [insert, insert]
    split
    · exact .cons ⟨rfl, hab⟩ (.cons ⟨rfl, hv⟩ hrest)
    · split
      · exact .cons ⟨rfl, hab⟩ hrest
      · exact .cons ⟨rfl, hv⟩ ih

/-- Sorting keeps related entries together. -/
theorem forall₂_sort {l : Entries α} {l' : Entries β}
    (h : List.Forall₂ (fun e e' => e'.1 = e.1 ∧ r e.2 e'.2) l l') :
    List.Forall₂ (fun e e' => e'.1 = e.1 ∧ r e.2 e'.2) (sort l) (sort l') := by
  suffices ∀ (acc : Entries α) (acc' : Entries β),
      List.Forall₂ (fun e e' => e'.1 = e.1 ∧ r e.2 e'.2) acc acc' →
      List.Forall₂ (fun e e' => e'.1 = e.1 ∧ r e.2 e'.2)
        (l.foldl (fun sorted e => insert e.1 e.2 sorted) acc)
        (l'.foldl (fun sorted e => insert e.1 e.2 sorted) acc') from this [] [] .nil
  -- Both lists are inserted step by step, so that what is inserted already stays related.
  induction h with
  | nil => exact fun acc acc' hacc => hacc
  | @cons e e' _ _ he _ ih =>
    intro acc acc' hacc
    obtain ⟨hkey, hvalue⟩ := he
    rw [List.foldl_cons, List.foldl_cons, hkey]
    exact ih _ _ (forall₂_insert hacc e.1 hvalue)

end

end Entries

namespace Dictionary

/-- Every entry is found under its key, and nothing else is. -/
theorem mem_entries (d : Dictionary α) (key : String) (value : α) :
    (key, value) ∈ d.entries ↔ d.get? key = some value :=
  d.ascending.get?_eq_some_iff.symm

/-- An insertion is found under its own key, and changes nothing under another. -/
theorem get?_insert (d : Dictionary α) (key other : String) (value : α) :
    (d.insert key value).get? other = if other = key then some value else d.get? other :=
  Entries.get?_insert key other value d.entries

/-- A dictionary finds what the list that it is made of holds. -/
theorem get?_ofList {entries : Entries α} (h : entries.Ascending) (key : String) :
    (ofList entries).get? key = entries.get? key := by
  have hentries : (ofList entries).entries = entries := h.sort_eq
  rw [get?, hentries]

/-- Dictionaries are equal if their look-ups are. -/
theorem ext_get? {d d' : Dictionary α} (h : ∀ key, d.get? key = d'.get? key) : d = d' := by
  obtain ⟨entries, hasc⟩ := d
  obtain ⟨entries', hasc'⟩ := d'
  obtain rfl := hasc.ext hasc' h
  rfl

/-- Entries with different keys make one dictionary, in whatever order they are put in. -/
theorem ofList_perm {l l' : Entries α} (hperm : l.Perm l') (hkeys : (l.map (·.1)).Nodup) :
    ofList l = ofList l' := by
  unfold ofList
  congr 1
  exact Entries.sort_perm hperm hkeys

/-- A dictionary is empty if nothing is found under any key. -/
theorem isEmpty_iff (d : Dictionary α) : d.isEmpty = true ↔ ∀ key, d.get? key = none := by
  obtain ⟨entries, hasc⟩ := d
  rw [isEmpty, List.isEmpty_iff]
  constructor
  · rintro rfl key
    rfl
  · intro h
    cases entries with
    | nil => rfl
    | cons head rest =>
      have := hasc.get?_of_mem (List.mem_cons_self (a := head) (l := rest))
      rw [show Entries.get? head.1 (head :: rest) = none from h head.1] at this
      cases this

end Dictionary

end VectorTable
