import Mathlib.Data.List.Forall2
import Mathlib.Data.List.Perm.Basic
import VectorTable.Json.Decode
import VectorTable.Proofs.Except
import VectorTable.Proofs.Json.Accepted

/-!
# VectorTable — records that have been edited

The JSON object of a record may be edited before it is read: members are deleted, members of other
names are added, and the members change places. What is read is then known for each member of the
record by itself.

* `Json.Edited`, `Json.Extended` — what may have become of an object;
* `Json.Edited.exists_record` — the record that is read from it;
* `Json.Extended.exists_tagged` — the same where one of the members tells the variant.
-/

namespace VectorTable.Json

/-- Reads a value of type `α` from a text. -/
def Decoder.read? {α : Type} (decoder : Decoder α) (text : String) : Option α :=
  (Tree.parse? text).bind decoder

/-- A step that gives a value is followed by the next one. -/
theorem some_bind {α β : Type} {o : Option α} {f : α → Option β} {a : α} {b : β}
    (ho : o = some a) (hf : f a = some b) : (o >>= f) = some b := by
  rw [ho]
  exact hf

/-- A record is read from a text if its tree is. -/
theorem Decoder.read?_of_parse? {α : Type} {decoder : Decoder α} {text : String} {t : Tree}
    {x : α} (ht : Tree.parse? text = some t) (hx : decoder t = some x) :
    decoder.read? text = some x :=
  some_bind ht hx

/-! ## Edits -/

/-- What has become of the value of a member, given the member's name. -/
abbrev Change := String → Json → Tree → Prop

/-- Values are left as they are. -/
def unchanged : Change := fun _ v t => t = v.tree

/-- Only the value of one member has changed, as `edit` tells. -/
def changedAt (name : String) (edit : Json → Tree → Prop) : Change := fun other v t =>
  if other = name then edit v t else t = v.tree

/-- An object with the given members, but for those named in `deleted`, and with any members of
other names, in any order. The values of the given members may have changed. -/
def EditedMembers (deleted : List String) (change : Change) (members : Entries Json) (t : Tree) :
    Prop :=
  ∃ kept added all : Entries Tree,
    List.Forall₂ (fun m k => k.1 = m.1 ∧ change m.1 m.2 k.2)
      (members.filter fun m => m.1 ∉ deleted) kept ∧
    (∀ m ∈ added, m.1 ∉ members.map (·.1)) ∧
    all.Perm (kept ++ added) ∧
    t = .object (all.map fun m => (some m.1, m.2))

/-- What an object may have become by deleting members, changing their values, and adding members
of names that it does not have. -/
def Edited (deleted : List String) (change : Change) (v : Json) (t : Tree) : Prop :=
  ∃ members, v = .object members ∧ EditedMembers deleted change members t

/-- What a tagged value may have become by adding members. All of it is given meaning before its
tag is found, so what has been added must have one, where `room` more arrays and objects may be
opened. -/
def Extended (room : Nat) (v : Json) (t : Tree) : Prop :=
  Edited [] unchanged v t ∧ ∃ value, t.toJson? room = some value

/-- What an array of objects may have become by editing each of them, where the members that are
deleted depend on the position. -/
def EditedItems (deletedAt : Nat → List String) (v : Json) (t : Tree) : Prop :=
  ∃ items trees, v = .array items ∧ t = .array trees ∧
    List.Forall₂ (fun item t => Edited (deletedAt item.2) unchanged item.1 t) items.zipIdx trees

section

variable {deleted : List String} {change : Change} {members : Entries Json} {t : Tree}

/-- The order in which the members of an object are listed does not matter to an edit. -/
theorem EditedMembers.perm {members' : Entries Json} (hperm : members.Perm members')
    (h : EditedMembers deleted change members' t) : EditedMembers deleted change members t := by
  obtain ⟨kept, added, all, hkept, hadded, hall, rfl⟩ := h
  -- The kept members change places like the ones they come from.
  obtain ⟨kept', hkept', hperm'⟩ := List.perm_comp_forall₂ (hperm.filter _) hkept
  refine ⟨kept', added, all, hkept', fun m hm hmem => ?_, ?_, rfl⟩
  · exact hadded m hm ((hperm.map _).mem_iff.mp hmem)
  · exact hall.trans (hperm'.symm.append_right added)

/-- The members of an object need not be put in order before it is edited. -/
theorem edited_ofMembers_iff (hkeys : (members.map (·.1)).Nodup) :
    Edited deleted change (.ofMembers members) t ↔ EditedMembers deleted change members t := by
  have hperm := Entries.perm_sort hkeys
  constructor
  · rintro ⟨sorted, hsorted, hedited⟩
    cases hsorted
    exact hedited.perm hperm.symm
  · exact fun h => ⟨_, rfl, h.perm hperm⟩

/-- The tree of a member is that of its value, under its key. -/
theorem memberTrees_eq_map (members : Entries Json) :
    memberTrees members = members.map fun m => (some m.1, m.2.tree) := by
  induction members with
  | nil => rfl
  | cons m members ih => rw [memberTrees, ih, List.map_cons]

/-- Members are deleted and added. -/
theorem editedMembers_tree {added : Entries Json} (hsame : ∀ m ∈ members, change m.1 m.2 m.2.tree)
    (hadded : ∀ m ∈ added, m.1 ∉ members.map (·.1)) :
    EditedMembers deleted change members
      (Json.object ((members.filter fun m => m.1 ∉ deleted) ++ added)).tree := by
  let trees (l : Entries Json) : Entries Tree := l.map fun m => (m.1, m.2.tree)
  refine ⟨trees (members.filter fun m => m.1 ∉ deleted), trees added, _, ?_, ?_, .rfl, ?_⟩
  · refine List.forall₂_map_right_iff.mpr (List.forall₂_same.mpr fun m hm => ⟨rfl, ?_⟩)
    exact hsame m (List.mem_filter.mp hm).1
  · exact List.forall_mem_map.mpr hadded
  · rw [tree, memberTrees_eq_map, ← List.map_append, List.map_map]
    rfl

/-- Leaving everything as it is is an edit. -/
theorem edited_tree (hkeys : (members.map (·.1)).Nodup)
    (hsame : ∀ m ∈ members, change m.1 m.2 m.2.tree) :
    Edited [] change (.ofMembers members) (Json.ofMembers members).tree := by
  refine ⟨_, rfl, ?_⟩
  have hsorted : ∀ m ∈ Entries.sort members, change m.1 m.2 m.2.tree := fun m hm =>
    hsame m ((Entries.perm_sort hkeys).mem_iff.mp hm)
  have h : EditedMembers [] change (Entries.sort members)
      (Json.object ((Entries.sort members).filter (fun m => m.1 ∉ []) ++ [])).tree :=
    editedMembers_tree hsorted nofun
  rwa [List.append_nil, List.filter_eq_self.mpr fun m _ => by simp] at h

/-- Members fit if the value of each of them does. -/
theorem membersFit_iff {members : List (String × Json)} {room : Nat} :
    MembersFit members room ↔ ∀ m ∈ members, m.2.Fits room := by
  induction members with
  | nil => exact iff_of_true trivial nofun
  | cons m members ih => rw [MembersFit, ih, List.forall_mem_cons]

theorem fits_string (s : String) (room : Nat) : (Json.string s).Fits room := by
  cases room <;> trivial

theorem fits_number (n : Number) (room : Nat) : (Json.number n).Fits room := by
  cases room <;> trivial

/-- An object of members that fit takes one more level of nesting. -/
theorem fits_ofMembers (hkeys : (members.map (·.1)).Nodup) {room : Nat}
    (hfit : ∀ m ∈ members, m.2.Fits room) : (Json.ofMembers members).Fits (room + 1) := by
  refine ⟨.sort members, membersFit_iff.mpr fun m hm => ?_⟩
  exact hfit m ((Entries.perm_sort hkeys).mem_iff.mp hm)

/-- A tagged value is its own extension. -/
theorem extended_tree (hkeys : (members.map (·.1)).Nodup) {room : Nat}
    (hfit : ∀ m ∈ members, m.2.Fits room) :
    Extended (room + 1) (.ofMembers members) (Json.ofMembers members).tree :=
  ⟨edited_tree hkeys fun _ _ => rfl, _, toJson?_tree _ _ (fits_ofMembers hkeys hfit)⟩

end

/-! ## Records -/

/-- A record has the members that are not deleted. -/
def Record.Keeps (record : Record) (deleted : List String) (change : Change)
    (members : Entries Json) : Prop :=
  ∀ name v, (name, v) ∈ members →
    if name ∈ deleted then record.lookup name = none
    else ∃ t, record.lookup name = some t ∧ change name v t

/-- Of an object a record keeps the members with names of its own. -/
theorem ofTree?_object {names : List String} {all : Entries Tree}
    (hkeys : ((all.filter fun m => m.1 ∈ names).map (·.1)).Nodup) :
    Record.ofTree? names (.object (all.map fun m => (some m.1, m.2))) =
      some (all.filter fun m => m.1 ∈ names) := by
  have htexts : all.mapM (pure : _ → Option _) = some all :=
    List.mapM_pure.trans (congrArg some (List.map_id all))
  rw [Record.ofTree?, List.mapM_map]
  exact some_bind htexts (if_pos hkeys)

section

variable {deleted : List String} {change : Change} {members : Entries Json} {t : Tree}

/-- The members that an edit keeps have the names that they had. -/
theorem keys_kept {kept : Entries Tree}
    (h : List.Forall₂ (fun m k => k.1 = m.1 ∧ change m.1 m.2 k.2) members kept) :
    kept.map (·.1) = members.map (·.1) := by
  induction h with
  | nil => rfl
  | cons hm _ ih => rw [List.map_cons, List.map_cons, hm.1, ih]

/-- A member that is not deleted is kept, with a value that may be changed. -/
theorem exists_kept {kept : Entries Tree}
    (h : List.Forall₂ (fun m k => k.1 = m.1 ∧ change m.1 m.2 k.2) members kept) {name : String}
    {v : Json} (hmem : (name, v) ∈ members) : ∃ t, (name, t) ∈ kept ∧ change name v t := by
  obtain ⟨i, hi⟩ := List.mem_iff_getElem?.mp hmem
  obtain ⟨⟨k, t⟩, hk, rfl, hchange⟩ := exists_getElem?_of_forall₂ h hi
  exact ⟨t, List.mem_of_getElem? hk, hchange⟩

/-- What is kept is a member that was not deleted. -/
theorem name_of_kept {kept : Entries Tree}
    (h : List.Forall₂ (fun m k => k.1 = m.1 ∧ change m.1 m.2 k.2)
      (members.filter fun m => m.1 ∉ deleted) kept) {k : String × Tree} (hk : k ∈ kept) :
    k.1 ∈ members.map (·.1) ∧ k.1 ∉ deleted := by
  have hname : k.1 ∈ kept.map (·.1) := List.mem_map_of_mem hk
  rw [keys_kept h] at hname
  obtain ⟨m, hm, hname⟩ := List.mem_map.mp hname
  obtain ⟨hmember, hleft⟩ := List.mem_filter.mp hm
  exact hname ▸ ⟨List.mem_map_of_mem hmember, of_decide_eq_true hleft⟩

/-- **An edited record is read** as the members that it still has, where just the names of its
members are known. -/
theorem EditedMembers.exists_record (hkeys : (members.map (·.1)).Nodup)
    (h : EditedMembers deleted change members t) :
    ∃ record, Record.ofTree? (members.map (·.1)) t = some record ∧
      record.Keeps deleted change members := by
  obtain ⟨kept, added, all, hkept, hadded, hall, rfl⟩ := h
  -- Of the members of the object those that were kept are known.
  have hperm : (all.filter fun m => m.1 ∈ members.map (·.1)).Perm kept := by
    have hkeep : kept.filter (fun m => m.1 ∈ members.map (·.1)) = kept :=
      List.filter_eq_self.mpr fun m hm => decide_eq_true (name_of_kept hkept hm).1
    have hskip : added.filter (fun m => m.1 ∈ members.map (·.1)) = [] :=
      List.filter_eq_nil_iff.mpr fun m hm => by simpa using hadded m hm
    have hfilter := hall.filter fun m => decide (m.1 ∈ members.map (·.1))
    rwa [List.filter_append, hkeep, hskip, List.append_nil] at hfilter
  have hnodup : (kept.map (·.1)).Nodup := by
    rw [keys_kept hkept]
    exact (List.filter_sublist.map _).nodup hkeys
  have hrecord := (hperm.map (·.1)).nodup_iff.mpr hnodup
  refine ⟨_, ofTree?_object hrecord, fun name v hmem => ?_⟩
  have hlookup : List.lookup name _ = List.lookup name kept := Entries.get?_perm hperm hrecord name
  rw [hlookup]
  split
  · rename_i hdeleted
    exact Entries.get?_eq_none_iff.mpr fun t ht => (name_of_kept hkept ht).2 hdeleted
  · rename_i hdeleted
    have hleft : (name, v) ∈ members.filter fun m => m.1 ∉ deleted :=
      List.mem_filter.mpr ⟨hmem, decide_eq_true hdeleted⟩
    obtain ⟨t, ht, hchange⟩ := exists_kept hkept hleft
    exact ⟨t, (Entries.get?_eq_some_iff_of_nodup hnodup).mpr ht, hchange⟩

/-- **An edited object** is read as a record of the members that are kept. -/
theorem Edited.exists_record (hkeys : (members.map (·.1)).Nodup)
    (h : Edited deleted change (.ofMembers members) t) :
    ∃ record, Record.ofTree? (members.map (·.1)) t = some record ∧
      record.Keeps deleted change members :=
  ((edited_ofMembers_iff hkeys).mp h).exists_record hkeys

section

variable {α : Type} {record : Record} (name : String) {v : Json} {decoder : Decoder α} {x : α}

/-- A value that is left as it was is read as it was. -/
theorem reads_unchanged {name : String} (hx : decoder v.tree = some x) :
    ∀ t, unchanged name v t → decoder t = some x := by
  rintro t rfl
  exact hx

/-- All members but the changed one are read as they were written. -/
theorem reads_changedAt {name other : String} {edit : Json → Tree → Prop} (hne : other ≠ name)
    (hx : decoder v.tree = some x) : ∀ t, changedAt name edit other v t → decoder t = some x := by
  intro t h
  rw [changedAt, if_neg hne] at h
  rw [h, hx]

/-- A member that has a default takes it if it is deleted. -/
theorem Record.Keeps.member (h : record.Keeps deleted change members)
    (hx : ∀ t, change name v t → decoder t = some x) (hmem : (name, v) ∈ members) (default : α) :
    record.member name decoder default = some (if name ∈ deleted then default else x) := by
  have hname := h name v hmem
  rw [Record.member]
  split at hname
  · rename_i hdeleted
    rw [hname, if_pos hdeleted]
  · rename_i hdeleted
    obtain ⟨t, ht, hchange⟩ := hname
    rw [ht, if_neg hdeleted]
    exact hx t hchange

/-- A member without a default must not be deleted. -/
theorem Record.Keeps.required (h : record.Keeps deleted change members)
    (hx : ∀ t, change name v t → decoder t = some x) (hmem : (name, v) ∈ members)
    (hdeleted : name ∉ deleted) :
    record.required name decoder = some x := by
  have hname := h name v hmem
  rw [if_neg hdeleted] at hname
  obtain ⟨t, ht, hchange⟩ := hname
  rw [Record.required, ht, Option.bind_some, hx t hchange]

/-- A member that has to be there is read from an object that is only extended. -/
theorem Record.Keeps.required_unchanged (h : record.Keeps [] unchanged members)
    (hx : decoder v.tree = some x) (hmem : (name, v) ∈ members) :
    record.required name decoder = some x :=
  h.required name (reads_unchanged hx) hmem List.not_mem_nil

end

end

/-! ## Tagged values -/

/-- One element is apart from all the others. -/
theorem filter_of_perm_cons {α : Type} {p : α → Bool} {x : α} {l others : List α}
    (hperm : l.Perm (x :: others)) (hx : p x = true) (hothers : ∀ y ∈ others, p y = false) :
    l.filter p = [x] ∧ (l.filter fun y => !p y).Perm others := by
  have hnone : others.filter p = [] :=
    List.filter_eq_nil_iff.mpr fun y hy => by simp [hothers y hy]
  have hall : (others.filter fun y => !p y) = others :=
    List.filter_eq_self.mpr fun y hy => by simp [hothers y hy]
  constructor
  · have hfilter := hperm.filter p
    rw [List.filter_cons_of_pos hx, hnone] at hfilter
    exact List.perm_singleton.mp hfilter
  · have hfilter := hperm.filter fun y => !p y
    rwa [List.filter_cons_of_neg (by simp [hx]), hall] at hfilter

/-- In an object whose only tag is the given one, wherever it stands, the tag is found. -/
theorem tagged?_object {room : Nat} {tag : String} {all : Entries Tree} {value : Json}
    (hvalue : (Tree.object (all.map fun m => (some m.1, m.2))).toJson? room = some value)
    (htag : (all.filter fun m => m.1 = tagName) = [(tagName, .string (some tag))]) :
    tagged? room (.object (all.map fun m => (some m.1, m.2))) =
      some (tag, .object ((all.filter fun m => !decide (m.1 = tagName)).map
        fun m => (some m.1, m.2))) := by
  -- The tag is looked for among keys that may be missing, but here are not.
  have hfound : (all.map fun m => (some m.1, m.2)).filter (·.1 = some tagName) =
      [(some tagName, .string (some tag))] := by
    rw [List.filter_map]
    simp only [Function.comp_def, Option.some.injEq, htag, List.map_cons, List.map_nil]
  have hrest : (all.map fun m => (some m.1, m.2)).filter (·.1 ≠ some tagName) =
      (all.filter fun m => !decide (m.1 = tagName)).map fun m => (some m.1, m.2) := by
    rw [List.filter_map]
    simp only [Function.comp_def, ne_eq, Option.some.injEq, decide_not]
  rw [tagged?, hvalue]
  simp only [Option.isNone_some, Bool.false_eq_true, if_false, hfound, hrest]

section

variable {room : Nat} {tag : String} {fields : Entries Json} {t : Tree}

/-- **A tag is found** where members have been added, and leaves the record of the others. -/
theorem Extended.exists_tagged
    (h : Extended room (.ofMembers ((tagName, .string tag) :: fields)) t) (names : List String)
    (hnames : fields.map (·.1) = names) (hkeys : (tagName :: names).Nodup) :
    ∃ rest record, tagged? room t = some (tag, rest) ∧
      Record.ofTree? names rest = some record ∧ record.Keeps [] unchanged fields := by
  subst hnames
  obtain ⟨hedited, value, hvalue⟩ := h
  obtain ⟨kept, added, all, hkept, hadded, hall, rfl⟩ :=
    (edited_ofMembers_iff (by rwa [List.map_cons])).mp hedited
  rw [List.filter_eq_self.mpr fun m _ => by simp] at hkept
  -- The tag comes first among the members that were there before.
  obtain ⟨⟨name, tree⟩, kept, htag, hfields, rfl⟩ := List.forall₂_cons_left_iff.mp hkept
  obtain ⟨rfl, rfl⟩ : name = tagName ∧ tree = (Json.string tag).tree := htag
  obtain ⟨hnotag, hnodup⟩ := List.nodup_cons.mp hkeys
  have hothers : ∀ m ∈ kept ++ added, decide (m.1 = tagName) = false := by
    intro m hm
    refine decide_eq_false fun hname => ?_
    rcases List.mem_append.mp hm with hm | hm
    · have hmem : m.1 ∈ kept.map (·.1) := List.mem_map_of_mem hm
      rw [keys_kept hfields, hname] at hmem
      exact hnotag hmem
    · exact hadded m hm (hname ▸ List.mem_cons_self)
  obtain ⟨htag, hrest⟩ :=
    filter_of_perm_cons (p := fun m => decide (m.1 = tagName)) hall (decide_eq_true rfl) hothers
  have hedited : EditedMembers [] unchanged fields (.object
      ((all.filter fun m => !decide (m.1 = tagName)).map fun m => (some m.1, m.2))) := by
    refine ⟨kept, added, _, ?_, fun m hm hmem => ?_, hrest, rfl⟩
    · rwa [List.filter_eq_self.mpr fun m _ => by simp]
    · exact hadded m hm (List.mem_cons_of_mem _ hmem)
  obtain ⟨record, hrecord, hkeeps⟩ := hedited.exists_record hnodup
  exact ⟨_, record, tagged?_object hvalue htag, hrecord, hkeeps⟩

end

/-! ## Members of a record -/

namespace Decoder

theorem text_tree (s : String) : text (Json.string s).tree = some s := rfl

theorem bool_tree (b : Bool) : bool (Json.bool b).tree = some b := rfl

/-- A whole number of 32 bits is read back from its tree. -/
theorem uint32_tree (n : UInt32) : uint32 (ofUInt32 n).tree = some n := by
  have hrange : (0 : Int) ≤ n.toNat ∧ (n.toNat : Int) < 0x100000000 := by
    have := n.toNat_lt
    omega
  have hinteger : integer (ofUInt32 n).tree = some (n.toNat : Int) := rfl
  rw [uint32, hinteger, Option.bind_some, if_pos hrange, Int.toNat_natCast, UInt32.ofNat_toNat]

/-- So is one of 64 bits. -/
theorem uint64_tree (n : UInt64) : uint64 (ofUInt64 n).tree = some n := by
  have hrange : (0 : Int) ≤ n.toNat ∧ (n.toNat : Int) < 0x10000000000000000 := by
    have := n.toNat_lt
    omega
  have hinteger : integer (ofUInt64 n).tree = some (n.toNat : Int) := rfl
  rw [uint64, hinteger, Option.bind_some, if_pos hrange, Int.toNat_natCast, UInt64.ofNat_toNat]

/-- So is one with a sign. -/
theorem int32_tree (i : Int32) : int32 (ofInt32 i).tree = some i := by
  have hrange : -0x80000000 ≤ i.toInt ∧ i.toInt < 0x80000000 := ⟨i.le_toInt, i.toInt_lt⟩
  have hinteger : integer (ofInt32 i).tree = some i.toInt := rfl
  rw [int32, hinteger, Option.bind_some, if_pos hrange, Int32.ofInt_toInt]

/-- A finite float is read back from its tree; any other has none. -/
theorem double_tree {x : Double} (hx : x.isFinite = true) : double (ofDouble x).tree = some x := by
  rw [ofDouble, Number.ofDouble?, dif_pos hx]
  rfl

/-- A text that may be missing is null in its place. -/
theorem optional_text_tree (s : Option String) :
    optional text (s.elim Json.null Json.string).tree = some s := by
  cases s <;> rfl

/-- Texts are read back one by one. -/
theorem list_text_tree (l : List String) :
    list text (Json.array (l.map .string)).tree = some l := by
  show (itemTrees (l.map .string)).mapM text = some l
  induction l with
  | nil => rfl
  | cons s l ih => rw [List.map_cons, itemTrees, List.mapM_cons, text_tree, ih]; rfl

end Decoder

end VectorTable.Json
