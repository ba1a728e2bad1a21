import Mathlib.Data.List.DropRight
import VectorTable.Proofs.Config.Validation
import VectorTable.Proofs.Number.Value

/-!
# VectorTable — what validation answers

A validation has few outcomes: success, which means that the configuration is sound, or a fault
of the configuration. Only lists of columns that exclude each other are reported as a conflict, and
they are looked at before anything else.

* `Text.trim` — a text without the white space at its ends;
* `FailsByConfig` — work that fails with a fault of the configuration, if at all;
* `validation_outcomes` — the outcomes for stores and for new tables.
-/

namespace VectorTable

/-! ## White space -/

namespace Text

/-- The characters that have the Unicode property White_Space. -/
def whiteSpace : List Char :=
  ['\t', '\n', '\x0b', '\x0c', '\r', ' ', '\u0085', '\u00a0', '\u1680', '\u2000', '\u2001',
    '\u2002', '\u2003', '\u2004', '\u2005', '\u2006', '\u2007', '\u2008', '\u2009', '\u200a',
    '\u2028', '\u2029', '\u202f', '\u205f', '\u3000']

/-- A text without the white space at its ends. -/
def trim (s : String) : String :=
  String.ofList ((s.toList.dropWhile (· ∈ whiteSpace)).rdropWhile (· ∈ whiteSpace))

/-- The characters that count as blank are those of the listed white space. -/
theorem isBlank_iff {c : Char} : isBlank c = true ↔ c ∈ whiteSpace := by
  have hcode (d : Char) : c = d ↔ c.toNat = d.toNat := Char.toNat_inj.symm
  simp only [whiteSpace, List.mem_cons, List.not_mem_nil, or_false, hcode, isBlank,
    Bool.or_eq_true, Bool.and_eq_true, decide_eq_true_eq, Char.reduceToNat]
  omega

/-- A text is blank if nothing is left of it between the blanks at its ends. -/
theorem isBlankText_iff {s : String} : isBlankText s = true ↔ trim s = "" := by
  rw [trim, isBlankText, List.all_eq_true, String.ofList_eq_empty_iff, List.rdropWhile_eq_nil_iff]
  simp only [isBlank_iff, decide_eq_true_eq]
  constructor
  · intro h c hc
    exact h c ((List.dropWhile_sublist _).subset hc)
  · intro h
    -- The rest starts with something else than white space, so there is no rest.
    have hnil : s.toList.dropWhile (· ∈ whiteSpace) = [] := by
      by_contra hne
      have hhead := List.head_dropWhile_not (· ∈ whiteSpace) hne
      exact of_decide_eq_false hhead (h _ (List.head_mem hne))
    exact fun c hc => of_decide_eq_true (List.dropWhile_eq_nil_iff.mp hnil c hc)

end Text

/-! ## Faults of the configuration -/

/-- An identifier is sound if it is not empty, has no NUL, and fits into 63 bytes. -/
theorem Identifier.sound_iff {name : String} :
    Sound name ↔ name ≠ "" ∧ '\x00' ∉ name.toList ∧ name.utf8ByteSize ≤ 63 := by
  constructor
  · exact fun h => ⟨h.nonempty, h.noNul, h.short⟩
  · rintro ⟨hnonempty, hnul, hshort⟩
    exact ⟨hnonempty, hnul, hshort⟩

/-- Work that fails with a fault of the configuration, if at all. -/
def FailsByConfig (x : Except Error Unit) : Prop :=
  ∀ error, x = .error error → ∃ fault, error = .config fault

namespace FailsByConfig

variable {α : Type} {x : Except Error Unit} {f : Unit → Except Error Unit} {fault : ConfigFault}

theorem ok : FailsByConfig (.ok ()) := nofun

theorem error : FailsByConfig (.error (.config fault)) := by
  rintro _ ⟨⟩
  exact ⟨fault, rfl⟩

/-- What fails by the configuration either passes or reports a fault of the configuration. -/
theorem outcome (hx : FailsByConfig x) : x = .ok () ∨ ∃ fault, x = .error (.config fault) := by
  cases x with
  | ok _ => exact .inl rfl
  | error e =>
    obtain ⟨fault, rfl⟩ := hx e rfl
    exact .inr ⟨fault, rfl⟩

/-- One check after the other. -/
theorem bind (hx : FailsByConfig x) (hf : FailsByConfig (f ())) : FailsByConfig (x >>= f) := by
  intro e h
  rcases bind_eq_error.mp h with h | ⟨⟨⟩, -, h⟩
  · exact hx e h
  · exact hf e h

/-- A check of every element of a list. -/
theorem forM {g : α → Except Error Unit} {l : List α} (h : ∀ a, FailsByConfig (g a)) :
    FailsByConfig (l.forM g) := by
  intro e hl
  obtain ⟨-, a, -, -, -, ha⟩ := forM_eq_error_iff.mp hl
  exact h a e ha

/-- A fault that is reported under a condition. -/
theorem throwIf {p : Prop} [Decidable p] :
    FailsByConfig (if p then throw (.config fault) else pure ()) := by
  split
  · exact error
  · exact ok

/-- The same with further checks behind it. -/
theorem throwIf_bind {p : Prop} [Decidable p] (hf : FailsByConfig (f ())) :
    FailsByConfig (if p then (throw (.config fault) : Except Error Unit) >>= f else f ()) := by
  split
  · exact error
  · exact hf

/-- An identifier that is not sound is a fault of the configuration. -/
theorem check (what name : String) : FailsByConfig (Identifier.check what name) := by
  unfold Identifier.check
  split
  · exact error
  split
  · exact error
  split
  · exact error
  · exact ok

/-- So is a name that repeats. -/
theorem checkDistinct (reserved : List (String × String)) (metadata : List String) :
    FailsByConfig (Identifier.checkDistinct reserved metadata) := by
  rw [Identifier.checkDistinct]
  -- The names seen so far grow by one with each step.
  generalize [] = seen
  induction reserved generalizing seen with
  | nil =>
    rw [Identifier.checkDistinct.checkReserved]
    split
    · exact error
    · exact ok
  | cons head rest ih =>
    obtain ⟨role, name⟩ := head
    rw [Identifier.checkDistinct.checkReserved]
    split
    · exact error
    · exact ih _

end FailsByConfig

/-! ## Stores -/

namespace StoreConfig

/-- All of a validation but the check that comes first. -/
theorem exists_validate_eq (c : StoreConfig) :
    ∃ rest, FailsByConfig rest ∧ c.validate = c.checkColumnLists >>= fun _ => rest := by
  refine ⟨_, ?_, rfl⟩
  -- One check after the other, in the order of the validation.
  refine (FailsByConfig.check _ _).bind ((FailsByConfig.check _ _).bind ?_)
  refine (FailsByConfig.check _ _).bind ((FailsByConfig.check _ _).bind ?_)
  refine (FailsByConfig.check _ _).bind ((FailsByConfig.forM fun _ => .check _ _).bind ?_)
  refine (FailsByConfig.forM fun _ => .check _ _).bind ?_
  refine (FailsByConfig.forM fun _ => .check _ _).bind ?_
  refine (FailsByConfig.checkDistinct _ _).bind ?_
  exact .throwIf_bind (.throwIf_bind .throwIf)

/-- Two lists of columns, one to take and one to leave, contradict each other. -/
theorem checkColumnLists_eq_error_iff {c : StoreConfig} {error : Error} :
    c.checkColumnLists = .error error ↔
      error = .conflict .columnLists ∧ c.metadataColumns ≠ [] ∧ c.ignoredColumns ≠ [] := by
  unfold checkColumnLists
  split
  · rename_i h
    refine iff_of_false nofun fun hboth => ?_
    simp [hboth.2] at h
  · rename_i h
    simp only [Bool.or_eq_true, List.isEmpty_iff, not_or] at h
    rw [and_iff_left h, Except.error.injEq, eq_comm]

/-- The contradiction of the two lists is reported before every other fault. -/
theorem validate_eq_conflict_iff {c : StoreConfig} :
    c.validate = .error (.conflict .columnLists) ↔
      c.metadataColumns ≠ [] ∧ c.ignoredColumns ≠ [] := by
  obtain ⟨rest, hrest, hvalidate⟩ := c.exists_validate_eq
  rw [hvalidate, bind_eq_error, checkColumnLists_eq_error_iff]
  constructor
  · rintro (⟨-, hboth⟩ | ⟨-, -, herror⟩)
    · exact hboth
    · obtain ⟨fault, hfault⟩ := hrest _ herror
      cases hfault
  · exact fun hboth => .inl ⟨rfl, hboth⟩

/-- The weight of relevance is a number from 0 to 1. -/
theorem lambdaInRange_iff {c : StoreConfig} :
    c.lambdaInRange = true ↔ ∃ weight, c.lambda.number? = some weight ∧ 0 ≤ weight ∧ weight ≤ 1 :=
  Binary.between_iff Binary.number?_zero Binary.number?_one

/-- The reserved names of a store: the columns of its roles. -/
theorem map_snd_reserved (c : StoreConfig) :
    c.reserved.map (·.2) =
      [c.idColumn, c.contentColumn, c.embeddingColumn] ++ c.overflowColumn.toList := by
  unfold reserved
  cases c.overflowColumn <;> rfl

/-- A configuration of a store is sound if each of its fields is, as conditions on the fields
themselves. -/
theorem sound_iff {c : StoreConfig} :
    c.Sound ↔
      ¬ (c.metadataColumns ≠ [] ∧ c.ignoredColumns ≠ []) ∧
      (∀ name ∈ [c.table, c.schema, c.idColumn, c.contentColumn, c.embeddingColumn] ++
          c.overflowColumn.toList ++ c.metadataColumns ++ c.ignoredColumns,
        name ≠ "" ∧ '\x00' ∉ name.toList ∧ name.utf8ByteSize ≤ 63) ∧
      ([c.idColumn, c.contentColumn, c.embeddingColumn] ++ c.overflowColumn.toList ++
          c.metadataColumns).Nodup ∧
      (0 < c.limit ∧ c.limit ≤ c.fetchLimit) ∧
      ∃ weight, c.lambda.number? = some weight ∧ 0 ≤ weight ∧ weight ≤ 1 := by
  have hlists : c.metadataColumns = [] ∨ c.ignoredColumns = [] ↔
      ¬ (c.metadataColumns ≠ [] ∧ c.ignoredColumns ≠ []) := by
    rw [not_and_or, not_not, not_not]
  have hnames : c.names = [c.table, c.schema, c.idColumn, c.contentColumn, c.embeddingColumn] ++
      c.overflowColumn.toList ++ c.metadataColumns ++ c.ignoredColumns := by
    rw [names, map_snd_reserved]
    rfl
  simp only [← hlists, ← hnames, ← Identifier.sound_iff, ← map_snd_reserved, ← lambdaInRange_iff,
    UInt64.pos_iff_ne_zero]
  -- The conditions are the fields of the structure in another order.
  constructor
  · exact fun h => ⟨h.lists, h.names, h.distinct, ⟨h.limit_ne_zero, h.limit_le⟩, h.lambda⟩
  · rintro ⟨hlists, hnames, hdistinct, ⟨hlimit, hfetch⟩, hlambda⟩
    exact ⟨hlists, hnames, hdistinct, hlimit, hfetch, hlambda⟩

/-- A validation passes, reports the contradiction of the two lists, or a fault of the
configuration. -/
theorem validate_outcome (c : StoreConfig) :
    c.validate = .ok () ∨ c.validate = .error (.conflict .columnLists) ∨
      ∃ fault, c.validate = .error (.config fault) := by
  obtain ⟨rest, hrest, hvalidate⟩ := c.exists_validate_eq
  rw [hvalidate]
  cases hlists : c.checkColumnLists with
  | error e =>
    obtain ⟨rfl, -⟩ := checkColumnLists_eq_error_iff.mp hlists
    exact .inr (.inl rfl)
  | ok _ => exact hrest.outcome.imp_right .inr

end StoreConfig

/-! ## New tables -/

namespace TableConfig

/-- Every fault of a table is one of its configuration. -/
theorem failsByConfig_validate (c : TableConfig) : FailsByConfig c.validate := by
  refine (FailsByConfig.check _ _).bind ((FailsByConfig.check _ _).bind ?_)
  refine (FailsByConfig.check _ _).bind ((FailsByConfig.check _ _).bind ?_)
  refine (FailsByConfig.check _ _).bind ((FailsByConfig.check _ _).bind ?_)
  refine .throwIf_bind ?_
  refine (FailsByConfig.forM fun _ => ?_).bind (.checkDistinct _ _)
  exact (FailsByConfig.check _ _).bind .throwIf

/-- The reserved names of a table: the columns of its roles, with that of other metadata if there is
one. -/
theorem map_snd_reserved (c : TableConfig) :
    c.reserved.map (·.2) = [c.idColumn, c.contentColumn, c.embeddingColumn] ++
      if c.storeMetadata then [c.overflowColumn] else [] := by
  unfold reserved
  cases c.storeMetadata <;> rfl

/-- A configuration of a table is sound if each of its fields is, as conditions on the fields
themselves. -/
theorem sound_iff {c : TableConfig} :
    c.Sound ↔
      (∀ name ∈ [c.table, c.schema, c.idColumn, c.contentColumn, c.embeddingColumn,
          c.overflowColumn] ++ c.metadataColumns.map (·.name),
        name ≠ "" ∧ '\x00' ∉ name.toList ∧ name.utf8ByteSize ≤ 63) ∧
      0 < c.vectorSize ∧
      (∀ m ∈ c.metadataColumns, Text.trim m.dataType ≠ "") ∧
      ([c.idColumn, c.contentColumn, c.embeddingColumn] ++
          (if c.storeMetadata then [c.overflowColumn] else []) ++
          c.metadataColumns.map (·.name)).Nodup := by
  simp only [← Identifier.sound_iff, ← map_snd_reserved, UInt32.pos_iff_ne_zero, ne_eq,
    ← Text.isBlankText_iff, Bool.not_eq_true]
  constructor
  · exact fun h => ⟨h.names, h.size_ne_zero, h.types, h.distinct⟩
  · rintro ⟨hnames, hsize, htypes, hdistinct⟩
    exact ⟨hnames, hsize, htypes, hdistinct⟩

end TableConfig

/-! ## All outcomes -/

/-- **What validation answers.** A store's configuration is accepted exactly if the columns for
metadata are not both listed and excluded, all names can be kept by the database, the columns with a
role and those for metadata are different, and the settings of the search are in range. It is a
conflict exactly if columns are both listed and excluded, whatever else is wrong; anything else is a
fault of the configuration. The layout of a new table is judged in the same way, but for the column
of the other keys: its name is looked at always, and compared with the others only if the table gets
the column. -/
theorem validation_outcomes :
    (∀ c : StoreConfig,
      (c.validate = .ok () ↔
        ¬ (c.metadataColumns ≠ [] ∧ c.ignoredColumns ≠ []) ∧
        (∀ name ∈ [c.table, c.schema, c.idColumn, c.contentColumn, c.embeddingColumn] ++
            c.overflowColumn.toList ++ c.metadataColumns ++ c.ignoredColumns,
          name ≠ "" ∧ '\x00' ∉ name.toList ∧ name.utf8ByteSize ≤ 63) ∧
        ([c.idColumn, c.contentColumn, c.embeddingColumn] ++ c.overflowColumn.toList ++
            c.metadataColumns).Nodup ∧
        (0 < c.limit ∧ c.limit ≤ c.fetchLimit) ∧
        ∃ weight, c.lambda.number? = some weight ∧ 0 ≤ weight ∧ weight ≤ 1) ∧
      (c.validate = .error (.conflict .columnLists) ↔
        c.metadataColumns ≠ [] ∧ c.ignoredColumns ≠ []) ∧
      (c.validate = .ok () ∨ c.validate = .error (.conflict .columnLists) ∨
        ∃ fault, c.validate = .error (.config fault))) ∧
    ∀ c : TableConfig,
      (c.validate = .ok () ↔
        (∀ name ∈ [c.table, c.schema, c.idColumn, c.contentColumn, c.embeddingColumn,
            c.overflowColumn] ++ c.metadataColumns.map (·.name),
          name ≠ "" ∧ '\x00' ∉ name.toList ∧ name.utf8ByteSize ≤ 63) ∧
        0 < c.vectorSize ∧
        (∀ m ∈ c.metadataColumns, Text.trim m.dataType ≠ "") ∧
        ([c.idColumn, c.contentColumn, c.embeddingColumn] ++
            (if c.storeMetadata then [c.overflowColumn] else []) ++
            c.metadataColumns.map (·.name)).Nodup) ∧
      (c.validate = .ok () ∨ ∃ fault, c.validate = .error (.config fault)) := by
  refine ⟨fun c => ⟨?_, StoreConfig.validate_eq_conflict_iff, c.validate_outcome⟩,
    fun c => ⟨?_, c.failsByConfig_validate.outcome⟩⟩
  · rw [StoreConfig.validate_eq_ok_iff, StoreConfig.sound_iff]
  · rw [TableConfig.validate_eq_ok_iff, TableConfig.sound_iff]

end VectorTable
