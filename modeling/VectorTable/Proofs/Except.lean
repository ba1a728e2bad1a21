import Mathlib.Data.List.Forall2

/-!
# VectorTable — work that may fail

How work that may fail succeeds: every part of it succeeds, one after the other. A list is worked
through element by element, and the result is the list of the results.
-/

namespace VectorTable

variable {ε ε' α β : Type}

/-- Two steps succeed if the first does, and the second does with its value. -/
theorem bind_eq_ok {x : Except ε α} {f : α → Except ε β} {b : β} :
    (x >>= f) = .ok b ↔ ∃ a, x = .ok a ∧ f a = .ok b := by
  cases x with
  | error e =>
    constructor
    · intro h
      cases h
    · rintro ⟨a, h, -⟩
      cases h
  | ok a =>
    constructor
    · intro h
      exact ⟨a, rfl, h⟩
    · rintro ⟨a', h, hf⟩
      cases h
      exact hf

/-- Two steps fail if the first does, or the second with the value of the first. -/
theorem bind_eq_error {x : Except ε α} {f : α → Except ε β} {e : ε} :
    (x >>= f) = .error e ↔ x = .error e ∨ ∃ a, x = .ok a ∧ f a = .error e := by
  cases x with
  | error e' =>
    constructor
    · intro h
      cases h
      exact .inl rfl
    · rintro (h | ⟨a, h, -⟩)
      · cases h
        rfl
      · cases h
  | ok a =>
    constructor
    · intro h
      exact .inr ⟨a, rfl, h⟩
    · rintro (h | ⟨a', h, hf⟩)
      · cases h
      · cases h
        exact hf

/-- A check that comes first must succeed, and so must what follows it. -/
theorem check_bind_eq_ok {x : Except ε Unit} {f : Unit → Except ε β} {b : β} :
    (x >>= f) = .ok b ↔ x = .ok () ∧ f () = .ok b := by
  rw [bind_eq_ok]
  constructor
  · rintro ⟨⟨⟩, hx, hf⟩
    exact ⟨hx, hf⟩
  · rintro ⟨hx, hf⟩
    exact ⟨(), hx, hf⟩

/-- A guard passes if its condition does not hold. -/
theorem throw_eq_ok_iff {p : Prop} [Decidable p] {e : ε} :
    (if p then throw e else pure () : Except ε Unit) = .ok () ↔ ¬ p := by
  split
  · rename_i h
    exact iff_of_false nofun (not_not_intro h)
  · rename_i h
    exact iff_of_true rfl h

/-- What is refused under a condition does not meet it, and what follows succeeds. -/
theorem throw_bind_eq_ok {p : Prop} [Decidable p] {e : ε} {f : Unit → Except ε β} {b : β} :
    (if p then (throw e : Except ε Unit) >>= f else f ()) = .ok b ↔ ¬ p ∧ f () = .ok b := by
  split
  · rename_i h
    exact iff_of_false nofun fun hnot => hnot.1 h
  · rename_i h
    exact (and_iff_right h).symm

/-- Work fails exactly if it does not succeed. -/
theorem exists_eq_error_iff {x : Except ε α} : (∃ e, x = .error e) ↔ ¬ ∃ a, x = .ok a := by
  cases x with
  | error e => simp
  | ok a => simp

/-- A success may be computed without the type of errors, which need not be decidable. -/
theorem eq_ok_of_toOption {x : Except ε α} {a : α} (h : x.toOption = some a) : x = .ok a := by
  cases x with
  | error e => cases h
  | ok b => exact congrArg Except.ok (Option.some.inj h)

/-- A mapped computation succeeds with the image of a value. -/
theorem map_eq_ok {x : Except ε α} {f : α → β} {b : β} :
    x.map f = .ok b ↔ ∃ a, x = .ok a ∧ f a = b := by
  cases x <;> simp [Except.map]

/-- A map of values changes no error. -/
theorem map_eq_error {x : Except ε α} {f : α → β} {e : ε} :
    x.map f = .error e ↔ x = .error e := by
  cases x <;> simp [Except.map]

/-- A map of errors changes no value. -/
theorem mapError_eq_ok {x : Except ε α} {f : ε → ε'} {a : α} :
    x.mapError f = .ok a ↔ x = .ok a := by
  cases x <;> simp [Except.mapError]

/-- A mapped computation fails with the image of an error. -/
theorem mapError_eq_error {x : Except ε α} {f : ε → ε'} {e' : ε'} :
    x.mapError f = .error e' ↔ ∃ e, x = .error e ∧ f e = e' := by
  cases x <;> simp [Except.mapError]

/-- Work through a list fails where its work on some element does. -/
theorem exists_of_mapM_eq_error {f : α → Except ε β} {l : List α} {e : ε}
    (h : l.mapM f = .error e) : ∃ a ∈ l, f a = .error e := by
  induction l with
  | nil => cases h
  | cons a l ih =>
    rw [List.mapM_cons] at h
    rcases bind_eq_error.mp h with ha | ⟨b, -, hrest⟩
    · exact ⟨a, by simp, ha⟩
    · rcases bind_eq_error.mp hrest with hl | ⟨bs, -, hpure⟩
      · obtain ⟨a', ha', he⟩ := ih hl
        exact ⟨a', by simp [ha'], he⟩
      · cases hpure

/-- A traversal succeeds element by element. -/
theorem mapM_eq_ok_iff {f : α → Except ε β} {l : List α} {l' : List β} :
    l.mapM f = .ok l' ↔ List.Forall₂ (fun a b => f a = .ok b) l l' := by
  induction l generalizing l' with
  | nil =>
    rw [List.mapM_nil, List.forall₂_nil_left_iff]
    constructor
    · intro h
      cases h
      rfl
    · rintro rfl
      rfl
  | cons a l ih =>
    -- The first element and the others succeed independently of each other.
    rw [List.mapM_cons, bind_eq_ok, List.forall₂_cons_left_iff]
    constructor
    · rintro ⟨b, hb, hrest⟩
      obtain ⟨bs, hbs, hpure⟩ := bind_eq_ok.mp hrest
      cases hpure
      exact ⟨b, bs, hb, ih.mp hbs, rfl⟩
    · rintro ⟨b, bs, hb, hbs, rfl⟩
      exact ⟨b, hb, bind_eq_ok.mpr ⟨bs, ih.mpr hbs, rfl⟩⟩

/-- Lists related element by element are related at each position. -/
theorem exists_getElem?_of_forall₂ {r : α → β → Prop} {l : List α} {l' : List β}
    (h : List.Forall₂ r l l') {i : Nat} {a : α} (ha : l[i]? = some a) :
    ∃ b, l'[i]? = some b ∧ r a b := by
  induction h generalizing i with
  | nil => simp at ha
  | cons hr _ ih =>
    cases i with
    | zero =>
      obtain rfl := Option.some.inj ha
      exact ⟨_, rfl, hr⟩
    | succ i => exact ih ha

/-- Every result of work through a list is that of some element. -/
theorem exists_of_mem_mapM {f : α → Except ε β} {l : List α} {l' : List β}
    (h : l.mapM f = .ok l') {b : β} (hb : b ∈ l') : ∃ a ∈ l, f a = .ok b := by
  rw [mapM_eq_ok_iff] at h
  induction h with
  | nil => cases hb
  | cons ha _ ih =>
    rcases List.mem_cons.mp hb with rfl | hb
    · exact ⟨_, List.mem_cons_self, ha⟩
    · obtain ⟨a, hmem, ha⟩ := ih hb
      exact ⟨a, List.mem_cons_of_mem _ hmem, ha⟩

/-- Work through a list succeeds if it does on each element. -/
theorem exists_mapM_eq_ok {f : α → Except ε β} {l : List α} (h : ∀ a ∈ l, ∃ b, f a = .ok b) :
    ∃ l', l.mapM f = .ok l' := by
  induction l with
  | nil => exact ⟨[], rfl⟩
  | cons a l ih =>
    obtain ⟨b, hb⟩ := h a List.mem_cons_self
    obtain ⟨bs, hbs⟩ := ih fun a' ha' => h a' (List.mem_cons_of_mem _ ha')
    exact ⟨b :: bs, mapM_eq_ok_iff.mpr (.cons hb (mapM_eq_ok_iff.mp hbs))⟩

/-- A traversal succeeds with some list if each element succeeds with some value. -/
theorem exists_mapM_eq_ok_iff {f : α → Except ε β} {l : List α} :
    (∃ l', l.mapM f = .ok l') ↔ ∀ a ∈ l, ∃ b, f a = .ok b := by
  refine ⟨?_, exists_mapM_eq_ok⟩
  rintro ⟨l', h⟩ a ha
  obtain ⟨i, hi⟩ := List.mem_iff_getElem?.mp ha
  obtain ⟨b, -, hb⟩ := exists_getElem?_of_forall₂ (mapM_eq_ok_iff.mp h) hi
  exact ⟨b, hb⟩

/-- Work through a list that looks at the positions of the elements too. -/
theorem mapM_zipIdx_eq_ok {f : α × Nat → Except ε β} {g : α → β} {l : List α} (start : Nat)
    (h : ∀ i a, l[i]? = some a → f (a, start + i) = .ok (g a)) :
    (l.zipIdx start).mapM f = .ok (l.map g) := by
  induction l generalizing start with
  | nil => rfl
  | cons a l ih =>
    -- The position of an element of the rest is one less there, and the start one more.
    have hrest := ih (start + 1) fun i b hb => by
      have := h (i + 1) b hb
      rwa [Nat.add_comm i, ← Nat.add_assoc] at this
    rw [List.zipIdx_cons, List.mapM_cons]
    exact bind_eq_ok.mpr ⟨g a, h 0 a rfl, bind_eq_ok.mpr ⟨l.map g, hrest, rfl⟩⟩

/-- A check of all elements passes if that of each element does. -/
theorem forM_eq_ok_iff {f : α → Except ε Unit} {l : List α} :
    l.forM f = .ok () ↔ ∀ a ∈ l, f a = .ok () := by
  induction l with
  | nil => exact iff_of_true rfl (fun a h => absurd h List.not_mem_nil)
  | cons a l ih =>
    rw [show (a :: l).forM f = (f a >>= fun _ => l.forM f) from rfl, bind_eq_ok,
      List.forall_mem_cons]
    constructor
    · rintro ⟨⟨⟩, ha, hrest⟩
      exact ⟨ha, ih.mp hrest⟩
    · rintro ⟨ha, hrest⟩
      exact ⟨(), ha, ih.mpr hrest⟩

/-- The elements of two lists are checked one list after the other. -/
theorem forM_append_eq {f : α → Except ε Unit} {l l' : List α} :
    (l ++ l').forM f = l.forM f >>= fun _ => l'.forM f := by
  induction l with
  | nil => rfl
  | cons a l ih =>
    show f a >>= (fun _ => (l ++ l').forM f) = _
    rw [ih]
    exact (bind_assoc _ _ _).symm

/-- Checks that agree on the elements of a list agree on the list. -/
theorem forM_congr {f g : α → Except ε Unit} {l : List α} (h : ∀ a ∈ l, f a = g a) :
    l.forM f = l.forM g := by
  induction l with
  | nil => rfl
  | cons a l ih =>
    obtain ⟨ha, hl⟩ := List.forall_mem_cons.mp h
    show (f a >>= fun _ => l.forM f) = g a >>= fun _ => l.forM g
    rw [ha, ih hl]

/-- Of several checks the first one that fails is reported. -/
theorem forM_eq_error_iff {f : α → Except ε Unit} {l : List α} {e : ε} :
    l.forM f = .error e ↔ ∃ before a after, l = before ++ a :: after ∧
      (∀ b ∈ before, f b = .ok ()) ∧ f a = .error e := by
  constructor
  · intro h
    induction l with
    | nil => cases h
    | cons a l ih =>
      rcases bind_eq_error.mp h with ha | ⟨⟨⟩, ha, hl⟩
      · exact ⟨[], a, l, rfl, nofun, ha⟩
      · obtain ⟨before, a', after, rfl, hbefore, ha'⟩ := ih hl
        exact ⟨a :: before, a', after, rfl, List.forall_mem_cons.mpr ⟨ha, hbefore⟩, ha'⟩
  · rintro ⟨before, a, after, rfl, hbefore, ha⟩
    rw [forM_append_eq, bind_eq_error]
    -- Everything before the failing check succeeds.
    refine .inr ⟨(), forM_eq_ok_iff.mpr hbefore, ?_⟩
    exact bind_eq_error.mpr (.inl ha)

/-! ## Faults without results -/

/-- The fault of some work, if any, whatever its result would be. -/
def outcome (x : Except ε α) : Except ε Unit := x.map fun _ => ()

/-- The outcome keeps the error of a computation. -/
theorem outcome_eq_error {x : Except ε α} {e : ε} : outcome x = .error e ↔ x = .error e :=
  map_eq_error

/-- The outcome keeps that a computation succeeds, and nothing of its value. -/
theorem outcome_eq_ok {x : Except ε α} : outcome x = .ok () ↔ ∃ a, x = .ok a := by
  rw [outcome, map_eq_ok]
  exact exists_congr fun a => and_iff_left rfl

/-- A check has no result besides its fault. -/
theorem outcome_check (x : Except ε Unit) : outcome x = x := by
  cases x <;> rfl

/-- The outcome does not see a map of values. -/
theorem outcome_map (x : Except ε α) (f : α → β) : outcome (x.map f) = outcome x := by
  cases x <;> rfl

/-- Work in two steps fails where the first step does, or else where the second one does. -/
theorem outcome_bind {x : Except ε α} {f : α → Except ε β} {check rest : Except ε Unit}
    (hx : outcome x = check) (hf : ∀ a, x = .ok a → outcome (f a) = rest) :
    outcome (x >>= f) = check >>= fun _ => rest := by
  subst hx
  cases x with
  | error e => rfl
  | ok a => exact hf a rfl

/-- What is refused under a condition fails like a check of the condition. -/
theorem outcome_throw_bind {p : Prop} [Decidable p] {e : ε} {f : Unit → Except ε β}
    {check rest : Except ε Unit} (hcheck : check = if p then .error e else .ok ())
    (hf : outcome (f ()) = rest) :
    outcome (if p then (throw e : Except ε Unit) >>= f else f ()) = check >>= fun _ => rest := by
  subst hcheck
  split
  · rfl
  · exact hf

/-- The outcome of a traversal is that of a check of all elements. -/
theorem outcome_mapM {f : α → Except ε β} {l : List α} :
    outcome (l.mapM f) = l.forM fun a => outcome (f a) := by
  induction l with
  | nil => rfl
  | cons a l ih =>
    rw [List.mapM_cons]
    refine outcome_bind rfl fun b _ => ?_
    rw [← ih]
    exact outcome_map (l.mapM f) (b :: ·)

end VectorTable
