import VectorTable.Proofs.Sql.Quoting
import VectorTable.Sql.Statement

/-!
# VectorTable — the expressions that a search selects

Whoever reads the text of a search does not know how it was made. They find its expressions between
`SELECT` and `FROM`, with a comma between one and the next, but must not stop at a comma inside a
quoted name or in the arguments of a function. Read like this, the text gives the expressions that
it was made of, whatever stands in the names and whatever follows.

* `Sql.selected?` — the reader;
* `Sql.Passes` — text that it takes over without a cut;
* `Sql.selected?_searchStatement` — what it finds in a search.
-/

namespace VectorTable

namespace Sql

/-! ## The reader -/

/-- Where a reader stands: in a quoted name or not, and in how many parentheses. -/
structure Place where
  quoted : Bool
  depth : Nat
deriving DecidableEq

/-- Outside of all names and parentheses. -/
def Place.top : Place := ⟨false, 0⟩

/-- A quote begins or ends a name, and a doubled one ends it and begins it again. Parentheses only
count outside of names. -/
def Place.next (p : Place) (c : Char) : Place :=
  if c = '"' then ⟨!p.quoted, p.depth⟩
  else if p.quoted then p
  else if c = '(' then ⟨false, p.depth + 1⟩
  else if c = ')' then ⟨false, p.depth - 1⟩
  else p

/-- Cuts a text at its commas, up to the first ` FROM `. Neither counts in names and parentheses.
The piece so far is given. -/
def cutList (p : Place) (piece : List Char) : List Char → Option (List (List Char))
  | [] => none
  | c :: rest =>
    if p = .top ∧ c = ',' then (cutList p [] rest).map (piece :: ·)
    else if p = .top ∧ " FROM ".toList.isPrefixOf (c :: rest) then some [piece]
    else cutList (p.next c) (piece ++ [c]) rest

/-- The expressions that a search selects, without the blanks before them. -/
def selected? (text : String) : Option (List String) :=
  if text.toList.take 7 = "SELECT ".toList then
    (cutList .top [] (text.toList.drop 7)).map fun pieces =>
      pieces.map fun piece => String.ofList (piece.dropWhile (· = ' '))
  else none

example : selected? "SELECT \"a, \"\" FROM \"::text, f(\"b(\", $1) AS distance FROM t, u" =
    some ["\"a, \"\" FROM \"::text", "f(\"b(\", $1) AS distance"] := by
  decide +kernel

/-! ## Texts without a cut -/

/-- On its way through the text from one place to another, the reader takes all of it over. -/
def Passes (p q : Place) (s : List Char) : Prop :=
  ∀ piece rest, cutList p piece (s ++ rest) = cutList q (piece ++ s) rest

/-- A text is passed in two parts. -/
theorem Passes.append {p q r : Place} {s t : List Char} (hs : Passes p q s) (ht : Passes q r t) :
    Passes p r (s ++ t) := by
  intro piece rest
  rw [List.append_assoc, hs, ht, List.append_assoc]

theorem passes_char {p : Place} {c : Char} (h : p ≠ .top ∨ c ≠ ',' ∧ c ≠ ' ') :
    Passes p (p.next c) [c] := by
  intro piece rest
  have hcomma : ¬ (p = .top ∧ c = ',') := by
    rintro ⟨hp, hc⟩
    rcases h with h | h
    · exact h hp
    · exact h.1 hc
  -- The list ends at a blank, which this character is not.
  have hfrom : ¬ (p = .top ∧ " FROM ".toList.isPrefixOf (c :: rest) = true) := by
    rintro ⟨hp, hprefix⟩
    rcases h with h | h
    · exact h hp
    · have hblank : (' ' == c) = true := (Bool.and_eq_true_iff.mp hprefix).1
      exact h.2 (eq_of_beq hblank).symm
  rw [List.singleton_append, cutList, if_neg hcomma, if_neg hfrom]

/-- A blank that the end of the list cannot begin with. -/
theorem cutList_blank {rest : List Char} (h : rest.head? ≠ some 'F') (piece : List Char) :
    cutList .top piece (' ' :: rest) = cutList .top (piece ++ [' ']) rest := by
  have hfrom : " FROM ".toList.isPrefixOf (' ' :: rest) = false := by
    cases rest with
    | nil => rfl
    | cons c rest =>
      have hc : ('F' == c) = false := beq_false_of_ne fun heq => h (congrArg some heq.symm)
      show ((' ' == ' ') && (('F' == c) && _)) = false
      rw [hc, Bool.false_and, Bool.and_false]
  rw [cutList, if_neg (by decide), if_neg (fun h => absurd h.2 (by rw [hfrom]; decide))]
  rfl

/-- Where a fixed text leads, if the reader takes all of it over whatever follows. A blank outside
of parentheses must have a character behind it that tells it from ` FROM `. -/
def Place.through? (p : Place) : List Char → Option Place
  | [] => some p
  | c :: rest =>
    if p = .top ∧ (c = ',' ∨ c = ' ' ∧ (rest = [] ∨ rest.head? = some 'F')) then none
    else (p.next c).through? rest

/-- What is passed character by character is passed. -/
theorem passes_of_through? {p q : Place} {s : List Char} (h : p.through? s = some q) :
    Passes p q s := by
  induction s generalizing p with
  | nil =>
    obtain rfl := Option.some.inj h
    intro piece rest
    rw [List.nil_append, List.append_nil]
  | cons c s ih =>
    rw [Place.through?] at h
    split at h
    · cases h
    · rename_i hnot
      have htail := ih h
      intro piece rest
      by_cases hblank : p = .top ∧ c = ' '
      · obtain ⟨rfl, rfl⟩ := hblank
        -- The character behind the blank is part of the text, and it is the wrong one.
        have hhead : (s ++ rest).head? ≠ some 'F' := by
          cases s with
          | nil => exact absurd ⟨rfl, .inr ⟨rfl, .inl rfl⟩⟩ hnot
          | cons d s => exact fun hd => hnot ⟨rfl, .inr ⟨rfl, .inr hd⟩⟩
        have hrest := htail (piece ++ [' ']) rest
        rw [List.append_assoc, List.singleton_append] at hrest
        rw [List.cons_append, cutList_blank hhead]
        exact hrest
      · have hchar : p ≠ .top ∨ c ≠ ',' ∧ c ≠ ' ' := by
          by_cases hp : p = .top
          · exact .inr ⟨fun hc => hnot ⟨hp, .inl hc⟩, fun hc => hblank ⟨hp, hc⟩⟩
          · exact .inl hp
        exact (passes_char hchar).append htail piece rest

/-- A quoted name is taken over whatever it holds. -/
theorem passes_quoteChars (depth : Nat) (name : List Char) :
    Passes ⟨false, depth⟩ ⟨false, depth⟩ (Identifier.quoteChars name) := by
  -- A doubled quote leaves the name and enters it again.
  have hquote (p : Place) : Passes p ⟨!p.quoted, p.depth⟩ ['"'] :=
    passes_char (.inr ⟨by decide, by decide⟩)
  have hname : Passes ⟨true, depth⟩ ⟨true, depth⟩
      (name.flatMap fun c => if c = '"' then ['"', '"'] else [c]) := by
    induction name with
    | nil => exact passes_of_through? rfl
    | cons c name ih =>
      rw [List.flatMap_cons]
      refine Passes.append ?_ ih
      split
      · exact (hquote ⟨true, depth⟩).append (hquote ⟨false, depth⟩)
      · rename_i hc
        have hchar := passes_char (p := ⟨true, depth⟩) (c := c) (.inl (by simp [Place.top]))
        rwa [Place.next, if_neg hc, if_pos rfl] at hchar
  exact (hquote ⟨false, depth⟩).append (hname.append (hquote ⟨true, depth⟩))

/-! ## Expressions in a list -/

/-- An expression that may stand in a list: nothing in it is cut, and it begins neither with a blank
nor like the end of the list. -/
structure Item (sql : Sql) : Prop where
  passes : Passes .top .top sql.render.toList
  starts : ∃ c, sql.render.toList.head? = some c ∧ c ≠ ' ' ∧ c ≠ 'F'

theorem toList_render_append (a b : Sql) :
    (a ++ b).render.toList = a.render.toList ++ b.render.toList := by
  rw [render_append, String.toList_append]

theorem toList_render_name (name : String) :
    (render [.name name]).toList = Identifier.quoteChars name.toList := by
  simp [render, Token.render, Identifier.quote]

/-- A name with a fixed text behind it. -/
theorem Item.name {name : String} {behind : Sql}
    (h : Place.through? .top behind.render.toList = some .top) : Item (.name name :: behind) := by
  have htext : (render (.name name :: behind)).toList =
      Identifier.quoteChars name.toList ++ behind.render.toList := by
    rw [← List.singleton_append, toList_render_append, toList_render_name]
  constructor
  · rw [htext]
    exact (passes_quoteChars 0 name.toList).append (passes_of_through? h)
  · rw [htext]
    exact ⟨'"', rfl, by decide, by decide⟩

theorem Item.asText (c : Column) : Item (VectorTable.asText c) := .name (by decide)

theorem Item.selectExpression (c : Column) : Item c.selectExpression := by
  unfold Column.selectExpression
  split
  · exact Item.name (by decide)
  · exact Item.name rfl

/-- The call of a function: the name stands in parentheses, which are closed in the end. -/
theorem Item.call (before : Sql) (name : String) (depth : Nat) (behind : Sql)
    (hbefore : Place.through? .top before.render.toList = some ⟨false, depth⟩)
    (hbehind : Place.through? ⟨false, depth⟩ behind.render.toList = some .top)
    (hstarts : ∃ c, before.render.toList.head? = some c ∧ c ≠ ' ' ∧ c ≠ 'F') :
    Item (before ++ [Token.name name] ++ behind) := by
  have htext : (before ++ [Token.name name] ++ behind).render.toList =
      before.render.toList ++ Identifier.quoteChars name.toList ++ behind.render.toList := by
    rw [toList_render_append, toList_render_append, toList_render_name]
  constructor
  · rw [htext]
    exact ((passes_of_through? hbefore).append (passes_quoteChars depth name.toList)).append
      (passes_of_through? hbehind)
  · obtain ⟨c, hc, hne⟩ := hstarts
    refine ⟨c, ?_, hne⟩
    rw [htext, List.append_assoc, List.head?_append, hc]
    rfl

theorem Item.distance (strategy : DistanceStrategy) (name : String) :
    Item (strategy.distanceExpression [.name name] [.slot 1] ++ [.text " AS distance"]) := by
  cases strategy with
  | euclidean =>
    exact .call [.text "l2_distance", .text "("] name 1
      [.text ", ", .slot 1, .text ")", .text " AS distance"]
      (by decide) (by decide) ⟨'l', by decide, by decide, by decide⟩
  | cosine =>
    exact .call [.text "cosine_distance", .text "("] name 1
      [.text ", ", .slot 1, .text ")", .text " AS distance"]
      (by decide) (by decide) ⟨'c', by decide, by decide, by decide⟩
  | innerProduct =>
    exact .call [.text "(", .text "inner_product", .text "("] name 2
      [.text ", ", .slot 1, .text ") * -1)", .text " AS distance"]
      (by decide) (by decide) ⟨'(', by decide, by decide, by decide⟩

/-! ## The list -/

theorem exists_commas_cons (a : Sql) (parts : List Sql) :
    ∃ rest, commas (a :: parts) = a ++ rest := by
  cases parts with
  | nil => exact ⟨[], by simp [commas, separated]⟩
  | cons b parts => exact ⟨_, commas_cons_cons a b parts⟩

/-- A list is cut into its expressions. Each but the first has the blank behind the comma. -/
theorem cutList_commas {a : Sql} {parts : List Sql} (ha : Item a) (h : ∀ b ∈ parts, Item b)
    (piece rest : List Char) :
    cutList .top piece ((commas (a :: parts)).render.toList ++ (" FROM ".toList ++ rest)) =
      some ((piece ++ a.render.toList) :: parts.map fun b => ' ' :: b.render.toList) := by
  induction parts generalizing a piece with
  | nil =>
    have hsingle : commas [a] = a := by simp [commas, separated]
    rw [hsingle, ha.passes]
    rfl
  | cons b parts ih =>
    obtain ⟨hb, hparts⟩ := List.forall_mem_cons.mp h
    have hcomma : (commas (a :: b :: parts)).render.toList =
        a.render.toList ++ (',' :: ' ' :: (commas (b :: parts)).render.toList) := by
      rw [commas_cons_cons, toList_render_append, render_cons, String.toList_append]
      rfl
    -- What follows the comma begins like the next expression, so the list does not end here.
    have hhead : ((commas (b :: parts)).render.toList ++ (" FROM ".toList ++ rest)).head? ≠
        some 'F' := by
      obtain ⟨more, hmore⟩ := exists_commas_cons b parts
      obtain ⟨c, hc, -, hF⟩ := hb.starts
      rw [hmore, toList_render_append, List.append_assoc, List.head?_append, hc]
      exact fun heq => hF (Option.some.inj heq)
    rw [hcomma, List.append_assoc, ha.passes, List.cons_append, List.cons_append, cutList,
      if_pos ⟨rfl, rfl⟩, cutList_blank hhead, List.nil_append, ih hb hparts]
    rfl

/-- An item does not start with a blank. -/
theorem Item.dropWhile_render {a : Sql} (h : Item a) :
    a.render.toList.dropWhile (· = ' ') = a.render.toList := by
  obtain ⟨c, hc, hblank, -⟩ := h.starts
  cases htext : a.render.toList with
  | nil => rfl
  | cons d s =>
    rw [htext] at hc
    obtain rfl := Option.some.inj hc
    rw [List.dropWhile_cons_of_neg (by simpa using hblank)]

/-- **The items of a list** are found between its commas, which none of them has at its top. -/
theorem selected?_commas {a : Sql} {parts : List Sql} (h : ∀ b ∈ a :: parts, Item b)
    {text : String} (rest : List Char)
    (htext : text.toList =
      "SELECT ".toList ++ ((commas (a :: parts)).render.toList ++ (" FROM ".toList ++ rest))) :
    selected? text = some ((a :: parts).map render) := by
  obtain ⟨ha, hparts⟩ := List.forall_mem_cons.mp h
  -- Behind a comma there is a blank, which is cut off.
  have htrim : (parts.map fun b => ' ' :: b.render.toList).map
      (fun piece => String.ofList (piece.dropWhile (· = ' '))) = parts.map render := by
    rw [List.map_map]
    refine List.map_congr_left ?_
    intro b hb
    rw [Function.comp_apply, List.dropWhile_cons_of_pos (by decide), (hparts b hb).dropWhile_render,
      String.ofList_toList]
  have hlength : "SELECT ".toList.length = 7 := by decide
  unfold selected?
  rw [htext, ← hlength, List.take_left, List.drop_left, if_pos rfl, cutList_commas ha hparts,
    List.nil_append, Option.map_some, List.map_cons, htrim, ha.dropWhile_render,
    String.ofList_toList]
  rfl

end Sql

/-- **The expressions of a search.** Its text selects what the search was made to select, whatever
the names are and whatever follows the list. -/
theorem Sql.selected?_searchStatement (catalog : Catalog) (strategy : DistanceStrategy)
    (predicate : Option Predicate) (limit : UInt64) (b : Bindings) :
    Sql.selected? (searchStatement catalog strategy predicate limit b).sql.render =
      some ((selectList catalog strategy).map Sql.render) := by
  have hitems : ∀ sql ∈ selectList catalog strategy, Item sql := by
    intro sql hsql
    simp only [selectList, List.mem_append, List.mem_map, List.mem_cons, List.not_mem_nil,
      or_false] at hsql
    rcases hsql with ((⟨c, -, rfl⟩ | rfl | rfl | rfl) | ⟨c, -, rfl⟩) | rfl
    · exact .selectExpression c
    · exact .asText _
    · exact .asText _
    · exact Item.name rfl
    · exact .asText c
    · exact .distance strategy _
  obtain ⟨a, parts, hlist⟩ : ∃ a parts, selectList catalog strategy = a :: parts :=
    List.exists_cons_of_ne_nil (by simp [selectList])
  rw [hlist] at hitems ⊢
  -- What stands behind the list does not matter.
  obtain ⟨rest, hrest⟩ : ∃ rest : Sql, (searchStatement catalog strategy predicate limit b).sql =
      [.text "SELECT "] ++ (Sql.commas (a :: parts) ++ ([.text " FROM "] ++ rest)) := by
    rw [← hlist]
    exact ⟨_, by simp only [searchStatement, List.append_assoc]; rfl⟩
  refine selected?_commas hitems rest.render.toList ?_
  rw [hrest, toList_render_append, toList_render_append, toList_render_append]
  rfl

end VectorTable
