import VectorTable.Proofs.Sql.Expression

/-!
# VectorTable — the text of a predicate

A predicate is a tree; the database gets its text. This module proves that the text, read by the
rules of SQL, is the expression that the tree stands for: no parenthesis is missing, no operator
takes more or less than it should, and no name or slot runs into what follows it.

* `Predicate.expression` — what a predicate stands for;
* `Predicate.read_render` — its text denotes just that.
-/

namespace VectorTable

/-! ## What predicates stand for -/

/-- The JSON column as the database sees it: converted to `jsonb`. -/
def Sql.documentExpression (json : String) : Sql.Expression := .cast (.column json) "jsonb"

def Operand.expression : Operand → Sql.Expression
  | .column name => .column name
  | .bound slot none => .slot slot
  | .bound slot (some type) => .cast (.slot slot) type
  | .memberText json key => .memberText (Sql.documentExpression json) (.slot key)
  | .memberNumber json key =>
    .when
      (.compare .eq (.kind (.member (Sql.documentExpression json) (.slot key))) (.literal "number"))
      (.cast (.memberText (Sql.documentExpression json) (.slot key)) "numeric")

namespace Predicate

def expression : Predicate → Sql.Expression
  | .constant value => .truth value
  | .compare op left right => .compare op left.expression right.expression
  | .isNull e => .isNull e.expression
  | .isIn e list => .isIn e.expression (list.map Operand.expression)
  | .notIn e list => .notIn e.expression (list.map Operand.expression)
  | .and left right => .and left.expression right.expression
  | .or left right => .or left.expression right.expression
  | .not inner => .not inner.expression
  | .orFalse inner => .coalesce [inner.expression, .truth false]

/-- Every list has an element; SQL has no empty lists. -/
def Listed : Predicate → Prop
  | .constant _ | .compare _ _ _ | .isNull _ => True
  | .isIn _ list | .notIn _ list => list ≠ []
  | .and left right | .or left right => left.Listed ∧ right.Listed
  | .not inner | .orFalse inner => inner.Listed

end Predicate

namespace Sql

/-! ## No token runs into the next one -/

/-- The characters that end an expression inside a statement. -/
def delimiters : List Char := [' ', ')', ',', ':']

/-- A delimiter is not part of the token before it. -/
def Token.Closed (t : Token) : Prop := ∀ c ∈ delimiters, t.ending.extend c = none

/-- Only an operator could be part of the token before it. -/
def Token.Open (t : Token) : Prop :=
  match t.ending with
  | .nothing | .symbol _ => True
  | _ => False

/-- A text that may stand after a phrase. -/
def Follows (s : String) : Prop := ∃ c ∈ s.toList.head?, c ∈ delimiters

/-- A text that a phrase may start with. -/
def Begins (s : String) : Prop := ∃ c ∈ s.toList.head?, classOf c ≠ .operator

-- These look at the listed characters only; to go through all characters would take too long.
instance (t : Token) : Decidable t.Closed :=
  decidable_of_iff (delimiters.all (t.ending.extend · = none) = true) (by simp [Token.Closed])

instance (t : Token) : Decidable t.Open := by
  unfold Token.Open
  exact match t.ending with
    | .nothing | .symbol _ => .isTrue trivial
    | .word _ | .dollar | .slot _ | .name _ | .nameQuote _ | .literal _ | .literalQuote _ =>
      .isFalse id

instance (s : String) : Decidable (Follows s) :=
  decidable_of_iff (s.toList.head?.any (· ∈ delimiters) = true)
    (by simp [Follows, Option.any_eq_true])

instance (s : String) : Decidable (Begins s) :=
  decidable_of_iff (s.toList.head?.any (classOf · ≠ .operator) = true)
    (by simp [Begins, Option.any_eq_true])

/-- Tokens that stand for an expression inside a larger statement. -/
structure Phrase (sql : Sql) : Prop where
  parted : sql.Parted
  starts : ∃ t rest c, sql = t :: rest ∧ t.first? = some c ∧ classOf c ≠ .operator
  closes : ∃ t, sql.getLast? = some t ∧ t.Closed

/-- What holds of every delimiter, one by one. -/
theorem forall_mem_delimiters {p : Char → Prop} :
    (∀ c ∈ delimiters, p c) ↔ p ' ' ∧ p ')' ∧ p ',' ∧ p ':' := by
  simp [delimiters]

/-- A token that only an operator could go on with is ended by anything else. -/
theorem Token.Open.extend_eq_none {t : Token} (h : t.Open) {c : Char}
    (hc : classOf c ≠ .operator) : t.ending.extend c = none := by
  unfold Token.Open at h
  split at h
  case h_1 hnothing => rw [hnothing]; rfl
  case h_2 s hsymbol =>
    rw [hsymbol]
    unfold Pending.extend
    split <;> simp_all
  case h_3 => exact h.elim

/-- A quoted name is a phrase. -/
theorem Phrase.name (s : String) : Phrase [.name s] where
  parted := List.isChain_singleton _
  starts := ⟨_, _, '"', rfl, rfl, by decide⟩
  closes := ⟨_, rfl, forall_mem_delimiters.mpr ⟨rfl, rfl, rfl, rfl⟩⟩

/-- A slot is a phrase. -/
theorem Phrase.slot (n : Nat) : Phrase [.slot n] where
  parted := List.isChain_singleton _
  starts := ⟨_, _, '$', rfl, rfl, by decide⟩
  closes := ⟨_, rfl, forall_mem_delimiters.mpr ⟨rfl, rfl, rfl, rfl⟩⟩

/-- A text is a phrase if it begins and ends as one. -/
theorem Phrase.text {s : String} (hs : Begins s) (hclosed : (Token.text s).Closed) :
    Phrase [.text s] := by
  obtain ⟨c, hfirst, hclass⟩ := hs
  exact ⟨List.isChain_singleton _, ⟨_, _, c, rfl, hfirst, hclass⟩, ⟨_, rfl, hclosed⟩⟩

/-- What starts with a delimiter may follow a phrase. -/
theorem Phrase.parted_append {a b : Sql} (ha : Phrase a) {t : Token} (hb : Parted (t :: b))
    (hfirst : ∃ c, t.first? = some c ∧ c ∈ delimiters) : Parted (a ++ t :: b) := by
  obtain ⟨last, hlast, hclosed⟩ := ha.closes
  obtain ⟨c, hc, hdelimiter⟩ := hfirst
  refine List.isChain_append.mpr ⟨ha.parted, hb, fun x hx y hy => ?_⟩
  -- Only the last token of the one meets the first token of the other.
  cases Option.some.inj hy
  cases Option.some.inj (hlast.symm.trans hx)
  exact ⟨c, hc, hclosed c hdelimiter⟩

/-- A phrase, a text that leads on from it, and another phrase. -/
theorem Phrase.join {a b : Sql} (ha : Phrase a) {s : String} (hs : Follows s)
    (hopen : (Token.text s).Open) (hb : Phrase b) : Phrase (a ++ .text s :: b) := by
  obtain ⟨t, rest, c, rfl, hc⟩ := ha.starts
  obtain ⟨u, rest', d, rfl, hd, hclass⟩ := hb.starts
  have hnext : Parted (.text s :: u :: rest') :=
    List.isChain_cons_cons.mpr ⟨⟨d, hd, hopen.extend_eq_none hclass⟩, hb.parted⟩
  refine ⟨ha.parted_append hnext hs, ⟨t, _, c, rfl, hc⟩, ?_⟩
  · rw [List.getLast?_append_of_ne_nil _ (by simp), List.getLast?_cons_cons]
    exact hb.closes

/-- A phrase with a text before it. -/
theorem Phrase.after {a : Sql} (ha : Phrase a) {s : String} (hs : Begins s)
    (hopen : (Token.text s).Open) : Phrase (.text s :: a) := by
  obtain ⟨u, rest, d, rfl, hd, hdclass⟩ := ha.starts
  obtain ⟨c, hfirst, hclass⟩ := hs
  refine ⟨List.isChain_cons_cons.mpr ⟨⟨d, hd, hopen.extend_eq_none hdclass⟩, ha.parted⟩,
    ⟨.text s, _, c, rfl, hfirst, hclass⟩, ?_⟩
  rw [List.getLast?_cons_cons]
  exact ha.closes

/-- A phrase with a text after it. -/
theorem Phrase.before {a : Sql} (ha : Phrase a) {s : String} (hs : Follows s)
    (hclosed : (Token.text s).Closed) : Phrase (a ++ [.text s]) := by
  obtain ⟨t, rest, c, rfl, hc⟩ := ha.starts
  exact ⟨ha.parted_append (List.isChain_singleton _) hs, ⟨t, _, c, rfl, hc⟩,
    ⟨.text s, List.getLast?_concat, hclosed⟩⟩

/-- Phrases with the same text between any two. -/
theorem Phrase.separated {parts : List Sql} (hne : parts ≠ []) (h : ∀ p ∈ parts, Phrase p)
    {s : String} (hs : Follows s) (hopen : (Token.text s).Open) :
    Phrase (Sql.separated s parts) := by
  induction parts with
  | nil => exact absurd rfl hne
  | cons p rest ih =>
    have hp : Phrase p := h p List.mem_cons_self
    cases rest with
    | nil => simpa [Sql.separated] using hp
    | cons q rest =>
      have hrest := ih (by simp) fun r hr => h r (List.mem_cons_of_mem _ hr)
      exact hp.join hs hopen hrest

/-- A slot with the cast of its value, if any. -/
theorem Phrase.placeholder (n : Nat) (cast : Option String) :
    Phrase (Sql.placeholder n cast) := by
  cases cast with
  | none => exact .slot n
  | some type =>
    exact (Phrase.slot n).join (by decide) (by decide) (.name type)

end Sql

/-- Every operand is a phrase. -/
theorem Operand.phrase (o : Operand) : Sql.Phrase o.sql := by
  cases o with
  | column name => exact .name name
  | bound slot cast => exact .placeholder slot cast
  | memberText json key =>
    have hmember := (Sql.Phrase.name json).join (s := "::jsonb ->> ") (by decide) (by decide)
      (.slot key)
    exact (hmember.before (by decide) (by decide)).after (by decide) (by decide)
  | memberNumber json key =>
    have hmember := (Sql.Phrase.name json).join (s := "::jsonb -> ") (by decide) (by decide)
      (.slot key)
    have htext := (Sql.Phrase.name json).join (s := "::jsonb ->> ") (by decide) (by decide)
      (.slot key)
    have hboth := hmember.join (s := ") = 'number' THEN (") (by decide) (by decide) htext
    exact (hboth.before (by decide) (by decide)).after (by decide) (by decide)

/-- An operator between two phrases stands between blanks. -/
theorem Sql.Phrase.operation {a b : Sql} (ha : Phrase a) (hb : Phrase b) {op : String}
    (hop : (Token.text " ").Parts (.text op)) (hblank : (Token.text op).Parts (.text " ")) :
    Phrase (a ++ .text " " :: .text op :: .text " " :: b) := by
  obtain ⟨t, rest, c, rfl, hc⟩ := ha.starts
  obtain ⟨u, rest', d, rfl, hd, hclass⟩ := hb.starts
  have hright : Parted (.text " " :: u :: rest') :=
    List.isChain_cons_cons.mpr ⟨⟨d, hd, rfl⟩, hb.parted⟩
  have hnext := List.isChain_cons_cons.mpr ⟨hop, List.isChain_cons_cons.mpr ⟨hblank, hright⟩⟩
  refine ⟨ha.parted_append hnext ⟨' ', by decide, by decide⟩, ⟨t, _, c, rfl, hc⟩, ?_⟩
  · rw [List.getLast?_append_of_ne_nil _ (by simp), List.getLast?_cons_cons,
      List.getLast?_cons_cons, List.getLast?_cons_cons]
    exact hb.closes

/-- A comparison of two phrases is a phrase. -/
theorem Sql.Phrase.compare {a b : Sql} (ha : Phrase a) (hb : Phrase b) (op : Comparison) :
    Phrase (a ++ .text " " :: .text op.symbol :: .text " " :: b) := by
  refine ha.operation hb ?_ ?_
  · cases op
    case eq => exact ⟨'=', by decide, rfl⟩
    case ne | lt | le => exact ⟨'<', by decide, rfl⟩
    case gt | ge => exact ⟨'>', by decide, rfl⟩
  · cases op <;> exact ⟨' ', by decide, by decide⟩

/-- Operands with commas between them are a phrase. -/
theorem Operand.phrase_commas {list : List Operand} (h : list ≠ []) :
    Sql.Phrase (Sql.commas (list.map Operand.sql)) := by
  refine .separated (by simpa using h) ?_ (by decide) (by decide)
  intro sql hsql
  obtain ⟨o, -, rfl⟩ := List.mem_map.mp hsql
  exact o.phrase

/-- Every predicate is a phrase, unless it has a list without values. -/
theorem Predicate.phrase {p : Predicate} (h : p.Listed) : Sql.Phrase p.sql := by
  induction p with
  | constant value => cases value <;> exact .text (by decide) (by decide)
  | compare op left right =>
    simpa [Predicate.sql] using left.phrase.compare right.phrase op
  | isNull e => exact e.phrase.before (by decide) (by decide)
  | isIn e list =>
    have hlist := (Operand.phrase_commas h).before (s := ")") (by decide) (by decide)
    simpa [Predicate.sql] using e.phrase.join (s := " IN (") (by decide) (by decide) hlist
  | notIn e list =>
    have hlist := (Operand.phrase_commas h).before (s := ")") (by decide) (by decide)
    simpa [Predicate.sql] using e.phrase.join (s := " NOT IN (") (by decide) (by decide) hlist
  | and left right ihLeft ihRight =>
    have hboth := (ihLeft h.1).join (s := " AND ") (by decide) (by decide) (ihRight h.2)
    simpa [Predicate.sql] using
      (hboth.before (s := ")") (by decide) (by decide)).after (s := "(") (by decide) (by decide)
  | or left right ihLeft ihRight =>
    have hboth := (ihLeft h.1).join (s := " OR ") (by decide) (by decide) (ihRight h.2)
    simpa [Predicate.sql] using
      (hboth.before (s := ")") (by decide) (by decide)).after (s := "(") (by decide) (by decide)
  | not inner ih =>
    simpa [Predicate.sql] using
      ((ih h).before (s := ")") (by decide) (by decide)).after (s := "(NOT ") (by decide)
        (by decide)
  | orFalse inner ih =>
    simpa [Predicate.sql] using
      ((ih h).before (s := ", FALSE)") (by decide) (by decide)).after (s := "COALESCE(")
        (by decide) (by decide)

/-! ## Reading the lexemes -/

namespace Sql.Reading

/-- An operand is read as the expression that it stands for. -/
theorem run_operand (o : Operand) (frames : List Frame) :
    run (.operand, frames) o.sql.lexemes = some (.operator o.expression, frames) := by
  cases o with
  | column name => rfl
  | bound slot cast => cases cast <;> rfl
  | memberText json key => rfl
  | memberNumber json key => rfl

/-- The operands of a list, up to its closing parenthesis. -/
theorem run_list (negative : Bool) (left : Expression) (items : List Expression)
    (frames : List Frame) {list : List Operand} (h : list ≠ []) :
    run (.operand, .list negative left items :: frames)
        ((commas (list.map Operand.sql)).lexemes ++ (Token.text ")").lexemes) =
      some (.operator (if negative then .notIn left (items ++ list.map Operand.expression)
        else .isIn left (items ++ list.map Operand.expression)), frames) := by
  induction list generalizing items with
  | nil => exact absurd rfl h
  | cons o rest ih =>
    cases rest with
    | nil =>
      -- the last operand, before the closing parenthesis
      have hone : commas ([o].map Operand.sql) = o.sql := by simp [commas, separated]
      rw [hone, run_append, run_operand]
      rfl
    | cons p rest =>
      -- an operand before a comma, which puts it with the items
      have hmore : commas ((o :: p :: rest).map Operand.sql) =
          o.sql ++ .text ", " :: commas ((p :: rest).map Operand.sql) := by
        simp [commas, separated]
      have hcomma : run (.operator o.expression, .list negative left items :: frames)
          (Token.text ", ").lexemes =
          some (.operand, .list negative left (items ++ [o.expression]) :: frames) := rfl
      rw [hmore, lexemes_append, List.append_assoc, run_append, run_operand]
      simp only [Option.bind_some]
      rw [lexemes_cons, List.append_assoc, run_append, hcomma]
      simp only [Option.bind_some]
      rw [ih (items ++ [o.expression]) (by simp)]
      simp

/-- The tokens are read as an expression wherever a condition is waited for. What their last
operator has not taken in yet, the next lexeme of the statement settles, and the stack below is
left as it was. -/
def Reads (sql : Sql) (expression : Expression) : Prop :=
  ∀ frames, Waiting frames → ∃ e inner,
    run (.operand, frames) sql.lexemes = some (.operator e, inner) ∧
      settle 3 e inner = (expression, frames)

/-- Two conditions between parentheses, with an operator that binds less tightly than they do. -/
theorem run_connective {left right : Sql} {l r : Expression} {op : Operator} {s : String}
    (hrank : op.rank < 3)
    (hs : ∀ e frames, run (.operator e, frames) (Token.text s).lexemes =
      some (.operand, .operator op (settle op.rank e frames).1 :: (settle op.rank e frames).2))
    (hleft : Reads left l) (hright : Reads right r) (frames : List Frame) :
    run (.operand, frames)
        (lexemes ([.text "("] ++ left ++ [.text s] ++ right ++ [.text ")"])) =
      some (.operator (op.apply l r), frames) := by
  have hopen : run (.operand, frames) (Token.text "(").lexemes =
      some (.operand, .group :: frames) := rfl
  obtain ⟨e, inner, hrunLeft, hsettleLeft⟩ := hleft (.group :: frames) trivial
  -- the left side is settled by the operator
  have hop : settle op.rank e inner = (l, .group :: frames) := by
    rw [← settle_settle (Nat.le_of_lt hrank), hsettleLeft]
    rfl
  obtain ⟨e', inner', hrunRight, hsettleRight⟩ :=
    hright (.operator op l :: .group :: frames) hrank
  -- and the right side, with the operator itself, by the closing parenthesis
  have hclose : run (.operator e', inner') (Token.text ")").lexemes =
      some (.operator (op.apply l r), frames) := by
    have hsettle : settle 0 e' inner' = (op.apply l r, .group :: frames) := by
      rw [← settle_settle (Nat.zero_le 3), hsettleRight]
      simp [settle]
    show (close e' inner').bind (run · []) = _
    simp [close, hsettle]
  simp [run_append, hopen, hrunLeft, hs, hop, hrunRight, hclose]

/-- A comparison is put on a stack that waits for a condition. -/
theorem push_compare (op : Comparison) (e : Expression) {frames : List Frame}
    (h : Waiting frames) :
    push (.compare op) e frames = some (.operand, .operator (.compare op) e :: frames) := by
  have hsettle := settle_of_waiting h (show 3 ≤ 5 by decide) e
  cases frames with
  | nil => rfl
  | cons frame frames =>
    simp only [push, hsettle]
    cases frame with
    | operator op' left =>
      -- A comparison is no operand of a comparison, so none is waiting.
      cases op' with
      | compare _ => exact absurd (show (4 : Nat) < 3 from h) (by decide)
      | or | and | member | memberText => rfl
    | group | not | call | list | condition | result => rfl

/-- The symbol of a comparison is read as its operator. -/
theorem run_symbol (op : Comparison) (e : Expression) (frames : List Frame) :
    run (.operator e, frames) (lexemes [.text " ", .text op.symbol, .text " "]) =
      push (.compare op) e frames := by
  have hone : run (.operator e, frames) (lexemes [.text " ", .text op.symbol, .text " "]) =
      (push (.compare op) e frames).bind (run · []) := by
    cases op <;> rfl
  rw [hone]
  simp

/-- A key word that takes the operand before it leaves alone whatever waits for a condition. -/
theorem run_after (o : Operand) {frames : List Frame} (h : Waiting frames) {rank : Nat}
    (hrank : 3 ≤ rank) (expected : Expression → Expected) {s : String} (rest : List Lexeme)
    (hs : ∀ e, run (.operator e, frames) (Token.text s).lexemes =
      (after rank expected e frames).bind (run · rest)) :
    run (.operand, frames) (lexemes (o.sql ++ [.text s])) =
      run (expected o.expression, frames) rest := by
  have hsettle := settle_of_waiting h hrank o.expression
  simp only [lexemes_append, run_append, run_operand, Option.bind_some]
  rw [lexemes_cons, lexemes_nil, List.append_nil, hs]
  simp [after, hsettle]

/-- A condition is read as a whole. -/
theorem run_predicate {p : Predicate} (h : p.Listed) : Reads p.sql p.expression := by
  -- All cases but a comparison end with a lexeme that leaves nothing to be settled.
  induction p with
  | constant value =>
    intro frames hframes
    refine ⟨.truth value, frames, ?_, settle_of_waiting hframes (by decide) _⟩
    cases value <;> rfl
  | compare op left right =>
    intro frames hframes
    refine ⟨right.expression, .operator (.compare op) left.expression :: frames, ?_, ?_⟩
    · simp only [Predicate.sql, lexemes_append, run_append, run_operand, Option.bind_some,
        run_symbol, push_compare op left.expression hframes]
    · exact settle_of_waiting hframes (by decide) _
  | isNull e =>
    intro frames hframes
    refine ⟨.isNull e.expression, frames, ?_, settle_of_waiting hframes (by decide) _⟩
    have hkey := run_after e hframes (show 3 ≤ 4 by decide) .nullKey (s := " IS NULL")
      [.word "null"] (fun _ => rfl)
    rw [Predicate.sql, hkey]
    rfl
  | isIn e list =>
    intro frames hframes
    refine ⟨.isIn e.expression (list.map Operand.expression), frames, ?_,
      settle_of_waiting hframes (by decide) _⟩
    have hkey := run_after e hframes (show 3 ≤ 6 by decide) (.list false) (s := " IN (")
      [.symbol "("] (fun _ => rfl)
    have hlist := run_list false e.expression [] frames h
    rw [Predicate.sql, List.append_assoc, lexemes_append, run_append, hkey]
    simpa [step] using hlist
  | notIn e list =>
    intro frames hframes
    refine ⟨.notIn e.expression (list.map Operand.expression), frames, ?_,
      settle_of_waiting hframes (by decide) _⟩
    have hkey := run_after e hframes (show 3 ≤ 6 by decide) .inKey (s := " NOT IN (")
      [.word "in", .symbol "("] (fun _ => rfl)
    have hlist := run_list true e.expression [] frames h
    rw [Predicate.sql, List.append_assoc, lexemes_append, run_append, hkey]
    simpa [step] using hlist
  | and left right ihLeft ihRight =>
    intro frames hframes
    refine ⟨_, frames, ?_, settle_of_waiting hframes (by decide) _⟩
    exact run_connective (show Operator.and.rank < 3 by decide) (fun _ _ => rfl)
      (ihLeft h.1) (ihRight h.2) frames
  | or left right ihLeft ihRight =>
    intro frames hframes
    refine ⟨_, frames, ?_, settle_of_waiting hframes (by decide) _⟩
    exact run_connective (show Operator.or.rank < 3 by decide) (fun _ _ => rfl)
      (ihLeft h.1) (ihRight h.2) frames
  | not inner ih =>
    intro frames hframes
    refine ⟨.not inner.expression, frames, ?_, settle_of_waiting hframes (by decide) _⟩
    have hopen : run (.operand, frames) (Token.text "(NOT ").lexemes =
        some (.operand, .not :: .group :: frames) := rfl
    obtain ⟨e, rest, hrun, hsettle⟩ := ih h (.not :: .group :: frames) trivial
    have hclose : run (.operator e, rest) (Token.text ")").lexemes =
        (close e rest).bind (run · []) := rfl
    have hzero : settle 0 e rest = (.not inner.expression, .group :: frames) := by
      rw [← settle_settle (Nat.zero_le 3), hsettle]
      rfl
    simp [Predicate.sql, run_append, hopen, hrun, hclose, close, hzero]
  | orFalse inner ih =>
    intro frames hframes
    refine ⟨.coalesce [inner.expression, .truth false], frames, ?_,
      settle_of_waiting hframes (by decide) _⟩
    have hopen : run (.operand, frames) (Token.text "COALESCE(").lexemes =
        some (.operand, .call .coalesce [] :: frames) := rfl
    obtain ⟨e, rest, hrun, hsettle⟩ := ih h (.call .coalesce [] :: frames) trivial
    have hclose : run (.operator e, rest) (Token.text ", FALSE)").lexemes =
        (next e rest).bind (run · [.word "false", .symbol ")"]) := rfl
    have hzero : settle 0 e rest = (inner.expression, .call .coalesce [] :: frames) := by
      rw [← settle_settle (Nat.zero_le 3), hsettle]
      rfl
    simp [Predicate.sql, run_append, hopen, hrun, hclose, next, hzero]
    rfl

end Sql.Reading

/-- **The text of a predicate denotes it.** Scanned and read by the rules of SQL, the text of a
predicate is the expression that the predicate stands for. -/
theorem Predicate.read_render {p : Predicate} (h : p.Listed) :
    Sql.read p.sql.render = some p.expression := by
  obtain ⟨e, frames, hrun, hsettle⟩ := Sql.Reading.run_predicate h [] trivial
  have hzero : Sql.Reading.settle 0 e frames = (p.expression, []) := by
    rw [← Sql.Reading.settle_settle (Nat.zero_le 3), hsettle]
    rfl
  rw [Sql.read, Sql.scan_render (Predicate.phrase h).parted, hrun]
  simp [Sql.Reading.result?, hzero]

end VectorTable
