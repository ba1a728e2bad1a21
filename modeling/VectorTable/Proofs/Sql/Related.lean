import VectorTable.Proofs.Sql.StatementText

/-!
# VectorTable — statements that differ in their names

Two statements of the same making are compared token by token: their fixed texts and their slots
are equal, and each name in one is related to the name in its place in the other. Under equality
this makes them equal, and under any other relation they agree outside their names.

* `Sql.Related` — the comparison, kept by everything that statements are put together from;
* `Catalog.Alike` — tables with the same columns but for the names;
* `related_insertStatement`, `related_deleteStatement`, `related_searchStatement` — statements
  over such tables.
-/

namespace VectorTable

variable {N : String → String → Prop}

namespace Sql

/-- The same token, but for a name. -/
inductive Token.Related (N : String → String → Prop) : Token → Token → Prop where
  | text (s : String) : Related N (.text s) (.text s)
  | name {s s' : String} (h : N s s') : Related N (.name s) (.name s')
  | slot (n : Nat) : Related N (.slot n) (.slot n)

/-- The same tokens, but for the names. -/
def Related (N : String → String → Prop) (a b : Sql) : Prop := List.Forall₂ (Token.Related N) a b

namespace Related

variable {a a' b b' : Sql}

theorem nil : Related N [] [] := List.Forall₂.nil

theorem text (s : String) (h : Related N a a') : Related N (.text s :: a) (.text s :: a') :=
  .cons (.text s) h

theorem slot (n : Nat) (h : Related N a a') : Related N (.slot n :: a) (.slot n :: a') :=
  .cons (.slot n) h

theorem name {s s' : String} (hname : N s s') (h : Related N a a') :
    Related N (.name s :: a) (.name s' :: a') :=
  .cons (.name hname) h

theorem append (ha : Related N a a') (hb : Related N b b') : Related N (a ++ b) (a' ++ b') :=
  List.rel_append ha hb

theorem commas {parts parts' : List Sql} (h : List.Forall₂ (Related N) parts parts') :
    Related N (Sql.commas parts) (Sql.commas parts') := by
  induction h with
  | nil => exact nil
  | cons hfirst hrest ih =>
    cases hrest with
    | nil => simpa [Sql.commas, separated] using hfirst
    | cons hsecond hmore =>
      rw [commas_cons_cons, commas_cons_cons]
      exact hfirst.append (.text ", " ih)

theorem placeholder (n : Nat) {cast cast' : Option String} (h : Option.Rel N cast cast') :
    Related N (Sql.placeholder n cast) (Sql.placeholder n cast') := by
  cases h with
  | none => exact .slot n nil
  | some hname => exact .slot n (.text "::" (.name hname nil))

theorem qualified {schema schema' table table' : String} (hschema : N schema schema')
    (htable : N table table') :
    Related N (Sql.qualified schema table) (Sql.qualified schema' table') :=
  .name hschema (.text "." (.name htable nil))

/-- Statements with equal names are equal. -/
theorem eq (h : Related Eq a b) : a = b := by
  induction h with
  | nil => rfl
  | cons htoken _ ih =>
    rw [ih]
    cases htoken with
    | text s => rfl
    | name hname => rw [hname]
    | slot n => rfl

/-- Related statements have the same characters outside of their names. -/
theorem char?_glyphs (h : Related N a b) : a.glyphs.map Glyph.char? = b.glyphs.map Glyph.char? := by
  induction h with
  | nil => rfl
  | cons htoken _ ih =>
    rw [glyphs, glyphs, List.flatMap_cons, List.flatMap_cons, List.map_append, List.map_append]
    refine congrArg₂ (· ++ ·) ?_ ih
    cases htoken <;> rfl

/-- The texts of two statements agree outside their names. -/
theorem around_render (h : Related N a b) (ha : a.Readable) (hb : b.Readable) :
    around a.render = around b.render := by
  rw [around, around, cut_render ha, cut_render hb, Option.map_some, Option.map_some,
    h.char?_glyphs]

end Related

end Sql

/-! ## Tables with other names -/

/-- The same column, but for the names of it and of its type. -/
structure Column.Alike (N : String → String → Prop) (c c' : Column) : Prop where
  kind : c.kind = c'.kind
  name : N c.name c'.name
  typeName : N c.typeName c'.typeName

/-- The same table, but for names: corresponding columns have the same roles in the same order. -/
structure Catalog.Alike (N : String → String → Prop) (C : Column → Column → Prop)
    (c c' : Catalog) : Prop where
  schema : N c.schema c'.schema
  table : N c.table c'.table
  id : C c.id c'.id
  content : C c.content c'.content
  embedding : C c.embedding c'.embedding
  metadata : List.Forall₂ C c.metadata c'.metadata
  overflow : Option.Rel C c.overflow c'.overflow

theorem Column.Alike.refl (c : Column) : c.Alike Eq c := ⟨rfl, rfl, rfl⟩

theorem Catalog.Alike.refl (c : Catalog) : c.Alike Eq (Column.Alike Eq) c where
  schema := rfl
  table := rfl
  id := .refl c.id
  content := .refl c.content
  embedding := .refl c.embedding
  metadata := List.forall₂_same.mpr fun column _ => .refl column
  overflow := by
    cases c.overflow with
    | none => exact .none
    | some column => exact .some (.refl column)

/-- A weaker relation of columns. -/
theorem Catalog.Alike.imp {C D : Column → Column → Prop} (hCD : ∀ c c', C c c' → D c c')
    {c c' : Catalog} (h : c.Alike N C c') : c.Alike N D c' where
  schema := h.schema
  table := h.table
  id := hCD _ _ h.id
  content := hCD _ _ h.content
  embedding := hCD _ _ h.embedding
  metadata := h.metadata.imp hCD
  overflow := by
    have hoverflow := h.overflow
    generalize c.overflow = o at hoverflow ⊢
    generalize c'.overflow = o' at hoverflow ⊢
    cases hoverflow with
    | none => exact .none
    | some hcolumn => exact .some (hCD _ _ hcolumn)

theorem forall₂_toList {α β : Type} {r : α → β → Prop} {o : Option α} {o' : Option β}
    (h : Option.Rel r o o') : List.Forall₂ r o.toList o'.toList := by
  cases h with
  | none => exact .nil
  | some h => exact .cons h .nil

/-- Tables that are alike fill columns that are alike. -/
theorem Catalog.Alike.insertColumns {C : Column → Column → Prop} {c c' : Catalog}
    (h : c.Alike N C c') : List.Forall₂ C c.insertColumns c'.insertColumns :=
  List.rel_append (List.rel_append (.cons h.id (.cons h.content (.cons h.embedding .nil)))
    h.metadata) (forall₂_toList h.overflow)

/-! ## Their statements -/

/-- A value for the same slot, but for the name of the type that it is cast to. -/
def Param.Alike (N : String → String → Prop) (p p' : Param) : Prop := Option.Rel N p.cast p'.cast

theorem Target.slots_related (start : Nat) {params params' : List Param}
    (h : List.Forall₂ (Param.Alike N) params params') :
    List.Forall₂ (Sql.Related N) ((Target.slots start params).map Operand.sql)
      ((Target.slots start params').map Operand.sql) := by
  induction h generalizing start with
  | nil => exact .nil
  | cons hparam _ ih => exact .cons (.placeholder _ hparam) (ih (start + 1))

/-- Two rows that are cast at the same places. -/
theorem Sql.Related.tuple (start : Nat) {row row' : List Param}
    (h : List.Forall₂ (Param.Alike N) row row') :
    Sql.Related N (VectorTable.tuple start row) (VectorTable.tuple start row') := by
  rw [tuple_eq, tuple_eq]
  exact ((Sql.Related.text _ .nil).append (.commas (Target.slots_related start h))).append
    (.text _ .nil)

theorem Sql.Related.tuples (start : Nat) {rows rows' : List (List Param)}
    (h : List.Forall₂ (List.Forall₂ (Param.Alike N)) rows rows') :
    List.Forall₂ (Sql.Related N) (VectorTable.tuples start rows)
      (VectorTable.tuples start rows') := by
  induction h generalizing start with
  | nil => exact .nil
  | cons hrow _ ih =>
    rw [VectorTable.tuples, VectorTable.tuples, hrow.length_eq]
    exact .cons (.tuple start hrow) (ih _)

section

variable {catalog catalog' : Catalog} (h : catalog.Alike N (Column.Alike N) catalog')

include h

/-- Inserts of rows of one shape are related. -/
theorem related_insertStatement {rows rows' : List (List Param)}
    (hrows : List.Forall₂ (List.Forall₂ (Param.Alike N)) rows rows') :
    Sql.Related N (insertStatement catalog rows).sql (insertStatement catalog' rows').sql := by
  have hcolumns : List.Forall₂ (Sql.Related N)
      (catalog.insertColumns.map fun c => [.name c.name])
      (catalog'.insertColumns.map fun c => [.name c.name]) := by
    rw [List.forall₂_map_left_iff, List.forall₂_map_right_iff]
    exact h.insertColumns.imp fun _ _ hcolumn => .name hcolumn.name .nil
  have htable := (Sql.Related.text "INSERT INTO " .nil).append (.qualified h.schema h.table)
  exact ((((htable.append (.text _ .nil)).append (.commas hcolumns)).append
    (.text _ .nil)).append (.commas (Sql.Related.tuples 0 hrows)))

/-- Deletions are related, whichever ids they are of. -/
theorem related_deleteStatement (ids ids' : List Uuid) :
    Sql.Related N (deleteStatement catalog ids).sql (deleteStatement catalog' ids').sql := by
  have htable := (Sql.Related.text "DELETE FROM " .nil).append (.qualified h.schema h.table)
  exact htable.append (.text _ (.name h.id.name (.text _ (.slot 1 (.text _
    (.name h.id.typeName (.text _ .nil)))))))

/-- The lists of two searches select related columns, place by place. -/
theorem related_selectList (strategy : DistanceStrategy) :
    List.Forall₂ (Sql.Related N) (selectList catalog strategy) (selectList catalog' strategy) := by
  have hselect {c c' : Column} (hcolumn : c.Alike N c') :
      Sql.Related N c.selectExpression c'.selectExpression := by
    have hreads : c.readsAsText = c'.readsAsText := by
      unfold Column.readsAsText
      rw [hcolumn.kind]
    unfold Column.selectExpression
    rw [hreads]
    split
    · exact Sql.Related.name hcolumn.name (.text _ .nil)
    · exact Sql.Related.name hcolumn.name .nil
  have htext {c c' : Column} (hcolumn : c.Alike N c') : Sql.Related N (asText c) (asText c') :=
    .name hcolumn.name (.text _ .nil)
  have hmetadata : List.Forall₂ (Sql.Related N) (catalog.metadata.map Column.selectExpression)
      (catalog'.metadata.map Column.selectExpression) := by
    rw [List.forall₂_map_left_iff, List.forall₂_map_right_iff]
    exact h.metadata.imp fun _ _ hcolumn => hselect hcolumn
  have hoverflow : List.Forall₂ (Sql.Related N) (catalog.overflow.toList.map asText)
      (catalog'.overflow.toList.map asText) := by
    rw [List.forall₂_map_left_iff, List.forall₂_map_right_iff]
    exact (forall₂_toList h.overflow).imp fun _ _ hcolumn => htext hcolumn
  have hdistance : Sql.Related N
      (strategy.distanceExpression [.name catalog.embedding.name] [.slot 1])
      (strategy.distanceExpression [.name catalog'.embedding.name] [.slot 1]) := by
    -- The function and what closes its call are fixed by the strategy.
    have hcall (close : String) : Sql.Related N
        [.text "(", .name catalog.embedding.name, .text ", ", .slot 1, .text close]
        [.text "(", .name catalog'.embedding.name, .text ", ", .slot 1, .text close] :=
      .text _ (.name h.embedding.name (.text _ (.slot 1 (.text _ .nil))))
    cases strategy with
    | euclidean | cosine => exact .text _ (hcall ")")
    | innerProduct => exact .text _ (.text _ (hcall ") * -1)"))
  have hroles : List.Forall₂ (Sql.Related N)
      [asText catalog.id, asText catalog.content, [.name catalog.embedding.name]]
      [asText catalog'.id, asText catalog'.content, [.name catalog'.embedding.name]] :=
    .cons (htext h.id) (.cons (htext h.content) (.cons (.name h.embedding.name .nil) .nil))
  exact List.rel_append (List.rel_append (List.rel_append hmetadata hroles) hoverflow)
    (.cons (hdistance.append (.text _ .nil)) .nil)

/-- Searches are related if their conditions are, whatever they look for. -/
theorem related_searchStatement (strategy : DistanceStrategy)
    {predicate predicate' : Option Predicate}
    (hpredicate : Option.Rel (fun p p' => Sql.Related N p.sql p'.sql) predicate predicate')
    (limit limit' : UInt64) {b b' : Bindings} (hlength : b.toList.length = b'.toList.length) :
    Sql.Related N (searchStatement catalog strategy predicate limit b).sql
      (searchStatement catalog' strategy predicate' limit' b').sql := by
  have hselect := (Sql.Related.text "SELECT " .nil).append
    (.commas (related_selectList h strategy))
  have hfrom := (hselect.append (.text " FROM " .nil)).append (.qualified h.schema h.table)
  have horder : Sql.Related N
      (strategy.orderExpression [.name catalog.embedding.name] [.slot 1])
      (strategy.orderExpression [.name catalog'.embedding.name] [.slot 1]) := by
    cases strategy <;> exact .name h.embedding.name (.text _ (.text _ (.text _ (.slot 1 .nil))))
  have hlimit : Sql.Related N [.text " LIMIT ", .slot (b.push (limitValue limit)).1]
      [.text " LIMIT ", .slot (b'.push (limitValue limit')).1] := by
    have hslot : (b.push (limitValue limit)).1 = (b'.push (limitValue limit')).1 :=
      congrArg (· + 1) hlength
    rw [hslot]
    exact .text _ (.slot _ .nil)
  -- All but the condition is there in any case.
  have hcondition {condition condition' : Sql} (h : Sql.Related N condition condition') :=
    (((hfrom.append h).append (.text " ORDER BY " .nil)).append horder).append hlimit
  cases hpredicate with
  | none => exact hcondition .nil
  | some hp => exact hcondition (.text _ hp)

end

end VectorTable
