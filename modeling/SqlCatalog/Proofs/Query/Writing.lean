import SqlCatalog.Proofs.Query.Layout

/-!
# Rendering writes layouts

Rendering threads a speller through the parts of a statement. Each part writes the pieces of its
layout, the places being the next ones of the speller it gets, and hands on the speller after
them. Since fragments are put together by appending alone, the same holds of every whole.

## Main definitions

* `Writes` says that a rendering writes a layout, `WritesAll` that one writes several.

## Main statements

* `writes_expression` and its companions: the four kinds of syntax write their layouts.
* `writes_statement`: a statement writes its layout.
-/

namespace SqlCatalog

/-! ## Fragments under appending -/

namespace Fragment

variable (f g h : Fragment)

@[simp] theorem empty_append : empty.append f = f := by
  simp [append, empty]

@[simp] theorem append_empty : f.append empty = f := by
  simp [append, empty]

theorem append_assoc : (f.append g).append h = f.append (g.append h) := by
  simp [append, String.append_assoc]

theorem pushText_eq_append (s : String) : f.pushText s = f.append (ofText s) := by
  simp [pushText, append, ofText]

theorem ofText_append (s t : String) : ofText (s ++ t) = (ofText s).append (ofText t) := by
  simp [append, ofText]

theorem concat_cons (fs : List Fragment) : concat (f :: fs) = f.append (concat fs) := rfl

@[simp] theorem concat_nil : concat [] = empty := rfl

end Fragment

/-! ## Spellers -/

namespace Speller

variable (g : Speller)

@[simp] theorem after_zero : g.after 0 = g := rfl

/-- A speller that goes on twice goes on by both counts. -/
theorem after_after (m n : Nat) : (g.after m).after n = g.after (m + n) := by
  simp [after, Nat.add_assoc]

end Speller

/-! ## Spelling layouts -/

namespace Layout

variable (quote : String → String) (g : Speller)

@[simp] theorem places_nil : places [] = 0 := rfl

@[simp] theorem places_cons (p : Piece) (l : Layout) : places (p :: l) = p.places + places l := rfl

@[simp] theorem places_append (l m : Layout) : places (l ++ m) = places l + places m := by
  induction l with
  | nil => simp
  | cons p l ih => simp [ih, Nat.add_assoc]

@[simp] theorem spell_nil : spell quote g [] = .empty := rfl

/-- The first piece is spelled first, and the rest goes on behind its places. -/
theorem spell_cons (p : Piece) (l : Layout) :
    spell quote g (p :: l) = (p.spell quote g).append (spell quote (g.after p.places) l) := rfl

/-- Layouts are spelled one after the other, the second behind the places of the first. -/
theorem spell_append (l m : Layout) :
    spell quote g (l ++ m) = (spell quote g l).append (spell quote (g.after (places l)) m) := by
  induction l generalizing g with
  | nil => simp
  | cons p l ih =>
    rw [List.cons_append, spell_cons, spell_cons, ih, Fragment.append_assoc, places_cons,
      Speller.after_after]

@[simp] theorem spell_text_cons (s : String) (l : Layout) :
    spell quote g (.text s :: l) = (Fragment.ofText s).append (spell quote g l) := rfl

@[simp] theorem places_text (s : String) : (Piece.text s).places = 0 := rfl

@[simp] theorem places_inParens (l : Layout) : places (inParens l) = places l := by
  simp [inParens]

theorem spell_inParens (l : Layout) : spell quote g (inParens l) = (spell quote g l).inParens := by
  simp [inParens, spell_append, Fragment.inParens, Fragment.pushText_eq_append,
    Fragment.append_assoc]

@[simp] theorem places_inParensIf (needed : Bool) (l : Layout) :
    places (inParensIf needed l) = places l := by
  cases needed <;> simp [inParensIf]

theorem spell_inParensIf (needed : Bool) (l : Layout) :
    spell quote g (inParensIf needed l) = (spell quote g l).inParensIf needed := by
  cases needed
  · rfl
  · exact spell_inParens quote g l

/-- The places of several layouts. -/
def placesAll : List Layout → Nat
  | [] => 0
  | l :: ls => l.places + placesAll ls

theorem places_join (separator : String) (ls : List Layout) :
    places (join separator ls) = placesAll ls := by
  induction ls with
  | nil => rfl
  | cons l ls ih =>
    cases ls with
    | nil => simp [join, placesAll]
    | cons m ms => simp [join, ih, placesAll]

/-- Joining commutes with spelling: what stands between the layouts has no places. -/
theorem spell_join (separator : String) (ls : List Layout) :
    spell quote g (join separator ls) = Fragment.join separator (spellAll quote g ls) := by
  induction ls generalizing g with
  | nil => rfl
  | cons l ls ih =>
    cases ls with
    | nil => rfl
    | cons m ms =>
      show spell quote g (l ++ .text separator :: join separator (m :: ms)) = _
      rw [spell_append, spell_text_cons, ih, ← Fragment.append_assoc, ← Fragment.pushText_eq_append]
      rfl

theorem spell_listOr (text : String) (ls : List Layout) :
    spell quote g (listOr text ls) = Fragment.listOr text (spellAll quote g ls) := by
  cases ls with
  | nil => simp [listOr, Fragment.listOr, spellAll]
  | cons l ls => exact spell_join quote g ", " (l :: ls)

/-- A list after its words, or nothing, is spelled item by item. -/
theorem spell_listAfter (words : String) (ls : List Layout) :
    spell quote g (listAfter words ls) = Fragment.listAfter words (spellAll quote g ls) := by
  cases ls with
  | nil => rfl
  | cons l ls =>
    rw [listAfter, spell_text_cons, spell_join]
    rfl

@[simp] theorem places_listOr (text : String) (ls : List Layout) :
    places (listOr text ls) = placesAll ls := by
  cases ls with
  | nil => rfl
  | cons l ls => exact places_join ", " (l :: ls)

@[simp] theorem places_listAfter (words : String) (ls : List Layout) :
    places (listAfter words ls) = placesAll ls := by
  cases ls with
  | nil => rfl
  | cons l ls =>
    rw [listAfter, places_cons, places_join]
    exact Nat.zero_add _

end Layout

/-! ## Renderings that write layouts -/

/-- The rendering writes the layout, whatever was spelled before, and leaves the speller after
its places. -/
def Writes (quote : String → String) (m : Spelling Fragment) (l : Layout) : Prop :=
  ∀ g, m g = (l.spell quote g, g.after l.places)

/-- The rendering writes several layouts, one after the other. -/
def WritesAll (quote : String → String) (m : Spelling (List Fragment)) (ls : List Layout) : Prop :=
  ∀ g, m g = (Layout.spellAll quote g ls, g.after (Layout.placesAll ls))

/-- A rendering after another goes on with the speller that the other leaves. -/
theorem spelling_bind {α β : Type} (m : Spelling α) (f : α → Spelling β) (g : Speller) :
    (m >>= f) g = f (m g).1 (m g).2 := rfl

theorem spelling_pure {α : Type} (a : α) (g : Speller) : (pure a : Spelling α) g = (a, g) := rfl

theorem writes_argument (quote : String → String) (a : Argument) :
    Writes quote (Argument.render a) [.argument a] := by
  intro g
  rw [Layout.spell_cons, Layout.spell_nil, Fragment.append_empty]
  rfl

section Combinators

variable {quote : String → String} {m : Spelling Fragment} {l : Layout}

/-- A list of fragments that is rendered one after the other. -/
theorem WritesAll.cons {ms : Spelling (List Fragment)} {ls : List Layout} (h : Writes quote m l)
    (hs : WritesAll quote ms ls) :
    WritesAll quote (do return (← m) :: (← ms)) (l :: ls) := by
  intro g
  rw [spelling_bind, spelling_bind, h g, hs]
  simp only [spelling_pure, Layout.spellAll, Layout.placesAll, Speller.after_after]

theorem WritesAll.nil : WritesAll quote (return []) [] := fun _ => rfl

/-- What is rendered for each member of a list is written one after the other. -/
theorem WritesAll.mapM {α : Type} {f : α → Spelling Fragment} {layout : α → Layout}
    (h : ∀ a, Writes quote (f a) (layout a)) (items : List α) :
    WritesAll quote (items.mapM f) (items.map layout) := by
  induction items with
  | nil => exact WritesAll.nil
  | cons a items ih =>
    rw [List.mapM_cons, List.map_cons]
    exact WritesAll.cons (h a) ih

end Combinators

/-! ## The four kinds of syntax -/

mutual

/-- An expression writes its layout. -/
theorem writes_expression (quote : String → String) (scopes : List Scope) :
    ∀ e : Expression, Writes quote (e.render quote (scopes.headD [])) (e.layout scopes)
  | .column c => by
    intro g
    simp [Expression.render, Expression.layout, Layout.spell_cons, Piece.spell, Piece.places,
      spelling_pure]
  | .constant value => by
    simpa only [Expression.render, Expression.layout] using writes_argument quote (.value value)
  | .parameter p => by
    simpa only [Expression.render, Expression.layout] using writes_argument quote (.parameter p)
  | .tuple items => by
    intro g
    rw [Expression.render, Expression.layout, spelling_bind, writes_expressions quote scopes items,
      Layout.spell_inParens, Layout.spell_join, Layout.places_inParens, Layout.places_join]
    rfl
  | .call name arguments => by
    intro g
    rw [Expression.render, Expression.layout, spelling_bind,
      writes_expressions quote scopes arguments, Layout.spell_text_cons, Layout.spell_inParens,
      Layout.spell_join, Layout.places_cons, Layout.places_inParens, Layout.places_join]
    simp [spelling_pure]
  | .verbatim text => by
    intro g
    simp [Expression.render, Expression.layout, spelling_pure]
  | .subquery select => by
    intro g
    rw [Expression.render, Expression.layout, spelling_bind, writes_select quote scopes select,
      Layout.spell_inParens, Layout.places_inParens]
    rfl
  | .binary operator lhs rhs => by
    intro g
    rw [Expression.render, Expression.layout, spelling_bind, spelling_bind,
      writes_expression quote scopes lhs, writes_expression quote scopes rhs]
    simp [spelling_pure, Layout.spell_append, Layout.spell_inParensIf, Speller.after_after,
      Fragment.pushText_eq_append, Fragment.append_assoc]

/-- Several expressions write their layouts, one after the other. -/
theorem writes_expressions (quote : String → String) (scopes : List Scope) :
    ∀ es : List Expression,
      WritesAll quote (Expression.renderAll quote (scopes.headD []) es)
        (Expression.layouts scopes es)
  | [] => by
    simpa only [Expression.renderAll, Expression.layouts] using WritesAll.nil
  | e :: es => by
    simpa only [Expression.renderAll, Expression.layouts] using
      WritesAll.cons (writes_expression quote scopes e) (writes_expressions quote scopes es)

/-- A condition writes its layout. -/
theorem writes_comparison (quote : String → String) (scopes : List Scope) :
    ∀ c : Comparison, Writes quote (c.render quote (scopes.headD [])) (c.layout scopes)
  | .null operand negated => by
    intro g
    rw [Comparison.render, Comparison.layout, spelling_bind, writes_expression quote scopes operand]
    simp [spelling_pure, Layout.spell_append, Layout.spell_inParensIf,
      Fragment.pushText_eq_append]
  | .columns operator lhs rhs => by
    intro g
    simp [Comparison.render, Comparison.layout, spelling_pure, Layout.spell_cons, Piece.spell,
      Piece.places, Fragment.pushText_eq_append, Fragment.append_assoc]
  | .operands operator lhs rhs => by
    intro g
    rw [Comparison.render, Comparison.layout, spelling_bind, spelling_bind,
      writes_expression quote scopes lhs, writes_expression quote scopes rhs]
    simp [spelling_pure, Layout.spell_append, Layout.spell_inParensIf, Speller.after_after,
      Fragment.pushText_eq_append, Fragment.append_assoc]
  | .compound operator lhs rhs => by
    intro g
    rw [Comparison.render, Comparison.layout, spelling_bind, spelling_bind,
      writes_comparison quote scopes lhs, writes_comparison quote scopes rhs]
    simp [spelling_pure, Layout.spell_append, Layout.spell_inParensIf, Speller.after_after,
      Fragment.pushText_eq_append, Fragment.append_assoc]

/-- A source writes its layout. -/
theorem writes_source (quote : String → String) (scopes : List Scope) :
    ∀ s : Source, Writes quote (s.render quote (scopes.headD [])) (s.layout scopes)
  | .table t => by
    intro g
    simp [Source.render, Source.layout, spelling_pure, Layout.spell_cons, Piece.spell, Piece.places]
  | .join kind left right on => by
    intro g
    rw [Source.render, Source.layout, spelling_bind, spelling_bind, spelling_bind,
      writes_source quote scopes left, writes_source quote scopes right,
      writes_comparison quote scopes on]
    simp [spelling_pure, Layout.spell_append, Layout.spell_inParensIf, Speller.after_after,
      Fragment.pushText_eq_append, Fragment.append_assoc, Nat.add_assoc]
  | .crossJoin left right => by
    intro g
    rw [Source.render, Source.layout, spelling_bind, spelling_bind,
      writes_source quote scopes left, writes_source quote scopes right]
    simp [spelling_pure, Layout.spell_append, Layout.spell_inParensIf, Speller.after_after,
      Fragment.pushText_eq_append, Fragment.append_assoc]

/-- A selection writes its layout, whatever scopes it stands in. -/
theorem writes_select (quote : String → String) (outer : List Scope) :
    ∀ s : Select, Writes quote (s.render quote) (s.layout outer)
  | ⟨columns, source, condition, groupBy, having, orderBy, direction, distinct, limit, lock⟩ => by
    intro g
    -- Every clause, the source with its conditions included, stands in the scope of the source.
    have hColumns := writes_expressions quote (source.tables :: outer) columns
    have hSource := writes_source quote (source.tables :: outer) source
    have hCondition := writes_comparisonAfter quote (source.tables :: outer) " where " condition
    have hGroups := writes_expressions quote (source.tables :: outer) groupBy
    have hHaving := writes_comparisonAfter quote (source.tables :: outer) " having " having
    have hOrder := writes_expressions quote (source.tables :: outer) orderBy
    have hLimit := writes_expressionAfter quote (source.tables :: outer) " limit " limit
    rw [List.headD_cons] at hColumns hSource hCondition hGroups hHaving hOrder hLimit
    simp only [Select.render, Select.layout, spelling_bind, spelling_pure, hColumns _, hSource _,
      hCondition _, hGroups _, hHaving _, hOrder _, hLimit _]
    simp [Layout.spell_append, Layout.spell_listOr, Layout.spell_listAfter, Speller.after_after,
      Fragment.concat_cons, Nat.add_assoc]

/-- A condition after its words writes its layout. -/
theorem writes_comparisonAfter (quote : String → String) (scopes : List Scope) (words : String) :
    ∀ c : Option Comparison, Writes quote (Comparison.renderAfter quote (scopes.headD []) words c)
      (Comparison.layoutAfter scopes words c)
  | none => by
    intro g
    simp [Comparison.renderAfter, Comparison.layoutAfter, spelling_pure]
  | some c => by
    intro g
    rw [Comparison.renderAfter, Comparison.layoutAfter, spelling_bind,
      writes_comparison quote scopes c]
    simp [spelling_pure]

/-- An expression after its words writes its layout. -/
theorem writes_expressionAfter (quote : String → String) (scopes : List Scope) (words : String) :
    ∀ e : Option Expression, Writes quote (Expression.renderAfter quote (scopes.headD []) words e)
      (Expression.layoutAfter scopes words e)
  | none => by
    intro g
    simp [Expression.renderAfter, Expression.layoutAfter, spelling_pure]
  | some e => by
    intro g
    rw [Expression.renderAfter, Expression.layoutAfter, spelling_bind,
      writes_expression quote scopes e]
    simp [spelling_pure]

end

/-! ## Statements -/

/-- Rendering what a statement returns writes its layout. -/
theorem writes_returning (quote : String → String) (scope : Scope) (returning : List Expression) :
    Writes quote (renderReturning quote scope returning) (returningLayout scope returning) := by
  intro g
  have h := writes_expressions quote [scope] returning
  rw [List.headD_cons] at h
  rw [renderReturning, returningLayout, spelling_bind, h, Layout.spell_listAfter,
    Layout.places_listAfter]
  rfl

namespace Assignments

variable (quote : String → String) (a : Assignments)

/-- The columns have no places, so they are written without a speller. -/
theorem spell_columnsLayout (g : Speller) :
    a.columnsLayout.spell quote g = a.renderColumns quote ∧ a.columnsLayout.places = 0 := by
  have fragments : ∀ (values : List (ColumnRef × Expression)) (g : Speller),
      Layout.spellAll quote g (values.map fun v => [.column v.1 [[a.table]]]) =
        values.map fun v => Fragment.ofText (v.1.text quote [a.table]) := by
    intro values
    induction values with
    | nil => intro g; rfl
    | cons v values ih =>
      intro g
      rw [List.map_cons, List.map_cons, Layout.spellAll, ih, Layout.spell_cons, Layout.spell_nil,
        Fragment.append_empty]
      rfl
  constructor
  · rw [columnsLayout, Layout.spell_inParens, Layout.spell_join, fragments]
    rfl
  · rw [columnsLayout, Layout.places_inParens, Layout.places_join]
    induction a.values with
    | nil => rfl
    | cons v values ih => simpa [Layout.placesAll, Piece.places] using ih

/-- Rendering the columns and values of a new row writes their layout. -/
theorem writes_values : Writes quote (a.renderValues quote) a.valuesLayout := by
  intro g
  have h := WritesAll.mapM (fun v => writes_expression quote [[a.table]] v.2) a.values
  rw [renderValues, valuesLayout, spelling_bind]
  rw [List.headD_cons] at h
  rw [h, Layout.spell_inParens, Layout.spell_join, Layout.places_inParens, Layout.places_join]
  rfl

/-- Rendering the changes of an update writes their layout. -/
theorem writes_changes : Writes quote (a.renderChanges quote) a.changesLayout := by
  intro g
  have change : ∀ v : ColumnRef × Expression, Writes quote
      (do
        let value ← v.2.render quote [a.table]
        return ((Fragment.ofText (v.1.text quote [a.table])).pushText " = ").append value)
      (.column v.1 [[a.table]] :: .text " = " :: v.2.layout [[a.table]]) := by
    intro v g
    have h := writes_expression quote [[a.table]] v.2
    rw [List.headD_cons] at h
    rw [spelling_bind, h]
    simp [spelling_pure, Layout.spell_cons, Piece.spell, Piece.places, Fragment.pushText_eq_append,
      Fragment.append_assoc]
  rw [renderChanges, changesLayout, spelling_bind, WritesAll.mapM change a.values,
    Layout.spell_join, Layout.places_join]
  rfl

end Assignments

/-- A statement writes its layout. -/
theorem writes_statement (quote : String → String) (s : QueryStatement) :
    Writes quote (s.render quote) s.layout := by
  cases s with
  | select s =>
    rw [QueryStatement.render, QueryStatement.layout]
    exact writes_select quote [] s
  | insert values returning =>
    intro g
    obtain ⟨hSpell, hPlaces⟩ := values.spell_columnsLayout quote g
    simp only [QueryStatement.render, QueryStatement.layout, spelling_bind, spelling_pure,
      values.writes_values quote _, writes_returning quote _ _ _]
    simp [Layout.spell_append, Layout.spell_cons, Piece.spell, Piece.places, Speller.after_after,
      Fragment.concat_cons, Fragment.ofText_append, Fragment.append_assoc, hSpell, hPlaces]
  | update values condition returning =>
    intro g
    have hCondition := writes_comparison quote [[values.table]] condition
    rw [List.headD_cons] at hCondition
    simp only [QueryStatement.render, QueryStatement.layout, spelling_bind, spelling_pure,
      values.writes_changes quote _, hCondition _, writes_returning quote _ _ _]
    simp [Layout.spell_append, Layout.spell_cons, Piece.spell, Piece.places, Speller.after_after,
      Fragment.concat_cons, Fragment.ofText_append, Fragment.append_assoc, Nat.add_assoc]
  | delete table condition returning =>
    intro g
    have hCondition := writes_comparison quote [[table]] condition
    rw [List.headD_cons] at hCondition
    simp only [QueryStatement.render, QueryStatement.layout, spelling_bind, spelling_pure,
      hCondition _, writes_returning quote _ _ _]
    simp [Layout.spell_append, Layout.spell_cons, Piece.spell, Piece.places, Speller.after_after,
      Fragment.concat_cons, Fragment.ofText_append, Fragment.append_assoc]
  | lock table mode =>
    intro g
    simp [QueryStatement.render, QueryStatement.layout, spelling_pure, Layout.spell_cons,
      Piece.spell, Piece.places, Fragment.ofText_append, Fragment.append_assoc]

/-- A statement that is rendered anew writes its layout with its places numbered from one. -/
theorem renderAnew_eq (quote : String → String) (s : QueryStatement) (g : Speller) :
    s.renderAnew quote g =
      (s.layout.spell quote (.fresh g.placeholder),
        (Speller.fresh g.placeholder).after s.layout.places) :=
  writes_statement quote s (.fresh g.placeholder)

end SqlCatalog
