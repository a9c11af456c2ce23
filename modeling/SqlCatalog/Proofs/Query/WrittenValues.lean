import SqlCatalog.Proofs.Query.NewRows
import SqlCatalog.Proofs.Query.Writing

/-!
# Values as they are written

A new row is written as a list of columns and a list of values, and a change of rows as a list of
columns each with its value. Both are written from the same list, so that a column and its value
stand at the same place, whatever was given in whatever order.

## Main definitions

* `QueryStatement.inserting` and `QueryStatement.updating` make statements from given values.
* `insertText` and `updateText` are what such statements write.

## Main statements

* `fragment_insert`, `fragment_update`: the columns and the values are written from one list.
* `written_canonically`: the columns are written in the order of their names, each with the value
  that was given last, and different columns are written alike in whatever order they are given.
-/

namespace SqlCatalog

/-! ## Statements from given values -/

namespace QueryStatement

/-- Inserts a new row with the given values. -/
def inserting (values : List (ColumnRef × Expression)) (returning : List Expression) :
    Except QueryError QueryStatement :=
  (insert · returning) <$> Assignments.forRow values

/-- Gives the values to the rows that fulfil a condition. -/
def updating (values : List (ColumnRef × Expression)) (condition : Comparison)
    (returning : List Expression) : Except QueryError QueryStatement :=
  (update · condition returning) <$> Assignments.of values

end QueryStatement

/-- A new row of a table: the names between parentheses and then the values, both in the order of
the pairs, and what is returned. -/
def insertText (style : Style) (t : Table) (pairs : List (ColumnRef × Expression))
    (returning : List Expression) : Fragment :=
  let names := pairs.map fun v => style.quote v.1.name
  let values := Expression.renderAll style.quote [t] (pairs.map Prod.snd) (.fresh style.placeholder)
  let returned := renderReturning style.quote [t] returning values.2
  .concat [.ofText ("insert into " ++ style.quote t.name ++ " (" ++ ", ".intercalate names ++
    ") values ("), .join ", " values.1, .ofText ")", returned.1]

/-- A column and the value that it gets. -/
def changeText (name : String) (value : Fragment) : Fragment :=
  (Fragment.ofText (name ++ " = ")).append value

/-- A change of a table: each name with its value, in the order of the pairs, the condition, and
what is returned. -/
def updateText (style : Style) (t : Table) (pairs : List (ColumnRef × Expression))
    (condition : Comparison) (returning : List Expression) : Fragment :=
  let names := pairs.map fun v => style.quote v.1.name
  let values := Expression.renderAll style.quote [t] (pairs.map Prod.snd) (.fresh style.placeholder)
  let rows := condition.render style.quote [t] values.2
  let returned := renderReturning style.quote [t] returning rows.2
  .concat [.ofText ("update " ++ style.quote t.name ++ " set "),
    .join ", " (names.zipWith changeText values.1), .ofText " where ", rows.1, returned.1]

/-! ## Lists of columns and values -/

theorem Fragment.join_ofText (separator : String) (texts : List String) :
    join separator (texts.map ofText) = ofText (separator.intercalate texts) := by
  induction texts with
  | nil =>
    rw [String.intercalate_nil]
    rfl
  | cons text texts ih =>
    cases texts with
    | nil =>
      rw [String.intercalate_singleton]
      rfl
    | cons next texts =>
      rw [String.intercalate_cons_cons, ofText_append, ofText_append, ← ih, append_assoc,
        ← append_assoc, ← pushText_eq_append]
      rfl

/-- In a statement about its own table, a column is written by its name alone. -/
theorem ColumnRef.text_of_table (quote : String → String) (c : ColumnRef) :
    c.text quote [c.table] = quote c.name := by
  simp [text, reference, isAmbiguous, Reference.text]

/-- As many expressions are written as there are. -/
theorem length_renderAll (quote : String → String) (scope : Scope) (es : List Expression)
    (g : Speller) : (Expression.renderAll quote scope es g).1.length = es.length := by
  induction es generalizing g with
  | nil => rfl
  | cons e es ih =>
    rw [Expression.renderAll, spelling_bind, spelling_bind]
    simp [spelling_pure, ih]

/-- A statement is written with its places numbered from one. -/
theorem fragment_eq_render (style : Style) (q : QueryStatement) :
    q.fragment style = (q.render style.quote (.fresh style.placeholder)).1 := rfl

section Pairs

variable (quote : String → String) (style : Style) {t : Table}
  {pairs : List (ColumnRef × Expression)} (hpairs : ∀ v ∈ pairs, v.1.table = t)

/-- The values of the pairs are written one after the other. -/
theorem mapM_render_eq (t : Table) (pairs : List (ColumnRef × Expression)) (g : Speller) :
    pairs.mapM (fun v => v.2.render quote [t]) g =
      Expression.renderAll quote [t] (pairs.map Prod.snd) g := by
  induction pairs generalizing g with
  | nil => rfl
  | cons v pairs ih =>
    rw [List.mapM_cons, List.map_cons, Expression.renderAll, spelling_bind, spelling_bind,
      spelling_bind, spelling_bind, ih]

include hpairs

/-- The columns of the pairs are written by their names. -/
theorem map_text_eq :
    (pairs.map fun v => v.1.text quote [t]) = pairs.map fun v => quote v.1.name := by
  refine List.map_congr_left fun v hv => ?_
  rw [← hpairs v hv, ColumnRef.text_of_table]

/-- Each column is written with its value. -/
theorem renderChanges_eq (g : Speller) :
    Assignments.renderChanges quote ⟨t, pairs⟩ g =
      let values := Expression.renderAll quote [t] (pairs.map Prod.snd) g
      (.join ", " ((pairs.map fun v => quote v.1.name).zipWith changeText values.1), values.2) := by
  have hchanges : ∀ g, pairs.mapM (fun v => (do
        let value ← v.2.render quote [t]
        return ((Fragment.ofText (v.1.text quote [t])).pushText " = ").append value :
          Spelling Fragment)) g =
      let values := Expression.renderAll quote [t] (pairs.map Prod.snd) g
      ((pairs.map fun v => quote v.1.name).zipWith changeText values.1, values.2) := by
    induction pairs with
    | nil => intro g; rfl
    | cons v pairs ih =>
      intro g
      obtain ⟨hv, hrest⟩ := List.forall_mem_cons.1 hpairs
      have hname : v.1.text quote [t] = quote v.1.name := by rw [← hv, v.1.text_of_table]
      rw [List.mapM_cons, List.map_cons, List.map_cons, Expression.renderAll]
      simp only [spelling_bind, spelling_pure, ih hrest, hname, List.zipWith_cons_cons]
      rw [changeText, Fragment.ofText_append, Fragment.pushText_eq_append]
  rw [Assignments.renderChanges, spelling_bind, hchanges]
  rfl

/-- The columns of a new row are written before the values, each from the same pairs. -/
theorem fragment_insert (returning : List Expression) :
    (QueryStatement.insert ⟨t, pairs⟩ returning).fragment style =
      insertText style t pairs returning := by
  have hcolumns : Assignments.renderColumns style.quote ⟨t, pairs⟩ = .ofText ("(" ++
      ", ".intercalate (pairs.map fun v => style.quote v.1.name) ++ ")") := by
    rw [← map_text_eq style.quote hpairs, Fragment.ofText_append, Fragment.ofText_append,
      ← Fragment.join_ofText, List.map_map]
    simp [Assignments.renderColumns, Fragment.inParens, Fragment.pushText_eq_append,
      Function.comp_def]
  -- The parentheses around the columns and the values stand together with the words beside them.
  have hopen : " (" = " " ++ "(" := by decide
  have hbetween : ") values (" = ")" ++ (" values " ++ "(") := by decide
  rw [fragment_eq_render]
  simp only [QueryStatement.render, spelling_bind, spelling_pure, hcolumns,
    Assignments.renderValues, mapM_render_eq, insertText]
  rw [hopen, hbetween]
  simp only [Fragment.inParens, Fragment.pushText_eq_append, Fragment.concat_cons,
    Fragment.ofText_append, Fragment.append_assoc]

/-- The columns of a change are written with their values. -/
theorem fragment_update (condition : Comparison) (returning : List Expression) :
    (QueryStatement.update ⟨t, pairs⟩ condition returning).fragment style =
      updateText style t pairs condition returning := by
  rw [fragment_eq_render]
  simp only [QueryStatement.render, spelling_bind, spelling_pure, renderChanges_eq _ hpairs]
  rfl

end Pairs

/-! ## Given values -/

section Given

open Assignments QueryStatement

variable {s : Schema} {t : Table} {values others : List (ColumnRef × Expression)}
  {q : QueryStatement} {condition : Comparison} {returning : List Expression}

/-- A statement that inserts values for columns of a table inserts the accepted ones. -/
theorem inserting_eq_ok (htable : ∀ v ∈ values, v.1.table = t)
    (h : inserting values returning = .ok q) : q = .insert ⟨t, canonical values⟩ returning := by
  by_cases hne : values = []
  · rw [hne] at h
    cases h
  · rw [inserting, forRow_of_table hne htable] at h
    split at h
    · exact (Except.ok.inj h).symm
    · cases h

/-- A statement that gives values to columns of a table gives the accepted ones. -/
theorem updating_eq_ok (htable : ∀ v ∈ values, v.1.table = t)
    (h : updating values condition returning = .ok q) :
    q = .update ⟨t, canonical values⟩ condition returning := by
  by_cases hne : values = []
  · rw [hne] at h
    cases h
  · rw [updating, of_eq_ok hne htable] at h
    exact (Except.ok.inj h).symm

/-- Values for different columns of a table are accepted or refused alike in any order. -/
theorem accepted_perm (hdistinct : t.Distinct)
    (hvalues : ∀ v ∈ values, v.1.table = t ∧ v.1.column ∈ t.columns)
    (hcolumns : (values.map Prod.fst).Nodup) (hperm : values.Perm others) :
    of others = of values := by
  by_cases hne : values = []
  · rw [hne] at hperm ⊢
    rw [List.nil_perm.1 hperm]
  · have hothers : others ≠ [] := fun hnil => hne (List.perm_nil.1 (hnil ▸ hperm))
    have htable : ∀ v ∈ others, v.1.table = t := fun v hv => (hvalues v (hperm.mem_iff.2 hv)).1
    rw [of_eq_ok hne fun v hv => (hvalues v hv).1, of_eq_ok hothers htable,
      canonical_perm hdistinct hvalues hcolumns hperm]

end Given

/-- The pairs have different columns, in the order of the code points of their names, and each
column has the value that was given last for it. -/
structure IsCanonical (values pairs : List (ColumnRef × Expression)) : Prop where
  increasing : pairs.Pairwise fun v w => v.1.name < w.1.name
  last : ∀ v, v ∈ pairs ↔ LastGiven Prod.fst values v

/-- Values for columns of a table of a reachable schema make statements that write each given
column once, in the order of the names, with the value that was given last for it: as many values
are written as names, and both come from the same pairs. A change can be made if there are any
values, and a row if the columns that demand values are among them. Values for different columns
make the same statement in whatever order they are given. -/
theorem written_canonically {s : Schema} (hs : Reachable s) {t : Table} (ht : t ∈ s.tables)
    {values : List (ColumnRef × Expression)}
    (hvalues : ∀ v ∈ values, v.1.table = t ∧ v.1.column ∈ t.columns) :
    (∃ pairs, IsCanonical values pairs ∧
      (∀ style : Style, (Expression.renderAll style.quote [t] (pairs.map Prod.snd)
        (.fresh style.placeholder)).1.length = pairs.length) ∧
      (∀ returning q, QueryStatement.inserting values returning = .ok q →
        ∀ style, q.fragment style = insertText style t pairs returning) ∧
      ∀ condition returning q, QueryStatement.updating values condition returning = .ok q →
        ∀ style, q.fragment style = updateText style t pairs condition returning) ∧
    (values ≠ [] →
      (∀ condition returning, ∃ q, QueryStatement.updating values condition returning = .ok q) ∧
      ((∀ c ∈ t.columns, t.Demands c → ∃ v ∈ values, v.1.column = c) →
        ∀ returning, ∃ q, QueryStatement.inserting values returning = .ok q)) ∧
    ((values.map Prod.fst).Nodup → ∀ others, values.Perm others →
      (∀ returning, QueryStatement.inserting others returning =
        QueryStatement.inserting values returning) ∧
      ∀ condition returning, QueryStatement.updating others condition returning =
        QueryStatement.updating values condition returning) := by
  have hdistinct := (distinct_of_reachable hs).columns t ht
  have htable : ∀ v ∈ values, v.1.table = t := fun v hv => (hvalues v hv).1
  have hpairs : ∀ v ∈ Assignments.canonical values, v.1.table = t := fun v hv =>
    htable v (Assignments.mem_canonical_iff_name.1 hv).mem
  refine ⟨⟨Assignments.canonical values, ⟨Assignments.pairwise_canonical values, fun v =>
    Assignments.mem_canonical hdistinct hvalues⟩, ?_, ?_, ?_⟩, ?_, ?_⟩
  · intro style
    rw [length_renderAll, List.length_map]
  · intro returning q hq style
    rw [inserting_eq_ok htable hq, fragment_insert style hpairs]
  · intro condition returning q hq style
    rw [updating_eq_ok htable hq, fragment_update style hpairs]
  · intro hne
    constructor
    · intro condition returning
      rw [QueryStatement.updating, Assignments.of_eq_ok hne htable]
      exact ⟨_, rfl⟩
    · intro hdemands returning
      have hcolumns : ∀ v ∈ values, v.1.IsOf s := by
        intro v hv
        obtain ⟨rfl, hcolumn⟩ := hvalues v hv
        exact ⟨ht, hcolumn⟩
      obtain ⟨a, ha⟩ := (exists_forRow_eq_ok_iff hs hcolumns).2 ⟨hne, t, htable, hdemands⟩
      rw [QueryStatement.inserting, ha]
      exact ⟨_, rfl⟩
  · intro hcolumns others hperm
    have haccepted := accepted_perm hdistinct hvalues hcolumns hperm
    constructor
    · intro returning
      rw [QueryStatement.inserting, QueryStatement.inserting, Assignments.forRow,
        Assignments.forRow, haccepted]
    · intro condition returning
      rw [QueryStatement.updating, QueryStatement.updating, haccepted]

/-- A change of a table that gives two values to one column, and one that gives values to two
columns, in both orders. -/
theorem written_twoTables :
    (∃ q, QueryStatement.updating [(firstColumn 2, .constant (.int 1)),
      (firstColumn 2, .constant (.int 2))] (.null (.column (firstColumn 1)) false) [] = .ok q) ∧
    QueryStatement.updating [(firstColumn 2, .constant (.int 1)),
      (firstColumn 0, .constant (.int 2))] (.null (.column (firstColumn 1)) false) [] =
    QueryStatement.updating [(firstColumn 0, .constant (.int 2)),
      (firstColumn 2, .constant (.int 1))] (.null (.column (firstColumn 1)) false) [] := by
  have htwo (i j : Fin 3) (e e' : Expression) : ∀ v ∈ [(firstColumn i, e), (firstColumn j, e')],
      v.1.table = firstTable ∧ v.1.column ∈ firstTable.columns :=
    List.forall_mem_cons.2 ⟨⟨rfl, (isOf_firstColumn i).column⟩,
      List.forall_mem_singleton.2 ⟨rfl, (isOf_firstColumn j).column⟩⟩
  constructor
  · obtain ⟨-, hmade, -⟩ := written_canonically reachable_twoTables firstTable_mem
      (htwo 2 2 (.constant (.int 1)) (.constant (.int 2)))
    exact (hmade (List.cons_ne_nil _ _)).1 _ _
  · have hne : firstColumn 0 ≠ firstColumn 2 := by
      intro heq
      exact absurd ((firstColumn_eq_iff 0 2).1 (congrArg ColumnRef.column heq)) (by decide)
    obtain ⟨-, -, hperm⟩ := written_canonically reachable_twoTables firstTable_mem
      (htwo 0 2 (.constant (.int 2)) (.constant (.int 1)))
    refine (hperm ?_ _ (.swap _ _ [])).2 _ _
    simpa using hne

end SqlCatalog
