import SqlCatalog.Proofs.Catalog.Distinct
import SqlCatalog.Proofs.Catalog.Users

/-!
# Seed rows and constraints

A seed row gives values to the first columns of its table. Adding it checks that there are not more
values than columns and nothing else, so that a row can lack the value of a column that needs one,
or hold null for a column that may not be null. The rows of a schema respect its tables as long as
no such row was ever accepted.

## Main definitions

* `Table.Supplies` and `Table.AvoidsNull` say that a row respects its table.
* `Table.Takes` says the same of the values that a row is made of.
* `Schema.seeds` are the values of the seed rows that are accepted in a run, with their tables.

## Main statements

* `Table.respects_zip_iff`: the row that is made of values respects the table exactly if the table
  takes the values.
* `rowsRespected_submitAll_iff`: the rows of a schema respect its tables exactly if all accepted
  values were taken.
-/

namespace SqlCatalog

/-! ## Rows of a table -/

namespace Table

/-- The row has a value for every column that needs one. -/
def Supplies (t : Table) (row : SeedRow) : Prop :=
  ∀ c ∈ t.columns, t.needsValue c = true → c.name ∈ row.map Prod.fst

/-- The row is not null in any column that may not be null. -/
def AvoidsNull (t : Table) (row : SeedRow) : Prop :=
  ∀ c ∈ t.columns, t.canBeNull c = false → (c.name, .null) ∉ row

/-- The row respects what the table says about its columns. -/
def Respects (t : Table) (row : SeedRow) : Prop := t.Supplies row ∧ t.AvoidsNull row

/-- There is a value at the place of every column that needs one, and null at that of no column
that may not be null. -/
def Takes (t : Table) (values : List Value) : Prop :=
  ∀ (i : Nat) (c : Column), t.columns[i]? = some c →
    (t.needsValue c = true → i < values.length) ∧
      (t.canBeNull c = false → values[i]? ≠ some .null)

variable {t : Table} {values : List Value} {v : Value}

/-- In the row that is made of values, a column has the value at its place. -/
theorem mem_zip_iff (h : t.Distinct) {i : Nat} {c : Column} (hc : t.columns[i]? = some c) :
    (c.name, v) ∈ (t.columns.map Column.name).zip values ↔ values[i]? = some v := by
  rw [List.mem_iff_getElem?]
  simp only [List.getElem?_zip_eq_some]
  constructor
  · rintro ⟨j, hname, hv⟩
    rw [List.getElem?_map] at hname
    obtain ⟨d, hd, hname⟩ := Option.map_eq_some_iff.1 hname
    have hplace := h.columnIndex hd
    rw [hname, h.columnIndex hc] at hplace
    rwa [Except.ok.inj hplace]
  · intro hv
    exact ⟨i, by rw [List.getElem?_map, hc]; rfl, hv⟩

/-- The row that is made of values respects the table exactly if the table takes the values. -/
theorem respects_zip_iff (h : t.Distinct) :
    t.Respects ((t.columns.map Column.name).zip values) ↔ t.Takes values := by
  have hsupplied {i : Nat} {c : Column} (hc : t.columns[i]? = some c) :
      c.name ∈ ((t.columns.map Column.name).zip values).map Prod.fst ↔ i < values.length := by
    rw [List.mem_map]
    constructor
    · rintro ⟨⟨_, v⟩, hv, rfl⟩
      exact (List.getElem?_eq_some_iff.1 ((mem_zip_iff h hc).1 hv)).1
    · intro hi
      exact ⟨_, (mem_zip_iff h hc).2 (List.getElem?_eq_getElem hi), rfl⟩
  constructor
  · rintro ⟨hsupplies, havoids⟩ i c hc
    have hmem := List.mem_of_getElem? hc
    constructor
    · intro hneeds
      exact (hsupplied hc).1 (hsupplies c hmem hneeds)
    · intro hnull hvalue
      exact havoids c hmem hnull ((mem_zip_iff h hc).2 hvalue)
  · intro htakes
    constructor
    · intro c hmem hneeds
      obtain ⟨i, hc⟩ := List.mem_iff_getElem?.1 hmem
      exact (hsupplied hc).2 ((htakes i c hc).1 hneeds)
    · intro c hmem hnull hrow
      obtain ⟨i, hc⟩ := List.mem_iff_getElem?.1 hmem
      exact (htakes i c hc).2 hnull ((mem_zip_iff h hc).1 hrow)

end Table

/-! ## Rows of a schema -/

/-- All seed rows respect their tables. -/
def Schema.RowsRespected (s : Schema) : Prop := ∀ t ∈ s.tables, ∀ row ∈ t.rows, t.Respects row

section Drafts

variable {s : Schema} {d d' : Draft} {ds : DefaultLog}

theorem DraftStep.rows (h : DraftStep s d ds d') : d'.table.rows = d.table.rows := by
  cases h with
  | column hadd =>
    obtain ⟨-, rfl⟩ := Table.addColumn_ok hadd
    rfl
  | _ => rfl

theorem DraftRun.rows (h : DraftRun s d ds d') : d'.table.rows = d.table.rows := by
  induction h with
  | nil d => rfl
  | cons hstep _ ih => rw [ih, hstep.rows]

/-- A table has no rows when it is defined. -/
theorem rows_of_readTable {statement : Statement} {stopped : Option CompileError}
    (h : s.readTable statement = .ok (d, stopped)) : d.table.rows = [] := by
  obtain ⟨name, comment, hrun⟩ := draftRun_of_readTable h
  exact hrun.rows

end Drafts

section Changes

variable {s s' : Schema} {t t' : Table} {values : List Value}

/-- Where one table is replaced, there are the new one and the others. -/
theorem mem_tables_modifyTable (hs : s.Coherent) (ht : t ∈ s.tables) {u : Table} :
    u ∈ (s.modifyTable t.id fun _ => t').tables ↔ u = t' ∨ u ∈ s.tables ∧ u ≠ t := by
  rw [Schema.modifyTable, List.mem_iff_getElem?]
  simp only [List.getElem?_modify]
  constructor
  · rintro ⟨i, hi⟩
    obtain ⟨v, hv, rfl⟩ := Option.map_eq_some_iff.1 hi
    by_cases hid : t.id = i
    · exact .inl (if_pos hid)
    · rw [if_neg hid]
      refine .inr ⟨List.mem_of_getElem? hv, ?_⟩
      rintro rfl
      exact hid (hs.tableIds i v hv)
  · rintro (rfl | ⟨hu, hne⟩)
    · exact ⟨t.id, by simp [hs.getElem?_id ht]⟩
    · have hid : t.id ≠ u.id := fun hid => hne (hs.table_eq hu ht hid.symm)
      exact ⟨u.id, by simp [hs.getElem?_id hu, hid]⟩

/-- With a row more, the rows are respected exactly if they were and the table takes the values of
the row. -/
theorem rowsRespected_addRow (hs : s.Coherent) (hdistinct : s.Distinct) (ht : t ∈ s.tables)
    (hrow : t.addRow values = .ok t') :
    (s.modifyTable t.id fun _ => t').RowsRespected ↔ s.RowsRespected ∧ t.Takes values := by
  obtain ⟨-, ht'⟩ := Table.addRow_ok hrow
  -- What a table says about its columns does not depend on its rows.
  have hrespects (row : SeedRow) : t'.Respects row ↔ t.Respects row := by
    rw [ht']
    exact Iff.rfl
  have hnew : (∀ row ∈ t'.rows, t'.Respects row) ↔
      (∀ row ∈ t.rows, t.Respects row) ∧ t.Takes values := by
    simp only [hrespects]
    rw [ht', List.forall_mem_append, List.forall_mem_singleton,
      Table.respects_zip_iff (hdistinct.columns t ht)]
  constructor
  · intro h
    obtain ⟨hold, htakes⟩ := hnew.1 (h t' ((mem_tables_modifyTable hs ht).2 (.inl rfl)))
    refine ⟨fun u hu => ?_, htakes⟩
    by_cases hut : u = t
    · rw [hut]
      exact hold
    · exact h u ((mem_tables_modifyTable hs ht).2 (.inr ⟨hu, hut⟩))
  · rintro ⟨h, htakes⟩ u hu
    rcases (mem_tables_modifyTable hs ht).1 hu with rfl | ⟨hu, -⟩
    · exact hnew.2 ⟨h t ht, htakes⟩
    · exact h u hu

/-- Changes other than seed rows add no rows. -/
theorem rowsRespected_of_change {kind : StatementKind} {statement : Statement}
    (hchange : Change s kind statement s') (hkind : kind ≠ .seedRow) :
    s'.RowsRespected ↔ s.RowsRespected := by
  cases hchange with
  | seedRow => exact absurd rfl hkind
  | @table _ d hread =>
    rw [Schema.RowsRespected, tables_withDraft]
    constructor
    · intro h t ht
      exact h t (mem_concat.2 (.inl ht))
    · intro h t ht row hmem
      rcases mem_concat.1 ht with ht | rfl
      · exact h t ht row hmem
      · rw [rows_of_readTable hread] at hmem
        cases hmem
  | sequence | index | blank => exact Iff.rfl

end Changes

/-! ## Runs -/

/-- The table and the values of a seed row, if it can be read and the table is there. -/
def Schema.readSeed? (s : Schema) (statement : Statement) : Option (Table × List Value) := do
  let row ← (readSeedRow (Token.flatten statement)).toOption
  let t ← (s.tableNamed row.table).toOption
  return (t, row.values)

/-- The seed of a part: that of a seed row, if it is accepted. -/
def Schema.partSeeds (s : Schema) (p : StatementKind × Statement) : List (Table × List Value) :=
  match p.1, (p.1.compile p.2).into s with
  | .seedRow, (.ok _, _) => (s.readSeed? p.2).toList
  | _, _ => []

/-- The seeds of some parts, each compiled into the schema that the ones before leave. -/
def Schema.seedsOfParts (s : Schema) :
    List (StatementKind × Statement) → List (Table × List Value)
  | [] => []
  | p :: ps => s.partSeeds p ++ seedsOfParts (s.compilePart p) ps

/-- The seeds of the rows that are accepted when submissions are compiled, each with its table as
it is then. -/
def Schema.seeds (s : Schema) (cs : List Submission) : List (Table × List Value) :=
  s.seedsOfParts (s.allParts cs)

section Runs

variable {s : Schema}

theorem distinct_compilePart (hs : s.Coherent) (hdistinct : s.Distinct)
    (p : StatementKind × Statement) : (s.compilePart p).Distinct := by
  rw [Schema.compilePart]
  rcases compilePart_cases (s := s) p with ⟨e, hp⟩ | ⟨s', hp, hchange⟩ <;> rw [hp]
  · exact hdistinct
  · exact hdistinct.change hs hchange

/-- A seed row that is accepted was read, and it was added to the table that it names. -/
theorem yields_readSeed (statement : Statement) :
    (compileSeedRow statement).Yields s fun _ s' => ∃ t t' values,
      s.readSeed? statement = some (t, values) ∧ t ∈ s.tables ∧ t.addRow values = .ok t' ∧
        s' = s.modifyTable t.id fun _ => t' := by
  refine Compiling.Yields.get (Compiling.Yields.read fun row hread => ?_)
  refine Compiling.Yields.read fun t ht => Compiling.Yields.read fun t' ht' => ?_
  have htable := fromCatalog_eq_ok.1 ht
  have hseed : s.readSeed? statement = some (t, row.values) := by
    simp [Schema.readSeed?, hread, htable, Except.toOption]
  exact .set ⟨t, t', row.values, hseed, (Schema.tableNamed_ok htable).1, fromCatalog_eq_ok.1 ht',
    rfl⟩

/-- A part leaves the rows respected exactly if they were and its seed is taken. -/
theorem rowsRespected_compilePart (hs : s.Coherent) (hdistinct : s.Distinct)
    (p : StatementKind × Statement) : (s.compilePart p).RowsRespected ↔
      s.RowsRespected ∧ ∀ seed ∈ s.partSeeds p, seed.1.Takes seed.2 := by
  obtain ⟨kind, statement⟩ := p
  rw [Schema.compilePart, Schema.partSeeds]
  rcases compilePart_cases (s := s) (kind, statement) with ⟨e, hp⟩ | ⟨s', hp, hchange⟩ <;> rw [hp]
  · cases kind <;> exact (and_iff_left (List.forall_mem_nil _)).symm
  · by_cases hkind : kind = .seedRow
    · subst hkind
      obtain ⟨t, t', values, hseed, ht, hrow, rfl⟩ := (yields_readSeed statement).of_ok hp
      rw [rowsRespected_addRow hs hdistinct ht hrow]
      simp [hseed]
    · rw [rowsRespected_of_change hchange hkind]
      cases kind with
      | seedRow => exact absurd rfl hkind
      | _ => exact (and_iff_left (List.forall_mem_nil _)).symm

/-- After any parts all rows respect their tables exactly when they did before and every row was
taken then. -/
theorem rowsRespected_compileParts (hs : s.Coherent) (hdistinct : s.Distinct)
    (ps : List (StatementKind × Statement)) : (s.compileParts ps).RowsRespected ↔
      s.RowsRespected ∧ ∀ seed ∈ s.seedsOfParts ps, seed.1.Takes seed.2 := by
  induction ps generalizing s with
  | nil => simp [Schema.compileParts, Schema.seedsOfParts]
  | cons p ps ih =>
    rw [Schema.compileParts, List.foldl_cons, ← Schema.compileParts,
      ih (coherent_compilePart hs p) (distinct_compilePart hs hdistinct p),
      rowsRespected_compilePart hs hdistinct, Schema.seedsOfParts, List.forall_mem_append,
      and_assoc]

end Runs

/-- After any submissions to an empty schema, refused or not, all seed rows have values for the
columns that need them and are not null where they may not be, exactly if every accepted seed row
has a value at the place of each column that needs one and null at that of no column that may not
be null. -/
theorem rowsRespected_submitAll_iff (source : String) (dialect : Dialect)
    (cs : List Submission) : ((Schema.empty source dialect).submitAll cs).RowsRespected ↔
      ∀ seed ∈ (Schema.empty source dialect).seeds cs, seed.1.Takes seed.2 := by
  have hempty : (Schema.empty source dialect).RowsRespected := fun t ht => by cases ht
  rw [submitAll_eq_compileParts,
    rowsRespected_compileParts (.empty source dialect) (.empty source dialect)]
  exact and_iff_right hempty

/-- A row without a value for a column that needs one is accepted, and so is one with null for a
column that may not be null. -/
theorem rows_not_respected :
    let s := (Schema.empty "" .standard).submit (.source
      "create table t (x integer, y integer not null); insert into t values (1);
       insert into t values (1, null)")
    ¬(∀ t ∈ s.tables, ∀ row ∈ t.rows, t.Supplies row) ∧
      ¬(∀ t ∈ s.tables, ∀ row ∈ t.rows, t.AvoidsNull row) := by
  unfold Table.Supplies Table.AvoidsNull
  decide +kernel

end SqlCatalog
