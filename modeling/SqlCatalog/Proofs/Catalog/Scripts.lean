import SqlCatalog.Proofs.Catalog.Distinct
import SqlCatalog.Proofs.Definition.StatementReaders

/-!
# Compiling what was printed

The script of a description is compiled declaration by declaration. The schema that is reached
after some of them is the schema that these describe, and one more declaration makes the change to
it that is made to what is described. So compiling the script of a valid description gives the
schema that it describes, with everything in its place; only a type of four words can be changed,
as the compiler does not take the last two of them from the source.

## Main definitions

* `Description.Closed` says that nothing is used or filled that is not declared.

## Main statements

* `schema_table`, `schema_sequence`, `schema_index`, `schema_row`: what one more declaration does to
  the schema that is described.
* `into_phrases`: compiling one declaration.
* `into_compileScript_phrases`: compiling several, one after the other.
* `ofSource_script`: the schema of the script of a description is the one that is described, up to
  the letter case of `time zone`.
-/

namespace SqlCatalog

open Phrase

/-! ## Descriptions one after the other -/

namespace Description

variable (d e : Description)

@[simp] theorem sequences_append : sequences (d ++ e) = d.sequences ++ e.sequences :=
  List.filterMap_append

@[simp] theorem tables_append : tables (d ++ e) = d.tables ++ e.tables := List.filterMap_append

@[simp] theorem indexes_append : indexes (d ++ e) = d.indexes ++ e.indexes := List.filterMap_append

@[simp] theorem rows_append (id : TableId) : rows (d ++ e) id = d.rows id ++ e.rows id :=
  List.filterMap_append

variable {d e}

theorem sequences_kept (h : e.sequences = []) : sequences (d ++ e) = d.sequences := by
  rw [sequences_append, h, List.append_nil]

theorem tables_kept (h : e.tables = []) : tables (d ++ e) = d.tables := by
  rw [tables_append, h, List.append_nil]

theorem indexes_kept (h : e.indexes = []) : indexes (d ++ e) = d.indexes := by
  rw [indexes_append, h, List.append_nil]

theorem rows_kept (h : ∀ id, e.rows id = []) (id : TableId) : rows (d ++ e) id = d.rows id := by
  rw [rows_append, h, List.append_nil]

/-- The users of a sequence are columns of tables, whatever else is described. -/
theorem users_of_tables (h : e.tables = d.tables) (q : SequenceId) : e.users q = d.users q := by
  rw [users, users, h]

theorem users_table (t : TableDeclaration) (q : SequenceId) :
    users (d ++ [.table t]) q = d.users q ++ (t.users q).map (d.tables.length, ·) := by
  rw [users, tables_append, show tables [.table t] = [t] from rfl, List.mapIdx_concat,
    List.flatten_concat]
  rfl

theorem rows_row (table : TableId) (values : List Value) (id : TableId) :
    rows (d ++ [.row table values]) id = d.rows id ++ if table = id then [values] else [] := by
  rw [rows_append]
  refine congrArg (d.rows id ++ ·) ?_
  by_cases h : table = id <;> simp [rows, h]

/-! ### Names of what is declared -/

section Prefix

variable (h : d <+: e)

include h

/-- Later declarations leave the names of tables as they are. -/
theorem tableName_of_prefix {id : TableId} {t : TableDeclaration} (ht : d.tables[id]? = some t) :
    e.tableName id = t.name := by
  obtain ⟨more, rfl⟩ := h
  obtain ⟨hid, -⟩ := List.getElem?_eq_some_iff.1 ht
  rw [tableName, tables_append, List.getElem?_append_left hid, ht]
  rfl

theorem columnList_of_prefix {id : TableId} {t : TableDeclaration} (ht : d.tables[id]? = some t)
    (places : List Nat) : e.columnList id places = t.columnList places := by
  obtain ⟨more, rfl⟩ := h
  obtain ⟨hid, -⟩ := List.getElem?_eq_some_iff.1 ht
  rw [columnList, tables_append, List.getElem?_append_left hid, ht]
  rfl

theorem sequenceName_of_prefix {q : SequenceId} {name : String}
    (hq : d.sequences[q]? = some name) : e.sequenceName q = name := by
  obtain ⟨more, rfl⟩ := h
  obtain ⟨hq', -⟩ := List.getElem?_eq_some_iff.1 hq
  rw [sequenceName, sequences_append, List.getElem?_append_left hq', hq]
  rfl

end Prefix

/-- A table that is declared next has the name of its place. -/
theorem tableName_next {t : TableDeclaration} (h : d ++ [.table t] <+: e) :
    e.tableName d.tables.length = t.name := by
  refine tableName_of_prefix h ?_
  rw [tables_append, List.getElem?_append_right (Nat.le_refl _), Nat.sub_self]
  rfl

/-! ### Nothing beyond what is declared -/

/-- No column takes its default from a sequence that is not declared, and no row is one of a table
that is not. -/
structure Closed (d : Description) : Prop where
  users : ∀ q, d.sequences.length ≤ q → d.users q = []
  rows : ∀ id, d.tables.length ≤ id → d.rows id = []

/-- A valid table uses no sequence that is not declared before it. -/
theorem users_eq_nil {t : TableDeclaration} {sequences : Nat} {id : TableId}
    (h : t.Valid sequences id) {q : SequenceId} (hq : sequences ≤ q) : t.users q = [] := by
  rw [TableDeclaration.users, TableDeclaration.places, List.filterMap_eq_nil_iff]
  rintro ⟨c, i⟩ hmem
  have hc : c ∈ t.columns := (List.mem_zipIdx' hmem).2 ▸ List.getElem_mem _
  have hother : (c.default.bind DefaultDeclaration.sequence? == some q) = false := by
    rw [beq_eq_false_iff_ne]
    intro hdefault
    obtain ⟨v, hv, hnext⟩ := Option.bind_eq_some_iff.1 hdefault
    have hvalid := (h.columns c hc).default v hv
    cases v with
    | next r =>
      obtain rfl := Option.some.inj hnext
      exact absurd hvalid (Nat.not_lt.2 hq)
    | _ => cases hnext
  rw [hother]
  rfl

theorem Closed.nil : Closed [] := ⟨fun _ _ => rfl, fun _ _ => rfl⟩

/-- One more declaration that is valid uses and fills what was declared before it. -/
theorem Closed.concat {dialect : Dialect} {x : Declaration} (h : d.Closed)
    (hx : x.Valid dialect d) : Closed (d ++ [x]) := by
  -- Only a table adds users and only a row adds rows; the bounds never become smaller.
  have hsequences : d.sequences.length ≤ (sequences (d ++ [x])).length := by simp
  have htables : d.tables.length ≤ (tables (d ++ [x])).length := by simp
  constructor
  · intro q hq
    have hold := h.users q (Nat.le_trans hsequences hq)
    have same (hnone : tables [x] = []) : Description.users (d ++ [x]) q = [] := by
      rw [users_of_tables (tables_kept hnone), hold]
    cases x with
    | table t =>
      rw [users_table, hold, users_eq_nil hx.2 (Nat.le_trans hsequences hq)]
      rfl
    | sequence | index | row => exact same rfl
  · intro id hid
    have hold := h.rows id (Nat.le_trans htables hid)
    cases x with
    | row table values =>
      obtain ⟨-, -, t, ht, -⟩ := hx
      obtain ⟨hlt, -⟩ := List.getElem?_eq_some_iff.1 ht
      have hother : table ≠ id :=
        Nat.ne_of_lt (Nat.lt_of_lt_of_le hlt (Nat.le_trans htables hid))
      rw [rows_row, hold, if_neg hother, List.append_nil]
    | sequence | table | index => rw [rows_kept fun _ => rfl, hold]

end Description

/-! ## The schema that is described -/

section Schemas

variable {d e : Description} {source : String} {dialect : Dialect}

/-- The tables of the schema are those described, with their rows. -/
theorem getElem?_tables_schema (id : TableId) : (d.schema source dialect).tables[id]? =
    d.tables[id]?.map fun t => t.table id (d.rows id) :=
  List.getElem?_mapIdx

theorem getElem?_sequences_schema (q : SequenceId) : (d.schema source dialect).sequences[q]? =
    d.sequences[q]?.map fun name => ⟨q, name, d.users q⟩ :=
  List.getElem?_mapIdx

theorem length_tables_schema : (d.schema source dialect).tables.length = d.tables.length :=
  List.length_mapIdx

theorem length_sequences_schema :
    (d.schema source dialect).sequences.length = d.sequences.length :=
  List.length_mapIdx

/-! ### Names that are free -/

/-- A fresh name is free among the tables of the schema. -/
theorem free_tables_schema {name : String}
    (h : dialect.Fresh (d.tables.map TableDeclaration.name) name) :
    ∀ t ∈ (d.schema source dialect).tables,
      (d.schema source dialect).sameName t.name name = false := by
  intro t ht
  obtain ⟨id, hid⟩ := List.mem_iff_getElem?.1 ht
  rw [getElem?_tables_schema] at hid
  obtain ⟨u, hu, rfl⟩ := Option.map_eq_some_iff.1 hid
  exact h u.name (List.mem_map_of_mem (List.mem_of_getElem? hu))

theorem free_sequences_schema {name : String} (h : dialect.Fresh d.sequences name) :
    ∀ q ∈ (d.schema source dialect).sequences,
      (d.schema source dialect).sameName q.name name = false := by
  intro q hq
  obtain ⟨id, hid⟩ := List.mem_iff_getElem?.1 hq
  rw [getElem?_sequences_schema] at hid
  obtain ⟨other, hother, rfl⟩ := Option.map_eq_some_iff.1 hid
  exact h other (List.mem_of_getElem? hother)

theorem free_indexes_schema {name : String} (h : dialect.Fresh (d.indexes.map Index.name) name) :
    ∀ i ∈ (d.schema source dialect).indexes,
      (d.schema source dialect).sameName i.name name = false :=
  fun i hi => h i.name (List.mem_map_of_mem hi)

/-! ### Names that are found -/

/-- A described table is found under its name. -/
theorem tableNamed_schema (h : (d.schema source dialect).Distinct) {id : TableId}
    {t : TableDeclaration} (ht : d.tables[id]? = some t) :
    (d.schema source dialect).tableNamed t.name = .ok (t.table id (d.rows id)) := by
  have hplace : (d.schema source dialect).tables[id]? = some (t.table id (d.rows id)) := by
    rw [getElem?_tables_schema, ht]
    rfl
  have hfound : (d.schema source dialect).tableNamed (t.table id (d.rows id)).name = _ :=
    h.tableNamed (List.mem_of_getElem? hplace)
  exact hfound

theorem sequenceNamed_schema (h : (d.schema source dialect).Distinct) {q : SequenceId}
    {name : String} (hq : d.sequences[q]? = some name) :
    (d.schema source dialect).sequenceNamed name = .ok ⟨q, name, d.users q⟩ := by
  have hplace : (d.schema source dialect).sequences[q]? = some ⟨q, name, d.users q⟩ := by
    rw [getElem?_sequences_schema, hq]
    rfl
  have hfound : (d.schema source dialect).sequenceNamed (Sequence.mk q name (d.users q)).name = _ :=
    h.sequenceNamed (List.mem_of_getElem? hplace)
  exact hfound

/-- A table that is declared next can refer to what was declared before it. -/
theorem finds_schema (h : (d.schema source dialect).Distinct) {t : TableDeclaration}
    (he : d ++ [.table t] <+: e)
    (hfresh : dialect.Fresh (d.tables.map TableDeclaration.name) t.name) :
    (d.schema source dialect).Finds e d.sequences.length d.tables.length := by
  have hd : d <+: e := (List.prefix_append d _).trans he
  constructor
  · intro q hq
    have hname := List.getElem?_eq_getElem hq
    rw [Description.sequenceName_of_prefix hd hname]
    exact ⟨_, sequenceNamed_schema h hname, rfl⟩
  · intro r hr
    have htable := List.getElem?_eq_getElem hr
    rw [Description.tableName_next he, Description.tableName_of_prefix hd htable]
    exact ⟨hfresh _ (List.mem_map_of_mem (List.getElem_mem hr)), _, tableNamed_schema h htable, rfl⟩

/-! ### One more declaration -/

theorem usersOf_draft (t : TableDeclaration) (id : TableId) (notices : List Notice)
    (q : SequenceId) : (t.draft id notices).usersOf q = (t.users q).map (id, ·) := by
  have hplaces : (t.uses.filter (·.1 == q)).map Prod.snd = t.users q := by
    rw [TableDeclaration.uses, TableDeclaration.users, TableDeclaration.places,
      List.filter_filterMap, List.map_filterMap]
    refine List.filterMap_congr fun c _ => ?_
    cases c.1.default.bind DefaultDeclaration.sequence? with
    | none => rfl
    | some r => by_cases hr : r = q <;> simp [hr]
  rw [← hplaces, List.map_map]
  rfl

/-- A table takes its place after the others, and sequences get its columns as users. -/
theorem schema_table (hd : d.Closed) (t : TableDeclaration) (notices : List Notice) :
    Description.schema (d ++ [.table t]) source dialect =
      (d.schema source dialect).withDraft (t.draft d.tables.length notices) := by
  have htables : Description.tables (d ++ [.table t]) = d.tables ++ [t] := d.tables_append _
  have hrows : ∀ id, Description.rows (d ++ [.table t]) id = d.rows id :=
    Description.rows_kept fun _ => rfl
  refine Schema.ext ?source ?dialect ?tables ?indexes ?sequences
  case source => rw [source_withDraft]; rfl
  case dialect => rw [dialect_withDraft]; rfl
  case tables =>
    simp only [Description.schema, hrows, tables_withDraft]
    rw [htables, List.mapIdx_concat, hd.rows _ (Nat.le_refl _)]
    rfl
  case indexes =>
    rw [indexes_withDraft]
    exact Description.indexes_kept rfl
  case sequences =>
    have hsequences : Description.sequences (d ++ [.table t]) = d.sequences :=
      Description.sequences_kept rfl
    ext q : 1
    rw [sequences_withDraft, getElem?_sequences_schema, getElem?_sequences_schema, usersOf_draft,
      Option.map_map, hsequences, Description.users_table]
    rfl

theorem schema_sequence (hd : d.Closed) (name : String) :
    Description.schema (d ++ [.sequence name]) source dialect =
      { d.schema source dialect with
        sequences := (d.schema source dialect).sequences ++
          [⟨(d.schema source dialect).sequences.length, name, []⟩] } := by
  have htables : Description.tables (d ++ [.sequence name]) = d.tables :=
    Description.tables_kept rfl
  have hrows : ∀ id, Description.rows (d ++ [.sequence name]) id = d.rows id :=
    Description.rows_kept fun _ => rfl
  have hsequences : Description.sequences (d ++ [.sequence name]) = d.sequences ++ [name] :=
    d.sequences_append _
  refine Schema.ext rfl rfl ?tables ?indexes ?sequences
  case tables =>
    simp only [Description.schema, hrows]
    rw [htables]
  case indexes => exact Description.indexes_kept rfl
  case sequences =>
    simp only [Description.schema, Description.users_of_tables htables]
    rw [hsequences, List.mapIdx_concat, hd.users _ (Nat.le_refl _), List.length_mapIdx]

theorem schema_index (i : Index) :
    Description.schema (d ++ [.index i]) source dialect =
      { d.schema source dialect with indexes := (d.schema source dialect).indexes ++ [i] } := by
  have htables : Description.tables (d ++ [.index i]) = d.tables := Description.tables_kept rfl
  have hrows : ∀ id, Description.rows (d ++ [.index i]) id = d.rows id :=
    Description.rows_kept fun _ => rfl
  have hsequences : Description.sequences (d ++ [.index i]) = d.sequences :=
    Description.sequences_kept rfl
  refine Schema.ext rfl rfl ?tables ?indexes ?sequences
  case tables =>
    simp only [Description.schema, hrows]
    rw [htables]
  case indexes => exact d.indexes_append _
  case sequences =>
    simp only [Description.schema, Description.users_of_tables htables]
    rw [hsequences]

/-- One row more in the description is one row more in the schema. -/
theorem schema_row {id : TableId} {t : TableDeclaration} (ht : d.tables[id]? = some t)
    (values : List Value) :
    Description.schema (d ++ [.row id values]) source dialect =
      (d.schema source dialect).modifyTable id fun _ => t.table id (d.rows id ++ [values]) := by
  have htables : Description.tables (d ++ [.row id values]) = d.tables :=
    Description.tables_kept rfl
  have hsequences : Description.sequences (d ++ [.row id values]) = d.sequences :=
    Description.sequences_kept rfl
  refine Schema.ext rfl rfl ?tables ?indexes ?sequences
  case tables =>
    ext j : 1
    -- Only the table at `id` has one row more.
    rw [Schema.modifyTable, List.getElem?_modify, getElem?_tables_schema, getElem?_tables_schema,
      htables, Description.rows_row]
    by_cases hj : id = j
    · subst hj
      rw [ht]
      simp
    · simp [hj]
  case indexes => exact Description.indexes_kept rfl
  case sequences =>
    simp only [Description.schema, Description.users_of_tables htables, Schema.modifyTable]
    rw [hsequences]

end Schemas

/-! ## Compiling declarations -/

section Compiling

variable {d e : Description} {source : String} {dialect : Dialect}

/-- Compiling the phrases of a valid table adds what the description says. -/
theorem into_table (hs : (d.schema source dialect).Distinct) (hd : d.Closed)
    {t : TableDeclaration} (ht : (Declaration.table t).Valid dialect d)
    (he : d ++ [.table t] <+: e) :
    (compileTable (groupedAll (e.phrases (.table t)))).into (d.schema source dialect) =
      (.ok d.tables.length, Description.schema (d ++ [.table t]) source dialect) := by
  obtain ⟨hfresh, hvalid⟩ := ht
  have hfree : ∀ u ∈ (d.schema source dialect).tables,
      (d.schema source dialect).sameName u.name t.name = false := free_tables_schema hfresh
  have hlength : (d.schema source dialect).tables.length = d.tables.length := length_tables_schema
  obtain ⟨notices, hread⟩ := readTable_phrases e (finds_schema hs he hfresh)
    (Description.tableName_next he).symm (hlength ▸ Schema.freshTable_of_free hfree) hvalid
  rw [schema_table hd t notices]
  exact into_compileTable hread hlength.symm hfree

theorem into_sequence (hd : d.Closed) {name : String}
    (hname : (Declaration.sequence name).Valid dialect d) :
    (compileSequence (groupedAll (e.phrases (.sequence name)))).into (d.schema source dialect) =
      (.ok d.sequences.length, Description.schema (d ++ [.sequence name]) source dialect) := by
  have hlength : (d.schema source dialect).sequences.length = d.sequences.length :=
    length_sequences_schema
  rw [schema_sequence hd, ← hlength]
  exact into_compileSequence (readSequenceDefinition_phrases e name) (free_sequences_schema hname)

theorem into_index (hs : (d.schema source dialect).Distinct) {i : Index}
    (hi : (Declaration.index i).Valid dialect d) (he : d <+: e) :
    (compileIndex (groupedAll (e.phrases (.index i)))).into (d.schema source dialect) =
      (.ok ⟨⟩, Description.schema (d ++ [.index i]) source dialect) := by
  obtain ⟨hfresh, t, ht, hplaces⟩ := hi
  have htable := tableNamed_schema hs ht
  have hdistinct : (t.table i.table (d.rows i.table)).Distinct :=
    hs.columns _ (Schema.tableNamed_ok htable).1
  have hread := readIndexHead_phrases e i
  rw [Description.tableName_of_prefix he ht, Description.columnList_of_prefix he ht] at hread
  rw [schema_index]
  exact into_compileIndex hread htable (readNames_columnList hplaces.1)
    (columnIndexes_table hdistinct hplaces.2) (free_indexes_schema hfresh)

theorem addRow_table {t : TableDeclaration} {id : TableId} {rows : List (List Value)}
    {values : List Value} (h : values.length ≤ t.columns.length) :
    (t.table id rows).addRow values = .ok (t.table id (rows ++ [values])) := by
  have hlength : ¬ (t.table id rows).columns.length < values.length := by
    rw [TableDeclaration.length_columns_table]
    exact Nat.not_lt.2 h
  rw [Table.addRow, if_neg hlength, TableDeclaration.names_table]
  simp [TableDeclaration.table]

/-- Compiling the phrases of a valid row adds what the description says. -/
theorem into_row (hs : (d.schema source dialect).Distinct) {id : TableId} {values : List Value}
    (hvalues : (Declaration.row id values).Valid dialect d) (he : d <+: e) :
    (compileSeedRow (groupedAll (e.phrases (.row id values)))).into (d.schema source dialect) =
      (.ok ⟨⟩, Description.schema (d ++ [.row id values]) source dialect) := by
  obtain ⟨hne, hfloat, t, ht, hlength⟩ := hvalues
  have hread := readSeedRow_phrases e id hne hfloat
  rw [Description.tableName_of_prefix he ht] at hread
  rw [schema_row ht]
  exact into_compileSeedRow hread (tableNamed_schema hs ht) (addRow_table hlength)

/-- Compiling a valid declaration makes the schema of what was declared before it that of what is
declared with it. -/
theorem into_phrases (hs : (d.schema source dialect).Distinct) (hd : d.Closed) {x : Declaration}
    (hx : x.Valid dialect d) (he : d ++ [x] <+: e) :
    (compileStatement (groupedAll (e.phrases x))).into (d.schema source dialect) =
      (.ok ⟨⟩, Description.schema (d ++ [x]) source dialect) := by
  have hprefix : d <+: e := (List.prefix_append d _).trans he
  rw [into_compileStatement, kind_phrases]
  cases x with
  | sequence name => exact Compiling.into_discard (into_sequence hd hx)
  | table t => exact Compiling.into_discard (into_table hs hd hx he)
  | index i => exact into_index hs hx hprefix
  | row id values => exact into_row hs hx hprefix

/-- Compiling what is declared after `d` makes the schema of `d` that of everything. -/
theorem into_compileScript_phrases (hs : Reachable (d.schema source dialect)) (hd : d.Closed)
    {more : Description} (hmore : Description.ValidAfter dialect d more) (he : d ++ more <+: e) :
    (compileScript (more.map fun x => groupedAll (e.phrases x))).into (d.schema source dialect) =
      (.ok ⟨⟩, Description.schema (d ++ more) source dialect) := by
  -- What was compiled is known by the schema that it describes, so `d` grows with every step.
  induction more generalizing d with
  | nil =>
    rw [List.append_nil]
    rfl
  | cons x more ih =>
    obtain ⟨hx, hmore⟩ := hmore
    have hsplit : d ++ x :: more = d ++ [x] ++ more := by simp
    have hstep := into_phrases (distinct_of_reachable hs) hd hx
      ((hsplit ▸ List.prefix_append (d ++ [x]) more).trans he)
    have hreachable : Reachable (Description.schema (d ++ [x]) source dialect) := by
      have hsubmit := hs.submit (.statement (groupedAll (e.phrases x)))
      rwa [Schema.submit, Submission.compile, hstep] at hsubmit
    rw [hsplit] at he ⊢
    rw [List.map_cons, into_compileScript_cons, hstep]
    exact ih hreachable (hd.concat hx) hmore he

end Compiling

/-! ## Compiling scripts -/

/-- Each declaration of a valid description is valid after those before it. -/
theorem Description.ValidAfter.valid {dialect : Dialect} {before d : Description}
    (h : Description.ValidAfter dialect before d) :
    ∀ x ∈ d, ∃ earlier, x.Valid dialect earlier := by
  induction d generalizing before with
  | nil => simp
  | cons x d ih =>
    obtain ⟨hx, hd⟩ := h
    exact List.forall_mem_cons.2 ⟨⟨before, hx⟩, ih hd⟩

/-- Compiling the script of a valid description makes an empty schema the one that is described. -/
theorem into_compileSource_script {dialect : Dialect} {d : Description} (h : d.Valid dialect)
    (source : String) :
    (compileSource d.script).into (.empty source dialect) = (.ok ⟨⟩, d.schema source dialect) := by
  have hreadable : ∀ ps ∈ d.map d.phrases, AllReadable ps := by
    intro ps hps
    obtain ⟨x, hx, rfl⟩ := List.mem_map.1 hps
    obtain ⟨before, hvalid⟩ := Description.ValidAfter.valid h x hx
    exact allReadable_phrases hvalid
  rw [into_compileSource, Description.script, statements_scriptText hreadable, List.map_map]
  exact into_compileScript_phrases (d := []) (.empty source dialect) .nil h (List.prefix_refl d)

/-- The types of the columns that compiling gives, table by table. -/
theorem types_schema (d : Description) (source : String) (dialect : Dialect) :
    (d.schema source dialect).tables.map (fun t => t.columns.map Column.type) =
      d.tables.map fun t => t.columns.map fun c => c.type.kept := by
  refine List.ext_getElem? fun id => ?_
  simp only [Description.schema, List.getElem?_map, List.getElem?_mapIdx, Option.map_map]
  refine congrFun (congrArg Option.map (funext fun t => List.ext_getElem? fun i => ?_)) _
  simp [TableDeclaration.table, ColumnDeclaration.column, Function.comp_def]

/-- Compiling undoes printing, but for the letter case of types: the script of a valid description
compiles to the schema that is described, with everything in its order. The types in it are the
described ones exactly if none of these has another letter case in its `time zone`. -/
theorem ofSource_script {dialect : Dialect} {d : Description} (h : d.Valid dialect)
    (source : String) :
    Schema.ofSource source dialect d.script = .ok (d.schema source dialect) ∧
      ((d.schema source dialect).tables.map (fun t => t.columns.map Column.type) =
          d.tables.map (fun t => t.columns.map ColumnDeclaration.type) ↔
        ∀ t ∈ d.tables, ∀ c ∈ t.columns, c.type.kept = c.type) := by
  constructor
  · rw [Schema.ofSource, into_compileSource_script h]
  · rw [types_schema]
    simp only [List.map_inj_left]

/-- A description with one of everything, and with quotes and blanks in its names. -/
def shopDescription : Description :=
  [.sequence "order numbers",
    .table ⟨"customers", [⟨"id", ⟨"integer", none⟩, true, none, none⟩,
      ⟨"say \"hi\"", ⟨"Varchar", some 40⟩, false, some (.literal (.text "it's")), none⟩],
      some [0], [(some "one; greeting", [1, 0]), (none, [1])]⟩,
    .table ⟨"orders", [⟨"number", ⟨"BIGINT", none⟩, true, some (.next 0), none⟩,
      ⟨"customer", ⟨"int", none⟩, false, some .null, some (0, some .cascade)⟩,
      ⟨"replaces", ⟨"double PRECISION", none⟩, false, some (.literal (.int (-7))), some (1, none)⟩,
      ⟨"placed", ⟨"Timestamp WITHOUT time zone", none⟩, true, none, none⟩], some [0, 1], []⟩,
    .index ⟨"by customer", 1, false, some "btree", [1]⟩,
    .index ⟨"by place", 1, true, none, [3, 0]⟩,
    .row 0 [.int 1, .text "good 'day'"],
    .row 0 [.null]]

/-- Its script compiles to what it describes, types included. -/
theorem ofSource_shopDescription : shopDescription.Valid .standard ∧
    Schema.ofSource unnamedSource .standard shopDescription.script =
      .ok (shopDescription.schema unnamedSource .standard) ∧
    (shopDescription.schema unnamedSource .standard).tables.map
        (fun t => t.columns.map Column.type) =
      shopDescription.tables.map fun t => t.columns.map ColumnDeclaration.type := by
  have hvalid : shopDescription.Valid .standard := by decide +kernel
  obtain ⟨hschema, htypes⟩ := ofSource_script hvalid unnamedSource
  exact ⟨hvalid, hschema, htypes.2 (by decide +kernel)⟩

/-- A table whose only column has a type of four words in upper case. -/
def zonedDescription : Description :=
  [.table ⟨"t", [⟨"x", ⟨"TIMESTAMP WITH TIME ZONE", none⟩, false, none, none⟩], none, []⟩]

/-- Its script is compiled, but its type loses the letter case of the last two words. -/
theorem ofSource_zonedDescription_ne : zonedDescription.Valid .standard ∧
    zonedDescription.script = "CREATE TABLE \"t\" ( \"x\" TIMESTAMP WITH TIME ZONE ) ;" ∧
      ∃ s, Schema.ofSource unnamedSource .standard zonedDescription.script = .ok s ∧
        (s.tables.map fun t => t.columns.map Column.type) ≠
          zonedDescription.tables.map fun t => t.columns.map ColumnDeclaration.type := by
  have hvalid : zonedDescription.Valid .standard := by decide +kernel
  refine ⟨hvalid, by decide +kernel, zonedDescription.schema unnamedSource .standard, ?_, ?_⟩
  · rw [Schema.ofSource, into_compileSource_script hvalid]
  · decide +kernel

end SqlCatalog
