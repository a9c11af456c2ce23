import Mathlib.Data.List.Nodup
import SqlCatalog.Proofs.Catalog.Coherent

/-!
# Distinct names

An object is added under a name that no object of its kind has, and a column under a name that no
column of its table has, so that names never come to mean two things. Names are compared by their
keys: by what the server keeps of the name of an object, and in lower case for columns.

## Main definitions

* `DistinctBy` says that names have different keys.
* `Table.Distinct` and `Schema.Distinct`.

## Main statements

* `Schema.Distinct.change`: every change keeps the names of a schema distinct.
* `distinct_of_reachable`: the names of every reachable schema are distinct.
* `Schema.Distinct.table_eq` and `Table.Distinct.columnNamed`: a name means one thing.
-/

namespace SqlCatalog

/-! ## Lists of names -/

/-- No two of the names have the same key. -/
def DistinctBy (key : String → String) (names : List String) : Prop := (names.map key).Nodup

section DistinctBy

variable {key : String → String} {names : List String}

theorem DistinctBy.nil : DistinctBy key [] := List.nodup_nil

/-- Names stay distinct when one with a new key is added. -/
theorem DistinctBy.concat (h : DistinctBy key names) {name : String}
    (hfree : ∀ other ∈ names, key other ≠ key name) : DistinctBy key (names ++ [name]) := by
  have hnew : key name ∉ names.map key := by
    rintro hmem
    obtain ⟨other, hother, hkey⟩ := List.mem_map.1 hmem
    exact hfree other hother hkey
  show ((names ++ [name]).map key).Nodup
  rw [List.map_append]
  exact h.append (List.nodup_singleton _) (List.disjoint_singleton.2 hnew)

/-- Two of the things that are named distinctly are one if their names have the same key. -/
theorem DistinctBy.eq_of_key {α : Type} {name : α → String} {l : List α}
    (h : DistinctBy key (l.map name)) {a b : α} (ha : a ∈ l) (hb : b ∈ l)
    (hkey : key (name a) = key (name b)) : a = b := by
  have hnodup : (l.map (key ∘ name)).Nodup := by
    rw [← List.map_map]
    exact h
  exact List.inj_on_of_nodup_map hnodup ha hb hkey

/-- Among distinct names, the first one of a key is the only one. -/
theorem find?_eq_some_iff_of_distinct {α : Type} {name : α → String} {l : List α}
    (h : DistinctBy key (l.map name)) {k : String} {b : α} :
    l.find? (fun b => key (name b) == k) = some b ↔ b ∈ l ∧ key (name b) = k := by
  constructor
  · intro hfind
    exact ⟨List.mem_of_find?_eq_some hfind, by simpa using List.find?_some hfind⟩
  · rintro ⟨hb, rfl⟩
    cases hfind : l.find? fun c => key (name c) == key (name b) with
    | none => simpa using List.find?_eq_none.1 hfind b hb
    | some c =>
      have hkey : key (name c) = key (name b) := by simpa using List.find?_some hfind
      rw [h.eq_of_key (List.mem_of_find?_eq_some hfind) hb hkey]

end DistinctBy

/-! ## Tables -/

theorem sameIgnoringCase_iff {a b : String} : sameIgnoringCase a b = true ↔ lower a = lower b := by
  simp [sameIgnoringCase]

/-- No two columns of the table have the same name, in any letter case. -/
def Table.Distinct (t : Table) : Prop := DistinctBy lower (t.columns.map Column.name)

namespace Table

variable {t t' : Table}

theorem Distinct.addColumn (h : t.Distinct) {name : String} {type : ColumnType}
    (hadd : t.addColumn name type = .ok t') : t'.Distinct := by
  obtain ⟨hfresh, rfl⟩ := addColumn_ok hadd
  rw [hasColumn_eq_false] at hfresh
  show DistinctBy lower ((t.columns ++ [_]).map Column.name)
  rw [List.map_append]
  refine h.concat ?_
  intro other hother
  obtain ⟨c, hc, rfl⟩ := List.mem_map.1 hother
  simpa [sameIgnoringCase] using hfresh c hc

theorem Distinct.modifyColumn (h : t.Distinct) (i : Nat) {f : Column → Column}
    (hf : ∀ c, (f c).name = c.name) : (t.modifyColumn i f).Distinct := by
  rw [Distinct, names_modifyColumn i hf]
  exact h

/-- Columns of one name are one. -/
theorem Distinct.column_eq (h : t.Distinct) {c d : Column} (hc : c ∈ t.columns)
    (hd : d ∈ t.columns) (hname : c.name = d.name) : c = d :=
  h.eq_of_key hc hd (congrArg lower hname)

/-- A table has a column exactly when some column's name is the given one, letter case apart. -/
theorem hasColumn_iff {name : String} :
    t.hasColumn name = true ↔ ∃ c ∈ t.columns, lower c.name = lower name := by
  simp [hasColumn, sameIgnoringCase_iff]

/-- Names find each column of a table with distinct names, and nothing else. -/
theorem columnNamed_eq_ok_iff (h : t.Distinct) {name : String} {c : Column} :
    t.columnNamed name = .ok c ↔ c ∈ t.columns ∧ lower c.name = lower name := by
  rw [← find?_eq_some_iff_of_distinct h, columnNamed]
  simp only [sameIgnoringCase]
  cases t.columns.find? fun c => lower c.name == lower name <;> simp

/-- Names find the place of each column of a table with distinct names, and nothing else. -/
theorem columnIndex_eq_ok_iff (h : t.Distinct) {name : String} {i : Nat} :
    t.columnIndex name = .ok i ↔ ∃ c, t.columns[i]? = some c ∧ lower c.name = lower name := by
  constructor
  · intro hfound
    obtain ⟨c, hc, hname⟩ := columnIndex_ok hfound
    exact ⟨c, hc, sameIgnoringCase_iff.1 hname⟩
  · rintro ⟨c, hc, hname⟩
    obtain ⟨hi, rfl⟩ := List.getElem?_eq_some_iff.1 hc
    have hfind : (t.columns.findIdx? fun b => sameIgnoringCase b.name name) = some i := by
      refine List.findIdx?_eq_some_iff_getElem.2 ⟨hi, sameIgnoringCase_iff.2 hname, ?_⟩
      -- An earlier column of that name would be the same column, at the same place.
      intro j hj hearlier
      have hkey := (sameIgnoringCase_iff.1 hearlier).trans hname.symm
      have hnodup : (t.columns.map (lower ∘ Column.name)).Nodup := by
        rw [← List.map_map]
        exact h
      have hne := List.nodup_iff_getElem?_ne_getElem?.1 hnodup j i hj (by simpa using hi)
      have hjlt := Nat.lt_trans hj hi
      exact hne (by simpa [hi, hjlt] using hkey)
    rw [columnIndex, hfind]

/-- A column is found by its own name. -/
theorem Distinct.columnNamed (h : t.Distinct) {c : Column} (hc : c ∈ t.columns) :
    t.columnNamed c.name = .ok c :=
  (columnNamed_eq_ok_iff h).2 ⟨hc, rfl⟩

/-- The place of a column is found by its name. -/
theorem Distinct.columnIndex (h : t.Distinct) {i : Nat} {c : Column} (hc : t.columns[i]? = some c) :
    t.columnIndex c.name = .ok i :=
  (columnIndex_eq_ok_iff h).2 ⟨c, hc, rfl⟩

end Table

/-! ## Drafts -/

section Drafts

variable {s : Schema} {d d' : Draft} {ds : DefaultLog}

/-- Reading a part of a body keeps the names of the columns distinct. -/
theorem DraftStep.distinct (h : DraftStep s d ds d') (hd : d.table.Distinct) :
    d'.table.Distinct := by
  cases h with
  | skip | primaryKey | constraint => exact hd
  | column hadd => exact hd.addColumn hadd
  | default | reference i | onDelete i => exact hd.modifyColumn _ fun _ => rfl

/-- A run of steps keeps the names of columns distinct. -/
theorem DraftRun.distinct (h : DraftRun s d ds d') (hd : d.table.Distinct) :
    d'.table.Distinct := by
  induction h with
  | nil d => exact hd
  | cons hstep _ ih => exact ih (hstep.distinct hd)

/-- The columns of a definition have distinct names, even where reading it stopped at an error. -/
theorem distinct_of_readTable {statement : Statement} {stopped : Option CompileError}
    (h : s.readTable statement = .ok (d, stopped)) : d.table.Distinct := by
  obtain ⟨name, comment, hrun⟩ := draftRun_of_readTable h
  exact hrun.distinct .nil

end Drafts

/-! ## Schemas -/

/-- No two objects of a kind have the same name, and no two columns of a table. -/
structure Schema.Distinct (s : Schema) : Prop where
  tables : DistinctBy s.dialect.identifierKey (s.tables.map Table.name)
  sequences : DistinctBy s.dialect.identifierKey (s.sequences.map Sequence.name)
  indexes : DistinctBy s.dialect.identifierKey (s.indexes.map Index.name)
  columns : ∀ t ∈ s.tables, t.Distinct

variable {s s' : Schema}

theorem sameName_eq_false {a b : String} :
    s.sameName a b = false ↔ s.dialect.identifierKey a ≠ s.dialect.identifierKey b := by
  simp [Schema.sameName, Dialect.sameName]

/-- Names stay distinct with one more that was free. -/
theorem DistinctBy.add {α : Type} {name : α → String} {l : List α} {a : α}
    (h : DistinctBy s.dialect.identifierKey (l.map name))
    (hfree : ∀ b ∈ l, s.sameName (name b) (name a) = false) :
    DistinctBy s.dialect.identifierKey ((l ++ [a]).map name) := by
  rw [List.map_append]
  refine h.concat ?_
  intro other hother
  obtain ⟨b, hb, rfl⟩ := List.mem_map.1 hother
  exact sameName_eq_false.1 (hfree b hb)

theorem names_sequences_withDraft (d : Draft) :
    (s.withDraft d).sequences.map Sequence.name = s.sequences.map Sequence.name := by
  ext i : 1
  rw [List.getElem?_map, sequences_withDraft, List.getElem?_map, Option.map_map]
  rfl

/-- A table that is replaced by one of the same name leaves the names as they were. -/
theorem names_tables_modifyTable (hs : s.Coherent) {t t' : Table} (ht : t ∈ s.tables)
    (hname : t'.name = t.name) :
    (s.modifyTable t.id fun _ => t').tables.map Table.name = s.tables.map Table.name := by
  ext i : 1
  -- The place that is changed holds `t`, since every table knows its place.
  rw [Schema.modifyTable, List.getElem?_map, List.getElem?_modify, List.getElem?_map]
  by_cases hi : t.id = i
  · rw [← hi, hs.getElem?_id ht]
    simp [hname]
  · simp [hi]

namespace Schema.Distinct

theorem empty (source : String) (dialect : Dialect) : (Schema.empty source dialect).Distinct where
  tables := .nil
  sequences := .nil
  indexes := .nil
  columns := by
    intro t ht
    cases ht

/-- Every change keeps the names of a schema distinct. -/
theorem change {kind : StatementKind} {statement : Statement} (h : s.Distinct) (hs : s.Coherent)
    (hchange : Change s kind statement s') : s'.Distinct := by
  cases hchange with
  | @table _ d hread _ hfree =>
    constructor
    · rw [dialect_withDraft, tables_withDraft]
      exact h.tables.add hfree
    · rw [dialect_withDraft, names_sequences_withDraft]
      exact h.sequences
    · rw [dialect_withDraft, indexes_withDraft]
      exact h.indexes
    · intro t ht
      rw [tables_withDraft] at ht
      rcases mem_concat.1 ht with ht | rfl
      · exact h.columns t ht
      · exact distinct_of_readTable hread
  | sequence hfree => exact { h with sequences := h.sequences.add hfree }
  | index _ _ _ hfree => exact { h with indexes := h.indexes.add hfree }
  | @seedRow _ t t' values ht hrow =>
    obtain ⟨-, ht'⟩ := Table.addRow_ok hrow
    have hname : t'.name = t.name := by rw [ht']
    have hcolumns : t'.Distinct := by
      rw [ht']
      exact h.columns t ht
    refine ⟨?_, h.sequences, h.indexes, ?_⟩
    · rw [names_tables_modifyTable hs ht hname]
      exact h.tables
    · intro u hu
      obtain ⟨i, hi⟩ := List.mem_iff_getElem?.1 hu
      rw [Schema.modifyTable, List.getElem?_modify] at hi
      obtain ⟨v, hv, rfl⟩ := Option.map_eq_some_iff.1 hi
      split
      · exact hcolumns
      · exact h.columns v (List.mem_of_getElem? hv)
  | blank => exact h

/-- Names find each table of a schema with distinct names, and nothing else. -/
theorem tableNamed_eq_ok_iff (h : s.Distinct) {name : String} {t : Table} :
    s.tableNamed name = .ok t ↔
      t ∈ s.tables ∧ s.dialect.identifierKey t.name = s.dialect.identifierKey name := by
  rw [← find?_eq_some_iff_of_distinct h.tables, Schema.tableNamed]
  simp only [sameName, Dialect.sameName]
  split <;> simp [*]

theorem sequenceNamed_eq_ok_iff (h : s.Distinct) {name : String} {q : Sequence} :
    s.sequenceNamed name = .ok q ↔
      q ∈ s.sequences ∧ s.dialect.identifierKey q.name = s.dialect.identifierKey name := by
  rw [← find?_eq_some_iff_of_distinct h.sequences, Schema.sequenceNamed]
  simp only [sameName, Dialect.sameName]
  split <;> simp [*]

theorem indexNamed_eq_ok_iff (h : s.Distinct) {name : String} {i : Index} :
    s.indexNamed name = .ok i ↔
      i ∈ s.indexes ∧ s.dialect.identifierKey i.name = s.dialect.identifierKey name := by
  rw [← find?_eq_some_iff_of_distinct h.indexes, Schema.indexNamed]
  simp only [sameName, Dialect.sameName]
  split <;> simp [*]

/-- A table is found by its own name. -/
theorem tableNamed (h : s.Distinct) {t : Table} (ht : t ∈ s.tables) :
    s.tableNamed t.name = .ok t :=
  h.tableNamed_eq_ok_iff.2 ⟨ht, rfl⟩

/-- A sequence is found by its own name. -/
theorem sequenceNamed (h : s.Distinct) {q : Sequence} (hq : q ∈ s.sequences) :
    s.sequenceNamed q.name = .ok q :=
  h.sequenceNamed_eq_ok_iff.2 ⟨hq, rfl⟩

/-- Two tables with the same name are one. -/
theorem table_eq (h : s.Distinct) {t u : Table} (ht : t ∈ s.tables) (hu : u ∈ s.tables)
    (hname : s.sameName t.name u.name = true) : t = u := by
  refine h.tables.eq_of_key ht hu ?_
  simpa [Schema.sameName, Dialect.sameName] using hname

end Schema.Distinct

/-- The names of every reachable schema are distinct. -/
theorem distinct_of_reachable (h : Reachable s) : s.Distinct := by
  have both : s.Coherent ∧ s.Distinct := by
    refine h.of_change (P := fun s => s.Coherent ∧ s.Distinct) ?_ ?_
    · intro source dialect
      exact ⟨.empty source dialect, .empty source dialect⟩
    · rintro s kind statement s' ⟨hcoherent, hdistinct⟩ hchange
      exact ⟨hcoherent.change hchange, hdistinct.change hcoherent hchange⟩
  exact both.2

end SqlCatalog
