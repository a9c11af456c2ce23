import SqlCatalog.Schema.Names

/-!
# What finding and adding give

What is found by name is there and has the name; what is not found is not there. What is added
under a name that must be free is added at the end.

## Main statements

* `tableNamed_ok`, `tableNamed_error` and their kin for sequences, indexes and columns.
* `addTable_ok`, `addSequence_ok`, `addIndex_ok`, `addColumn_ok` and `addRow_ok`.
* `addTable_of_free` and its kin: what is added under a free name.
-/

namespace SqlCatalog

/-! ## Columns and rows of a table -/

namespace Table

variable {t t' : Table} {name : String}

/-- The place that is found is that of a column with the name, letter case apart. -/
theorem columnIndex_ok {i : Nat} (h : t.columnIndex name = .ok i) :
    ∃ c, t.columns[i]? = some c ∧ sameIgnoringCase c.name name = true := by
  unfold columnIndex at h
  split at h
  · rename_i j hj
    obtain rfl : j = i := by simpa using h
    obtain ⟨hlt, hname, -⟩ := List.findIdx?_eq_some_iff_getElem.1 hj
    exact ⟨t.columns[j], List.getElem?_eq_getElem hlt, hname⟩
  · cases h

theorem columnIndex_lt {i : Nat} (h : t.columnIndex name = .ok i) : i < t.columns.length := by
  obtain ⟨c, hc, -⟩ := columnIndex_ok h
  exact (List.getElem?_eq_some_iff.1 hc).1

/-- Several look-ups give a place each, all of them places of columns. -/
theorem columnIndexes_lt {names : List String} {is : List Nat}
    (h : t.columnIndexes names = .ok is) : ∀ i ∈ is, i < t.columns.length := by
  unfold columnIndexes at h
  induction names generalizing is with
  | nil =>
    obtain rfl : [] = is := by simpa [pure, Except.pure] using h
    simp
  | cons name names ih =>
    rw [List.mapM_cons] at h
    cases hfirst : t.columnIndex name with
    | error e => simp [hfirst, bind, Except.bind] at h
    | ok j =>
      cases hrest : names.mapM t.columnIndex with
      | error e => simp [hfirst, hrest, bind, Except.bind] at h
      | ok js =>
        obtain rfl : j :: js = is := by
          simpa [hfirst, hrest, bind, Except.bind, pure, Except.pure] using h
        intro i hi
        rcases List.mem_cons.1 hi with rfl | hi
        · exact columnIndex_lt hfirst
        · exact ih hrest i hi

theorem hasColumn_eq_false : t.hasColumn name = false ↔
    ∀ c ∈ t.columns, sameIgnoringCase c.name name = false := by
  simp [hasColumn]

/-- A column is added under a free name, at the end, with nothing but its type. -/
theorem addColumn_ok {type : ColumnType} (h : t.addColumn name type = .ok t') :
    t.hasColumn name = false ∧
      t' = { t with
        columns := t.columns ++ [⟨name, t.id, t.columns.length, type, none, none, none⟩] } := by
  unfold addColumn at h
  split at h
  · cases h
  · rename_i hfresh
    exact ⟨by simpa using hfresh, by simpa using h.symm⟩

/-- A row is added if it has no more values than there are columns, under their names in order. -/
theorem addRow_ok {values : List Value} (h : t.addRow values = .ok t') :
    values.length ≤ t.columns.length ∧
      t' = { t with rows := t.rows ++ [(t.columns.map Column.name).zip values] } := by
  unfold addRow at h
  split at h
  · cases h
  · rename_i hfits
    exact ⟨Nat.le_of_not_lt hfits, by simpa using h.symm⟩

end Table

/-! ## Objects of a schema -/

namespace Schema

variable {s s' : Schema} {name : String}

/-- The table that is found is one of the schema, with that name. -/
theorem tableNamed_ok {t : Table} (h : s.tableNamed name = .ok t) :
    t ∈ s.tables ∧ s.sameName t.name name = true := by
  unfold tableNamed at h
  split at h
  · rename_i u hu
    obtain rfl : u = t := by simpa using h
    have hname := List.find?_some hu
    exact ⟨List.mem_of_find?_eq_some hu, hname⟩
  · cases h

theorem tableNamed_error {e : CatalogError} (h : s.tableNamed name = .error e) :
    ∀ t ∈ s.tables, s.sameName t.name name = false := by
  unfold tableNamed at h
  split at h
  · cases h
  · rename_i hnone
    simpa using hnone

theorem sequenceNamed_ok {q : Sequence} (h : s.sequenceNamed name = .ok q) :
    q ∈ s.sequences ∧ s.sameName q.name name = true := by
  unfold sequenceNamed at h
  split at h
  · rename_i u hu
    obtain rfl : u = q := by simpa using h
    have hname := List.find?_some hu
    exact ⟨List.mem_of_find?_eq_some hu, hname⟩
  · cases h

theorem sequenceNamed_error {e : CatalogError} (h : s.sequenceNamed name = .error e) :
    ∀ q ∈ s.sequences, s.sameName q.name name = false := by
  unfold sequenceNamed at h
  split at h
  · cases h
  · rename_i hnone
    simpa using hnone

theorem freshTable_ok {t : Table} (h : s.freshTable name = .ok t) :
    t = .empty s.tables.length name := by
  unfold freshTable at h
  split at h
  · cases h
  · simpa using h.symm

/-- A table is added under a free name, at the next place. -/
theorem addTable_ok {t : Table} (h : s.addTable t = .ok s') :
    t.id = s.tables.length ∧ (∀ u ∈ s.tables, s.sameName u.name t.name = false) ∧
      s' = { s with tables := s.tables ++ [t] } := by
  unfold addTable at h
  split at h
  · cases h
  · rename_i hid
    split at h
    · cases h
    · rename_i hfree
      exact ⟨Decidable.not_not.1 hid, tableNamed_error hfree, by simpa using h.symm⟩

theorem addSequence_ok (h : s.addSequence name = .ok s') :
    (∀ q ∈ s.sequences, s.sameName q.name name = false) ∧
      s' = { s with sequences := s.sequences ++ [⟨s.sequences.length, name, []⟩] } := by
  unfold addSequence at h
  split at h
  · cases h
  · rename_i hfree
    exact ⟨sequenceNamed_error hfree, by simpa using h.symm⟩

theorem addIndex_ok {i : Index} (h : s.addIndex i = .ok s') :
    (∀ j ∈ s.indexes, s.sameName j.name i.name = false) ∧
      s' = { s with indexes := s.indexes ++ [i] } := by
  unfold addIndex indexNamed at h
  split at h
  · cases h
  · rename_i hfree
    split at hfree
    · cases hfree
    · rename_i hnone
      exact ⟨by simpa using hnone, by simpa using h.symm⟩

/-! ### Under a free name -/

theorem tableNamed_of_free (h : ∀ t ∈ s.tables, s.sameName t.name name = false) :
    s.tableNamed name = .error (.noSuchTable name) := by
  have hnone : (s.tables.find? fun t => s.sameName t.name name) = none := by simpa using h
  rw [tableNamed, hnone]

theorem freshTable_of_free (h : ∀ t ∈ s.tables, s.sameName t.name name = false) :
    s.freshTable name = .ok (.empty s.tables.length name) := by
  rw [freshTable, tableNamed_of_free h]

theorem addTable_of_free {t : Table} (hid : t.id = s.tables.length)
    (h : ∀ u ∈ s.tables, s.sameName u.name t.name = false) :
    s.addTable t = .ok { s with tables := s.tables ++ [t] } := by
  rw [addTable, if_neg fun hother => hother hid, tableNamed_of_free h]

theorem addSequence_of_free (h : ∀ q ∈ s.sequences, s.sameName q.name name = false) :
    s.addSequence name =
      .ok { s with sequences := s.sequences ++ [⟨s.sequences.length, name, []⟩] } := by
  have hnone : (s.sequences.find? fun q => s.sameName q.name name) = none := by simpa using h
  rw [addSequence, sequenceNamed, hnone]

theorem addIndex_of_free {i : Index} (h : ∀ j ∈ s.indexes, s.sameName j.name i.name = false) :
    s.addIndex i = .ok { s with indexes := s.indexes ++ [i] } := by
  have hnone : (s.indexes.find? fun j => s.sameName j.name i.name) = none := by simpa using h
  rw [addIndex, indexNamed, hnone]

end Schema

end SqlCatalog
