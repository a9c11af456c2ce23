import SqlCatalog.Proofs.Catalog.Reports

/-!
# Reports seen from the other side

The report of one schema against another and the report the other way round go through different
lists and look for different things. Still they say the same: what one calls extra the other calls
missing, in the same order, and both find the same types different. For tables, indexes and
sequences this holds of any lists, also where several objects have one name. For columns it needs
that names are distinct, so that a table is compared with the same table in both directions.

## Main definitions

* `Side` is the side of a finding, `Discrepancy.object?` and `Discrepancy.column?` are what a
  finding reports on a side.

## Main statements

* `objects_discrepancies`: the objects that are reported are those without a partner.
* `filter_discrepancies`: what is reported of a table is what its comparison with its partner
  reports.
* `discrepancies_mirrored`: reports in both directions mirror each other.
-/

namespace SqlCatalog

/-! ## Sides of findings -/

/-- Whether something is reported as extra or as missing. -/
inductive Side where
  | extra
  | missing
deriving DecidableEq

/-- How the other schema reports the same. -/
def Side.opposite : Side → Side
  | extra => missing
  | missing => extra

namespace Discrepancy

/-- The name of the object of the given kind that a finding reports on the given side. -/
def object? (side : Side) (kind : ObjectKind) : Discrepancy → Option String
  | extra _ k name => if side = .extra ∧ k = kind then some name else none
  | missing _ k name => if side = .missing ∧ k = kind then some name else none
  | _ => none

/-- The column of the table with the given name that a finding reports on the given side. -/
def column? (side : Side) (table : String) : Discrepancy → Option String
  | extraColumn t column => if side = .extra ∧ t = table then some column else none
  | missingColumn t column => if side = .missing ∧ t = table then some column else none
  | _ => none

end Discrepancy

open Discrepancy (object? column?)

/-! ## Objects -/

section Objects

variable {α : Type} {key : String → String} {name : α → String} {mine theirs : List α}

/-- The objects without a partner on one side. -/
def Pairing.unpaired (p : Pairing α) : Side → List α
  | .extra => p.extra
  | .missing => p.missing

/-- The objects without a partner are the same from both sides, in the same order. -/
theorem Pairing.unpaired_opposite (side : Side) :
    (Pairing.of key name mine theirs).unpaired side =
      (Pairing.of key name theirs mine).unpaired side.opposite := by
  cases side <;> rfl

/-- The findings about objects without a partner name these objects, on their own side. -/
theorem objects_unmatched (p : Pairing α) (source : String) (kind kind' : ObjectKind)
    (side : Side) :
    (p.unmatched source kind name).filterMap (object? side kind') =
      if kind = kind' then (p.unpaired side).map name else [] := by
  cases side <;> by_cases h : kind = kind' <;>
    simp [Pairing.unmatched, Pairing.unpaired, object?, List.filterMap_map, Function.comp_def, h]

/-- A comparison of tables finds columns that only one has, and columns of different types. -/
theorem mem_discrepancies {d : Dialect} {t u : Table} {x : Discrepancy}
    (hx : x ∈ t.discrepancies d u) :
    (∃ column, x = .extraColumn t.name column) ∨ (∃ column, x = .missingColumn t.name column) ∨
      ∃ column mine theirs, x = .columnType t.name column mine theirs := by
  simp only [Table.discrepancies, List.mem_append, List.mem_map, List.mem_flatMap] at hx
  obtain (⟨c, -, rfl⟩ | ⟨c, -, rfl⟩) | ⟨c, -, hx⟩ := hx
  · exact .inl ⟨c.name, rfl⟩
  · exact .inr (.inl ⟨c.name, rfl⟩)
  · split at hx
    · rw [Column.discrepancies] at hx
      split at hx
      · cases hx
      · exact .inr (.inr ⟨_, _, _, List.mem_singleton.1 hx⟩)
    · cases hx

/-- A comparison of indexes finds that their tables or their uniqueness differ. -/
theorem mem_indexDiscrepancies {p q : PseudoIndex} {x : Discrepancy}
    (hx : x ∈ p.discrepancies q) :
    x = .indexTable p.name q.table.name ∨ x = .indexUnique p.name := by
  rw [PseudoIndex.discrepancies, List.mem_append] at hx
  rcases hx with hx | hx <;> split at hx
  · cases hx
  · exact .inl (List.mem_singleton.1 hx)
  · cases hx
  · exact .inr (List.mem_singleton.1 hx)

/-- Objects without a partner are extra or missing. -/
theorem mem_unmatched {p : Pairing α} {source : String} {kind : ObjectKind} {x : Discrepancy}
    (hx : x ∈ p.unmatched source kind name) :
    ∃ n, x = .extra source kind n ∨ x = .missing source kind n := by
  rw [Pairing.unmatched, List.mem_append, List.mem_map, List.mem_map] at hx
  rcases hx with ⟨a, -, rfl⟩ | ⟨a, -, rfl⟩
  · exact ⟨name a, .inl rfl⟩
  · exact ⟨name a, .inr rfl⟩

theorem objects_columns (d : Dialect) (t u : Table) (side : Side) (kind : ObjectKind) :
    (t.discrepancies d u).filterMap (object? side kind) = [] := by
  rw [List.filterMap_eq_nil_iff]
  intro x hx
  rcases mem_discrepancies hx with ⟨c, rfl⟩ | ⟨c, rfl⟩ | ⟨c, mine, theirs, rfl⟩ <;> rfl

theorem objects_indexes (p q : PseudoIndex) (side : Side) (kind : ObjectKind) :
    (p.discrepancies q).filterMap (object? side kind) = [] := by
  rw [PseudoIndex.discrepancies]
  split <;> split <;> rfl

end Objects

/-! ## Schemas -/

section Schemas

variable {a b : Schema} {t u : Table}

/-- The names of the objects of a kind without a partner on one side. -/
def Schema.unpaired (mine theirs : Schema) (side : Side) : ObjectKind → List String
  | .table =>
    ((Pairing.of mine.dialect.identifierKey Table.name mine.tables theirs.tables).unpaired
      side).map Table.name
  | .index =>
    ((Pairing.of lower PseudoIndex.name mine.pseudoIndexes theirs.pseudoIndexes).unpaired
      side).map PseudoIndex.name
  | .sequence =>
    ((Pairing.of mine.dialect.identifierKey Sequence.name mine.sequences
      theirs.sequences).unpaired side).map Sequence.name
  | .column => []

/-- What one schema has without a partner is what the other one misses. -/
theorem Schema.unpaired_opposite (hdialect : b.dialect = a.dialect) (side : Side)
    (kind : ObjectKind) : a.unpaired b side kind = b.unpaired a side.opposite kind := by
  cases kind with
  | column => rfl
  | _ => simp only [Schema.unpaired, hdialect, ← Pairing.unpaired_opposite]

/-- The objects that a report calls extra or missing are those without a partner. -/
theorem objects_discrepancies (a b : Schema) (side : Side) (kind : ObjectKind) :
    (a.discrepancies b).filterMap (object? side kind) = a.unpaired b side kind := by
  have hcolumns : ∀ l : List (Table × Table),
      (l.flatMap fun p => p.1.discrepancies a.dialect p.2).filterMap (object? side kind) = [] := by
    intro l
    rw [List.filterMap_flatMap, List.flatMap_eq_nil_iff]
    exact fun p _ => objects_columns a.dialect p.1 p.2 side kind
  have hindexes : ∀ l : List (PseudoIndex × PseudoIndex),
      (l.flatMap fun p => p.1.discrepancies p.2).filterMap (object? side kind) = [] := by
    intro l
    rw [List.filterMap_flatMap, List.flatMap_eq_nil_iff]
    exact fun p _ => objects_indexes p.1 p.2 side kind
  simp only [Schema.discrepancies, Schema.discrepanciesOver, List.filterMap_append,
    objects_unmatched, hcolumns, hindexes]
  cases kind <;> simp [Schema.unpaired]

/-! ### Findings about one table -/

/-- The table that a finding is about, if it is about the columns of one. -/
def Discrepancy.table? : Discrepancy → Option String
  | extraColumn t _ | missingColumn t _ | columnType t .. => some t
  | _ => none

/-- A finding about the columns of two tables is about the first one. -/
theorem table?_of_mem_discrepancies {d : Dialect} {x : Discrepancy}
    (hx : x ∈ t.discrepancies d u) : x.table? = some t.name := by
  rcases mem_discrepancies hx with ⟨c, rfl⟩ | ⟨c, rfl⟩ | ⟨c, mine, theirs, rfl⟩ <;> rfl

theorem table?_of_mem_unmatched {α : Type} {p : Pairing α} {source : String} {kind : ObjectKind}
    {name : α → String} {x : Discrepancy} (hx : x ∈ p.unmatched source kind name) :
    x.table? = none := by
  obtain ⟨n, rfl | rfl⟩ := mem_unmatched hx <;> rfl

theorem table?_of_mem_indexes {p q : PseudoIndex} {x : Discrepancy}
    (hx : x ∈ p.discrepancies q) : x.table? = none := by
  rcases mem_indexDiscrepancies hx with rfl | rfl <;> rfl

/-- Findings that are about no table at all are not about this one. -/
theorem filter_table?_eq_nil {ds : List Discrepancy} {table : String}
    (h : ∀ x ∈ ds, x.table? ≠ some table) : (ds.filter fun x => x.table? = some table) = [] := by
  rw [List.filter_eq_nil_iff]
  simpa using h

/-- What a report says about a table is what the comparison with its partner says. -/
theorem filter_discrepancies (ha : a.Distinct) (hb : b.Distinct) (hdialect : b.dialect = a.dialect)
    (ht : t ∈ a.tables) (hu : u ∈ b.tables) (hname : a.sameName t.name u.name = true) :
    ((a.discrepancies b).filter fun x => x.table? = some t.name) =
      t.discrepancies a.dialect u := by
  have hpartner : b.tables.find? (fun v =>
      a.dialect.identifierKey v.name == a.dialect.identifierKey t.name) = some u := by
    have htables := hb.tables
    rw [hdialect] at htables
    have hkey : a.dialect.identifierKey t.name = a.dialect.identifierKey u.name := by
      simpa [Schema.sameName, Dialect.sameName] using hname
    exact (find?_eq_some_iff_of_distinct htables).2 ⟨hu, hkey.symm⟩
  have hindexes : ∀ l : List (PseudoIndex × PseudoIndex),
      ((l.flatMap fun p => p.1.discrepancies p.2).filter fun x => x.table? = some t.name) = [] := by
    intro l
    refine filter_table?_eq_nil fun x hx => ?_
    obtain ⟨p, -, hx⟩ := List.mem_flatMap.1 hx
    simp [table?_of_mem_indexes hx]
  have hunmatched {α : Type} (p : Pairing α) (kind : ObjectKind) (name : α → String) :
      ((p.unmatched b.source kind name).filter fun x => x.table? = some t.name) = [] :=
    filter_table?_eq_nil fun x hx => by simp [table?_of_mem_unmatched hx]
  -- The table stands once in the list, and those before and after it have other names.
  obtain ⟨before, after, htables⟩ := List.append_of_mem ht
  have hothers : ∀ v ∈ before ++ after, v.name ≠ t.name := by
    have hnodup := ha.tables
    rw [htables, DistinctBy, List.map_map, List.map_append, List.map_cons, List.nodup_middle,
      List.nodup_cons] at hnodup
    rintro v hv hsame
    refine hnodup.1 ?_
    rw [← List.map_append, List.mem_map]
    exact ⟨v, hv, congrArg a.dialect.identifierKey hsame⟩
  have hmatched : (Pairing.of a.dialect.identifierKey Table.name a.tables b.tables).matched =
      (Pairing.of a.dialect.identifierKey Table.name before b.tables).matched ++
        (t, u) :: (Pairing.of a.dialect.identifierKey Table.name after b.tables).matched := by
    simp [Pairing.of, htables, hpartner]
  have hapart (l : List Table) (hl : ∀ v ∈ l, v.name ≠ t.name) :
      (((Pairing.of a.dialect.identifierKey Table.name l b.tables).matched.flatMap fun p =>
        p.1.discrepancies a.dialect p.2).filter fun x => x.table? = some t.name) = [] := by
    refine filter_table?_eq_nil fun x hx => ?_
    obtain ⟨p, hp, hx⟩ := List.mem_flatMap.1 hx
    obtain ⟨v, hv, hpair⟩ := List.mem_filterMap.1 hp
    obtain ⟨w, -, rfl⟩ := Option.map_eq_some_iff.1 hpair
    simpa [table?_of_mem_discrepancies hx] using hl v hv
  have hbefore := hapart before fun v hv => hothers v (List.mem_append_left _ hv)
  have hafter := hapart after fun v hv => hothers v (List.mem_append_right _ hv)
  have hown : ((t.discrepancies a.dialect u).filter fun x => x.table? = some t.name) =
      t.discrepancies a.dialect u :=
    List.filter_eq_self.2 fun x hx => by simp [table?_of_mem_discrepancies hx]
  simp only [Schema.discrepancies, Schema.discrepanciesOver, List.filter_append, hunmatched,
    hindexes, hmatched, List.flatMap_append, List.flatMap_cons, hbefore, hafter, hown,
    List.nil_append, List.append_nil]

/-! ### Columns -/

/-- The columns of one table that the other one has not, on one side. -/
def Table.unpaired (mine theirs : Table) : Side → List String
  | .extra => (mine.columns.filter fun c => !theirs.hasColumn c.name).map Column.name
  | .missing => (theirs.columns.filter fun c => !mine.hasColumn c.name).map Column.name

/-- The columns that one table has alone are those that the other one misses. -/
theorem Table.unpaired_opposite (t u : Table) (side : Side) :
    t.unpaired u side = u.unpaired t side.opposite := by
  cases side <;> rfl

/-- The columns that a comparison of tables calls extra or missing are those without a partner. -/
theorem columns_discrepancies (d : Dialect) (t u : Table) (side : Side) :
    (t.discrepancies d u).filterMap (column? side t.name) = t.unpaired u side := by
  obtain ⟨types, htypes, hparts⟩ : ∃ types : List Discrepancy,
      types.filterMap (column? side t.name) = [] ∧
        t.discrepancies d u =
          (t.columns.filter fun c => !u.hasColumn c.name).map (.extraColumn t.name ·.name)
            ++ (u.columns.filter fun c => !t.hasColumn c.name).map (.missingColumn t.name ·.name)
            ++ types := by
    refine ⟨_, ?_, rfl⟩
    rw [List.filterMap_flatMap, List.flatMap_eq_nil_iff]
    intro c _
    split
    · rw [Column.discrepancies]
      split <;> rfl
    · rfl
  rw [hparts, List.filterMap_append, List.filterMap_append, htypes]
  cases side <;> simp [column?, Table.unpaired, List.filterMap_map, Function.comp_def]

theorem column?_eq_none {side : Side} {table : String} {x : Discrepancy}
    (h : x.table? ≠ some table) : column? side table x = none := by
  cases x <;> simp_all [column?, Discrepancy.table?]

/-- The columns of a table that a report calls extra or missing are those without a partner. -/
theorem columns_report (ha : a.Distinct) (hb : b.Distinct) (hdialect : b.dialect = a.dialect)
    (ht : t ∈ a.tables) (hu : u ∈ b.tables) (hname : a.sameName t.name u.name = true)
    (side : Side) :
    (a.discrepancies b).filterMap (column? side t.name) = t.unpaired u side := by
  have habout : (a.discrepancies b).filterMap (column? side t.name) =
      ((a.discrepancies b).filter fun x => x.table? = some t.name).filterMap
        (column? side t.name) := by
    rw [List.filterMap_filter]
    refine List.filterMap_congr fun x _ => ?_
    by_cases hx : x.table? = some t.name
    · simp [hx]
    · simp [hx, column?_eq_none hx]
  rw [habout, filter_discrepancies ha hb hdialect ht hu hname, columns_discrepancies]

/-- Two columns of one name are reported for their types when these belong to different families. -/
theorem columnType_mem_report_iff (ha : a.Distinct) (hb : b.Distinct)
    (hdialect : b.dialect = a.dialect) (ht : t ∈ a.tables) (hu : u ∈ b.tables)
    (hname : a.sameName t.name u.name = true) {c c' : Column} (hc : c ∈ t.columns)
    (hc' : c' ∈ u.columns) (hcolumn : sameIgnoringCase c.name c'.name = true) :
    .columnType t.name c.name c.type c'.type ∈ a.discrepancies b ↔
      typeFamily a.dialect c.type.name ≠ typeFamily a.dialect c'.type.name := by
  have habout : .columnType t.name c.name c.type c'.type ∈ a.discrepancies b ↔
      .columnType t.name c.name c.type c'.type ∈ t.discrepancies a.dialect u := by
    rw [← filter_discrepancies ha hb hdialect ht hu hname, List.mem_filter]
    simp [Discrepancy.table?]
  have hfound : u.columnNamed c.name = .ok c' :=
    (Table.columnNamed_eq_ok_iff (hb.columns u hu)).2 ⟨hc', (sameIgnoringCase_iff.1 hcolumn).symm⟩
  rw [habout, Table.discrepancies]
  constructor
  · intro h hfamily
    simp only [List.mem_append, List.mem_map, reduceCtorEq, and_false, exists_false, or_false,
      false_or, List.mem_flatMap] at h
    obtain ⟨c₀, hc₀, h⟩ := h
    split at h
    · rename_i other hother
      rw [Column.discrepancies] at h
      split at h
      · cases h
      · rename_i hdiffer
        obtain ⟨-, hsame, -, -⟩ := Discrepancy.columnType.inj (List.mem_singleton.1 h)
        obtain rfl : c = c₀ := DistinctBy.eq_of_key (ha.columns t ht) hc hc₀ (by rw [hsame])
        obtain rfl := Except.ok.inj (hfound.symm.trans hother)
        exact hdiffer (by simpa using hfamily)
    · cases h
  · intro hfamily
    refine List.mem_append_right _ (List.mem_flatMap.2 ⟨c, hc, ?_⟩)
    simp [hfound, Column.discrepancies, hfamily]

/-- Reports in both directions mirror each other: what one calls extra the other calls missing, and
the other way round, in the same order and as often, for tables, indexes and sequences and for the
columns of each two tables of one name; and both call the types of the same columns different. -/
theorem discrepancies_mirrored (ha : Reachable a) (hb : Reachable b)
    (hdialect : a.dialect = b.dialect) :
    (∀ side kind, (a.discrepancies b).filterMap (object? side kind) =
        (b.discrepancies a).filterMap (object? side.opposite kind)) ∧
      ∀ t ∈ a.tables, ∀ u ∈ b.tables, a.sameName t.name u.name = true →
        (∀ side, (a.discrepancies b).filterMap (column? side t.name) =
          (b.discrepancies a).filterMap (column? side.opposite u.name)) ∧
        ∀ c ∈ t.columns, ∀ c' ∈ u.columns, sameIgnoringCase c.name c'.name = true →
          (.columnType t.name c.name c.type c'.type ∈ a.discrepancies b ↔
            .columnType u.name c'.name c'.type c.type ∈ b.discrepancies a) := by
  have hma := distinct_of_reachable ha
  have hmb := distinct_of_reachable hb
  refine ⟨fun side kind => ?_, fun t ht u hu hname => ?_⟩
  · rw [objects_discrepancies, objects_discrepancies, Schema.unpaired_opposite hdialect.symm]
  · have hback : b.sameName u.name t.name = true := by
      rw [Schema.sameName, Dialect.sameName, ← hdialect, Bool.beq_comm]
      exact hname
    refine ⟨fun side => ?_, fun c hc c' hc' hcolumn => ?_⟩
    · rw [columns_report hma hmb hdialect.symm ht hu hname,
        columns_report hmb hma hdialect hu ht hback, Table.unpaired_opposite]
    · have hcolumnback : sameIgnoringCase c'.name c.name = true := by
        rw [sameIgnoringCase, Bool.beq_comm]
        exact hcolumn
      rw [columnType_mem_report_iff hma hmb hdialect.symm ht hu hname hc hc' hcolumn,
        columnType_mem_report_iff hmb hma hdialect hu ht hback hc' hc hcolumnback, hdialect]
      exact ne_comm

end Schemas

/-- A schema with two indexes that do the same. -/
def twoIndexes : Schema :=
  (Schema.empty "" .standard).submit (.source
    "create table t (x int, y text); create index i on t (x); create index j on t (x)")

/-- A schema with the same table, in which a column is missing and one has another type. -/
def otherColumns : Schema :=
  (Schema.empty "" .standard).submit (.source "create table T (z int, Y int)")

/-- The two indexes are reported as extra and as missing, and the column of another type in both
directions. -/
theorem discrepancies_mirrored_indexes :
    (twoIndexes.discrepancies otherColumns).filterMap (object? .extra .index) =
        ["t:(x)", "t:(x)"] ∧
      (otherColumns.discrepancies twoIndexes).filterMap (object? .missing .index) =
        ["t:(x)", "t:(x)"] ∧
      ∃ t ∈ twoIndexes.tables, ∃ u ∈ otherColumns.tables, t.name = "t" ∧ u.name = "T" ∧
        (twoIndexes.discrepancies otherColumns).filterMap (column? .extra "t") = ["x"] ∧
        (otherColumns.discrepancies twoIndexes).filterMap (column? .missing "T") = ["x"] ∧
        ∃ c ∈ t.columns, ∃ c' ∈ u.columns,
          .columnType t.name c.name c.type c'.type ∈ twoIndexes.discrepancies otherColumns ∧
            .columnType u.name c'.name c'.type c.type ∈
              otherColumns.discrepancies twoIndexes := by
  have hreported : twoIndexes.dialect = otherColumns.dialect ∧
      (twoIndexes.discrepancies otherColumns).filterMap (object? .extra .index) =
        ["t:(x)", "t:(x)"] ∧
      (twoIndexes.discrepancies otherColumns).filterMap (column? .extra "t") = ["x"] ∧
      ∃ t ∈ twoIndexes.tables, ∃ u ∈ otherColumns.tables,
        twoIndexes.sameName t.name u.name = true ∧ t.name = "t" ∧ u.name = "T" ∧
          ∃ c ∈ t.columns, ∃ c' ∈ u.columns, sameIgnoringCase c.name c'.name = true ∧
            .columnType t.name c.name c.type c'.type ∈ twoIndexes.discrepancies otherColumns := by
    decide +kernel
  obtain ⟨hdialect, hindexes, hcolumns, t, ht, u, hu, hname, htname, huname, c, hc, c', hc',
    hcolumn, htype⟩ := hreported
  have hreachable : Reachable twoIndexes := (Reachable.empty "" .standard).submit _
  have hreachable' : Reachable otherColumns := (Reachable.empty "" .standard).submit _
  obtain ⟨hobjects, htables⟩ := discrepancies_mirrored hreachable hreachable' hdialect
  obtain ⟨hsides, htypes⟩ := htables t ht u hu hname
  refine ⟨hindexes, (hobjects .extra .index).symm.trans hindexes, t, ht, u, hu, htname, huname,
    hcolumns, ?_, c, hc, c', hc', htype, (htypes c hc c' hc' hcolumn).1 htype⟩
  rw [← huname, ← hcolumns, ← htname]
  exact (hsides .extra).symm

end SqlCatalog
