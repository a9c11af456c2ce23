import SqlCatalog.Proofs.Catalog.Mirrored

/-!
# Indexes of one name

The marks in the name of an index are not told apart from the same marks in the names of its table
and columns, so that indexes that do different things can have one name. What is lost is only where
the name is divided: indexes of one name do the same exactly if their names are divided at the same
places. A report compares the table and the uniqueness of indexes of one name, but not their
columns, so that it can find nothing although the columns are different ones.

## Main definitions

* `IndexShape.cuts` says where a name is divided.
* `Discrepancy.isAboutIndex` are the findings about indexes, `Schema.indexPairing` are the indexes
  that a report compares.
* `PseudoIndex.Matches` says that two indexes do the same, each on its own table.

## Main statements

* `IndexShape.eq_iff_cuts_eq`: what indexes of one name have in common.
* `noneAboutIndexes_iff`: when a report finds nothing about indexes.
* `sameName_identifies_iff`: what follows for reachable schemas.
* `comparison_exact_iff`: which differences of two indexes a comparison finds.
-/

namespace SqlCatalog

/-! ## Where a name is divided -/

/-- The lengths of the table and of the columns in the name of an index. -/
def IndexShape.cuts (x : IndexShape) : Nat × List Nat :=
  (x.table.length, x.columns.map String.length)

section Cuts

/-- The texts in a list are known from their lengths. -/
theorem eq_of_intercalate_of_lengths {xs ys : List (List Char)}
    (hlengths : xs.map List.length = ys.map List.length)
    (h : [','].intercalate xs ++ [')'] = [','].intercalate ys ++ [')']) : xs = ys := by
  induction xs generalizing ys with
  | nil => exact (List.map_eq_nil_iff.1 hlengths.symm).symm
  | cons x xs ih =>
    cases ys with
    | nil => cases hlengths
    | cons y ys =>
      obtain ⟨hlength, hmore⟩ := List.cons.inj hlengths
      rw [intercalate_cons_close, intercalate_cons_close] at h
      obtain ⟨rfl, hrest⟩ := List.append_inj h hlength
      cases xs with
      | nil => rw [List.map_eq_nil_iff.1 hmore.symm]
      | cons x' xs =>
        cases ys with
        | nil => cases hmore
        | cons y' ys => rw [ih hmore (List.cons.inj hrest).2]

variable {x y : IndexShape}

/-- The columns are known from their lengths, once the table and the uniqueness are known. -/
theorem IndexShape.columns_eq_of_lengths (htable : x.table = y.table)
    (hunique : x.unique = y.unique)
    (hlengths : x.columns.map String.length = y.columns.map String.length)
    (h : x.name = y.name) : x.columns = y.columns := by
  have hchars := congrArg String.toList h
  rw [toList_name, toList_name, htable, hunique] at hchars
  have hclose := (List.cons.inj (List.cons.inj (List.append_cancel_left hchars)).2).2
  refine List.map_injective_iff.2 (fun _ _ => String.toList_inj.1)
    (eq_of_intercalate_of_lengths ?_ hclose)
  simpa [Function.comp_def, String.length_toList] using hlengths

/-- Behind tables of one length, the marks in a name say whether the indexes are unique. -/
theorem IndexShape.table_eq_of_length (hlength : x.table.length = y.table.length)
    (h : x.name = y.name) : x.table = y.table ∧ x.unique = y.unique := by
  have hchars := congrArg String.toList h
  rw [toList_name, toList_name, List.append_assoc, List.append_assoc] at hchars
  obtain ⟨htable, hrest⟩ := List.append_inj hchars (by simpa [String.length_toList] using hlength)
  refine ⟨String.toList_inj.1 htable, ?_⟩
  -- The mark begins with a minus sign, and the columns with a colon.
  cases hx : x.unique <;> cases hy : y.unique
  · rfl
  · simp [hx, hy, uniqueMark] at hrest
  · simp [hx, hy, uniqueMark] at hrest
  · rfl

/-- Indexes of one name do the same exactly if the name is divided at the same places. -/
theorem IndexShape.eq_iff_cuts_eq (h : x.name = y.name) : x = y ↔ x.cuts = y.cuts := by
  constructor
  · rintro rfl
    rfl
  · intro hcuts
    obtain ⟨hlength, hlengths⟩ := Prod.mk.inj hcuts
    obtain ⟨htable, hunique⟩ := table_eq_of_length hlength h
    have hcolumns := columns_eq_of_lengths htable hunique hlengths h
    exact IndexShape.ext htable hunique hcolumns

end Cuts

/-! ## Reports about indexes -/

/-- Whether a finding is about indexes. -/
def Discrepancy.isAboutIndex : Discrepancy → Bool
  | indexTable .. | indexUnique .. => true
  | extra _ kind _ | missing _ kind _ => kind == .index
  | extraColumn .. | missingColumn .. | columnType .. => false

/-- The indexes of two schemas, each with the first one of its name in the other schema. -/
def Schema.indexPairing (a b : Schema) : Pairing PseudoIndex :=
  .of lower PseudoIndex.name a.pseudoIndexes b.pseudoIndexes

section Reports

variable {a b : Schema}

/-- A finding about what has no partner is about an index exactly when indexes were paired. -/
theorem isAboutIndex_of_mem_unmatched {α : Type} {p : Pairing α} {source : String}
    {kind : ObjectKind} {name : α → String} {x : Discrepancy}
    (hx : x ∈ p.unmatched source kind name) : x.isAboutIndex = (kind == .index) := by
  obtain ⟨n, rfl | rfl⟩ := mem_unmatched hx <;> rfl

theorem isAboutIndex_of_mem_columns {d : Dialect} {t u : Table} {x : Discrepancy}
    (hx : x ∈ t.discrepancies d u) : x.isAboutIndex = false := by
  rcases mem_discrepancies hx with ⟨c, rfl⟩ | ⟨c, rfl⟩ | ⟨c, mine, theirs, rfl⟩ <;> rfl

theorem isAboutIndex_of_mem_indexes {p q : PseudoIndex} {x : Discrepancy}
    (hx : x ∈ p.discrepancies q) : x.isAboutIndex = true := by
  rcases mem_indexDiscrepancies hx with rfl | rfl <;> rfl

/-- The findings about indexes are the indexes without a partner and what distinguishes those that
have one. -/
theorem filter_isAboutIndex_discrepancies (a b : Schema) :
    (a.discrepancies b).filter Discrepancy.isAboutIndex =
      (a.indexPairing b).unmatched b.source .index PseudoIndex.name ++
        (a.indexPairing b).matched.flatMap fun p => p.1.discrepancies p.2 := by
  have hothers {α : Type} (p : Pairing α) (kind : ObjectKind) (hkind : (kind == .index) = false)
      (name : α → String) :
      (p.unmatched b.source kind name).filter Discrepancy.isAboutIndex = [] := by
    rw [List.filter_eq_nil_iff]
    intro x hx
    simp [isAboutIndex_of_mem_unmatched hx, hkind]
  have hcolumns (l : List (Table × Table)) :
      (l.flatMap fun p => p.1.discrepancies a.dialect p.2).filter Discrepancy.isAboutIndex =
        [] := by
    rw [List.filter_eq_nil_iff]
    intro x hx
    obtain ⟨p, -, hx⟩ := List.mem_flatMap.1 hx
    simp [isAboutIndex_of_mem_columns hx]
  have hunmatched (p : Pairing PseudoIndex) :
      (p.unmatched b.source .index PseudoIndex.name).filter Discrepancy.isAboutIndex =
        p.unmatched b.source .index PseudoIndex.name :=
    List.filter_eq_self.2 fun x hx => isAboutIndex_of_mem_unmatched hx
  have hmatched (l : List (PseudoIndex × PseudoIndex)) :
      (l.flatMap fun p => p.1.discrepancies p.2).filter Discrepancy.isAboutIndex =
        l.flatMap fun p => p.1.discrepancies p.2 := by
    refine List.filter_eq_self.2 fun x hx => ?_
    obtain ⟨p, -, hx⟩ := List.mem_flatMap.1 hx
    exact isAboutIndex_of_mem_indexes hx
  simp only [Schema.discrepancies, Schema.discrepanciesOver, List.filter_append, hcolumns,
    hunmatched, hmatched, hothers _ .table rfl, hothers _ .sequence rfl,
    List.nil_append, List.append_nil, Schema.indexPairing]

/-- Each index is paired with the first one of the other schema that has its name. -/
theorem mem_matched_iff {p q : PseudoIndex} :
    (p, q) ∈ (a.indexPairing b).matched ↔ p ∈ a.pseudoIndexes ∧
      b.pseudoIndexes.find? (fun q => lower q.name == lower p.name) = some q := by
  simp [Schema.indexPairing, Pairing.of]

/-- An index is compared if the other schema has one of its name. -/
theorem exists_mem_matched {p q : PseudoIndex} (hp : p ∈ a.pseudoIndexes)
    (hq : q ∈ b.pseudoIndexes) (hname : lower q.name = lower p.name) :
    ∃ r, (p, r) ∈ (a.indexPairing b).matched := by
  cases hfirst : b.pseudoIndexes.find? fun r => lower r.name == lower p.name with
  | none => simpa [hname] using List.find?_eq_none.1 hfirst q hq
  | some r => exact ⟨r, mem_matched_iff.2 ⟨hp, hfirst⟩⟩

/-- A report finds nothing about indexes exactly if every index has one of its name in the other
schema, and those that are compared are over the same table and both unique or both not. -/
theorem noneAboutIndexes_iff :
    (∀ x ∈ a.discrepancies b, x.isAboutIndex = false) ↔
      keysOf lower PseudoIndex.name a.pseudoIndexes =
          keysOf lower PseudoIndex.name b.pseudoIndexes ∧
        ∀ p q, (p, q) ∈ (a.indexPairing b).matched →
          lower p.table.name = lower q.table.name ∧ p.unique = q.unique := by
  have hnone : (∀ x ∈ a.discrepancies b, x.isAboutIndex = false) ↔
      (a.discrepancies b).filter Discrepancy.isAboutIndex = [] := by
    rw [List.filter_eq_nil_iff]
    simp only [Bool.not_eq_true]
  rw [hnone, filter_isAboutIndex_discrepancies, List.append_eq_nil_iff, List.flatMap_eq_nil_iff,
    Schema.indexPairing, unmatched_eq_nil_iff, Prod.forall]
  simp only [PseudoIndex.discrepancies_eq_nil_iff]

end Reports

/-! ## Indexes of reachable schemas -/

/-- The parts can be read off the name of the index. -/
structure IndexShape.Separable (x : IndexShape) : Prop where
  table : x.TableSeparable
  columns : x.ColumnsSeparable

instance (x : IndexShape) : Decidable x.Separable :=
  decidable_of_iff
    ((¬"-unique".toList <:+ x.table.toList ∧ ¬[':', '('] <:+: x.table.toList) ∧
      ∀ c ∈ x.columns, c ≠ "" ∧ ',' ∉ c.toList)
    ⟨fun h => ⟨⟨h.1.1, h.1.2⟩, h.2⟩, fun h => ⟨⟨h.table.mark, h.table.bracket⟩, h.columns⟩⟩

section Identification

variable {a b : Schema}

/-- Indexes whose names are the same in lower case have shapes of the same name. -/
theorem shape_name_eq (ha : Reachable a) (hb : Reachable b) {p q : PseudoIndex}
    (hp : p ∈ a.pseudoIndexes) (hq : q ∈ b.pseudoIndexes) (h : lower p.name = lower q.name) :
    p.shape.name = q.shape.name := by
  obtain ⟨-, hpn⟩ := wellNamed_of_mem_pseudoIndexes (coherent_of_reachable ha) hp
  obtain ⟨-, hqn⟩ := wellNamed_of_mem_pseudoIndexes (coherent_of_reachable hb) hq
  rw [← hpn.lower_name, ← hqn.lower_name, h]

/-- Indexes of one name do the same exactly if the name is divided at the same places, in
particular if the parts can be read off it. If a report finds nothing about indexes, then it has
compared every index with one over the same table, which does the same exactly if the columns
have names of the same lengths, in particular if none is empty or has a comma in it. -/
theorem sameName_identifies_iff (ha : Reachable a) (hb : Reachable b) :
    (∀ p ∈ a.pseudoIndexes, ∀ q ∈ b.pseudoIndexes, sameIgnoringCase p.name q.name = true →
      (p.shape = q.shape ↔ p.shape.cuts = q.shape.cuts) ∧
        (p.shape.Separable → q.shape.Separable → p.shape = q.shape)) ∧
    ((∀ x ∈ a.discrepancies b, x.isAboutIndex = false) →
      (∀ p ∈ a.pseudoIndexes, ∃ q, (p, q) ∈ (a.indexPairing b).matched) ∧
      (∀ q ∈ b.pseudoIndexes, ∃ p ∈ a.pseudoIndexes, sameIgnoringCase p.name q.name = true) ∧
      ∀ p q, (p, q) ∈ (a.indexPairing b).matched →
        sameIgnoringCase p.table.name q.table.name = true ∧ p.unique = q.unique ∧
        (p.shape = q.shape ↔
          p.shape.columns.map String.length = q.shape.columns.map String.length) ∧
        (p.shape.ColumnsSeparable → q.shape.ColumnsSeparable → p.shape = q.shape)) := by
  refine ⟨fun p hp q hq hsame => ?_, fun hnone => ?_⟩
  · have hshape := shape_name_eq ha hb hp hq (sameIgnoringCase_iff.1 hsame)
    refine ⟨IndexShape.eq_iff_cuts_eq hshape, fun hx hy => ?_⟩
    obtain ⟨htable, hunique⟩ := hx.table.table_eq hy.table hshape
    exact IndexShape.ext htable hunique
      (hx.columns.columns_eq hy.columns htable hunique hshape)
  · obtain ⟨hkeys, hpairs⟩ := noneAboutIndexes_iff.1 hnone
    refine ⟨fun p hp => ?_, fun q hq => ?_, fun p q hpair => ?_⟩
    · obtain ⟨q, hq, hsame⟩ := keysOf_subset_iff.1 hkeys.subset p hp
      exact exists_mem_matched hp hq hsame
    · obtain ⟨p, hp, hsame⟩ := keysOf_subset_iff.1 hkeys.superset q hq
      exact ⟨p, hp, sameIgnoringCase_iff.2 hsame⟩
    · obtain ⟨htable, hunique⟩ := hpairs p q hpair
      obtain ⟨hp, hfirst⟩ := mem_matched_iff.1 hpair
      have hsame : lower q.name = lower p.name := by simpa using List.find?_some hfirst
      have hshape := shape_name_eq ha hb hp (List.mem_of_find?_eq_some hfirst) hsame.symm
      refine ⟨sameIgnoringCase_iff.2 htable, hunique, ⟨fun h => by rw [h], fun hlengths => ?_⟩,
        fun hx hy => ?_⟩
      · exact IndexShape.ext htable hunique
          (IndexShape.columns_eq_of_lengths htable hunique hlengths hshape)
      · exact IndexShape.ext htable hunique (hx.columns_eq hy htable hunique hshape)

/-- The schema of a table `open items` with an index over two columns. -/
def openItems (column : String) : Schema :=
  (Schema.empty "" .standard).submit (.source
    s!"create table \"open items\" ({column} int, owner int, unique ({column}, owner))")

/-- In another letter case the name of the index is a different one, and still says what the index
does. -/
theorem sameName_identifies_openItems :
    ∃ p ∈ (openItems "\"Höhe\"").pseudoIndexes, ∃ q ∈ (openItems "\"HÖHE\"").pseudoIndexes,
      p.name ≠ q.name ∧ sameIgnoringCase p.name q.name = true ∧ p.shape = q.shape := by
  have hreachable (column : String) : Reachable (openItems column) :=
    (Reachable.empty "" .standard).submit _
  obtain ⟨hidentifies, -⟩ := sameName_identifies_iff (hreachable "\"Höhe\"")
    (hreachable "\"HÖHE\"")
  obtain ⟨p, hp, q, hq, hne, hsame, hps, hqs⟩ : ∃ p ∈ (openItems "\"Höhe\"").pseudoIndexes,
      ∃ q ∈ (openItems "\"HÖHE\"").pseudoIndexes, p.name ≠ q.name ∧
        sameIgnoringCase p.name q.name = true ∧ p.shape.Separable ∧ q.shape.Separable := by
    decide +kernel
  exact ⟨p, hp, q, hq, hne, hsame, (hidentifies p hp q hq hsame).2 hps hqs⟩

/-- The schema of two tables, of which one has a mark in its name and the other in that of its
column. -/
def bracketTables : Schema :=
  (Schema.empty "" .standard).submit (.source
    "create table t (\"x:(y\" int); create index i on t (\"x:(y\");
      create table \"t:(x\" (y int); create index j on \"t:(x\" (y)")

/-- The schema of a table with an index over some of its columns, one of which has a comma in its
name. -/
def commaTable (columns : String) : Schema :=
  (Schema.empty "" .standard).submit (.source
    s!"create table t (x int, y int, \"x,y\" int, unique ({columns}))")

/-- Indexes over different tables can have one name. So can indexes over different columns of one
table, and a report finds nothing then. -/
theorem sameName_not_identifies :
    (Reachable bracketTables ∧ ∃ p ∈ bracketTables.pseudoIndexes,
      ∃ q ∈ bracketTables.pseudoIndexes, sameIgnoringCase p.name q.name = true ∧
        sameIgnoringCase p.table.name q.table.name = false ∧
        p.shape.columns ≠ q.shape.columns) ∧
    (Reachable (commaTable "x, y") ∧ Reachable (commaTable "\"x,y\"") ∧
      (commaTable "x, y").report (commaTable "\"x,y\"") = [] ∧
      ∃ p ∈ (commaTable "x, y").pseudoIndexes, ∀ q ∈ (commaTable "\"x,y\"").pseudoIndexes,
        p.shape.columns ≠ q.shape.columns) := by
  have hreachable (text : String) : Reachable ((Schema.empty "" .standard).submit (.source text)) :=
    (Reachable.empty "" .standard).submit _
  exact ⟨⟨hreachable _, by decide +kernel⟩, hreachable _, hreachable _, by decide +kernel,
    by decide +kernel⟩

end Identification

/-! ## Comparing two indexes -/

/-- Two indexes have columns of the same names, in the same order and up to letter case. -/
def PseudoIndex.SameColumns (p q : PseudoIndex) : Prop :=
  List.Forall₂ (fun i j => sameIgnoringCase (p.table.columnName i) (q.table.columnName j) = true)
    p.columns q.columns

/-- Two indexes do the same, each on its own table: the names are those of the tables and columns
they stand on, whatever the places of the columns are. -/
structure PseudoIndex.Matches (p q : PseudoIndex) : Prop where
  table : sameIgnoringCase p.table.name q.table.name = true
  unique : p.unique = q.unique
  columns : p.SameColumns q

section Comparisons

variable {a b : Schema} {p q : PseudoIndex}

theorem PseudoIndex.sameColumns_iff : p.SameColumns q ↔ p.shape.columns = q.shape.columns := by
  simp only [SameColumns, shape, ← List.forall₂_eq_eq_eq, List.forall₂_map_left_iff,
    List.forall₂_map_right_iff, sameIgnoringCase_iff]

/-- Two indexes match exactly when they do the same, shape for shape. -/
theorem PseudoIndex.matches_iff : p.Matches q ↔ p.shape = q.shape := by
  rw [IndexShape.ext_iff, ← sameColumns_iff]
  constructor
  · rintro ⟨htable, hunique, hcolumns⟩
    exact ⟨sameIgnoringCase_iff.1 htable, hunique, hcolumns⟩
  · rintro ⟨htable, hunique, hcolumns⟩
    exact ⟨sameIgnoringCase_iff.2 htable, hunique, hcolumns⟩

/-- What is not reported is a difference of the columns alone. -/
theorem PseudoIndex.discrepancies_exact_iff :
    (p.discrepancies q = [] ↔ p.Matches q) ↔
      (sameIgnoringCase p.table.name q.table.name = true → p.unique = q.unique →
        p.SameColumns q) := by
  rw [discrepancies_eq_nil_iff, ← sameIgnoringCase_iff]
  constructor
  · intro h htable hunique
    exact (h.1 ⟨htable, hunique⟩).columns
  · intro h
    exact ⟨fun hsame => ⟨hsame.1, hsame.2, h hsame.1 hsame.2⟩, fun hm => ⟨hm.table, hm.unique⟩⟩

/-- Comparing two indexes finds nothing exactly if they are on tables of one name and both unique
or both not; so it tells exactly whether they do the same, unless they differ in their columns
alone. Of indexes that a report compares, which have one name, this can be said by the lengths of
the columns, and it is no matter if no column is empty or has a comma in it. -/
theorem comparison_exact_iff (ha : Reachable a) (hb : Reachable b) (hp : p ∈ a.pseudoIndexes)
    (hq : q ∈ b.pseudoIndexes) :
    (p.discrepancies q = [] ↔
      sameIgnoringCase p.table.name q.table.name = true ∧ p.unique = q.unique) ∧
    ((p.discrepancies q = [] ↔ p.Matches q) ↔
      (sameIgnoringCase p.table.name q.table.name = true → p.unique = q.unique →
        p.SameColumns q)) ∧
    (sameIgnoringCase p.name q.name = true →
      ((p.discrepancies q = [] ↔ p.Matches q) ↔
        (sameIgnoringCase p.table.name q.table.name = true → p.unique = q.unique →
          p.shape.columns.map String.length = q.shape.columns.map String.length)) ∧
      (p.shape.ColumnsSeparable → q.shape.ColumnsSeparable →
        (p.discrepancies q = [] ↔ p.Matches q))) := by
  refine ⟨?_, PseudoIndex.discrepancies_exact_iff, fun hsame => ?_⟩
  · rw [PseudoIndex.discrepancies_eq_nil_iff, sameIgnoringCase_iff]
  · have hshape := shape_name_eq ha hb hp hq (sameIgnoringCase_iff.1 hsame)
    refine ⟨?_, fun hx hy => PseudoIndex.discrepancies_exact_iff.2 fun htable hunique => ?_⟩
    · rw [PseudoIndex.discrepancies_exact_iff]
      refine forall₂_congr fun htable hunique => ?_
      rw [PseudoIndex.sameColumns_iff]
      exact ⟨fun h => by rw [h], fun hlengths => IndexShape.columns_eq_of_lengths
        (sameIgnoringCase_iff.1 htable) hunique hlengths hshape⟩
    · exact PseudoIndex.sameColumns_iff.2
        (hx.columns_eq hy (sameIgnoringCase_iff.1 htable) hunique hshape)

/-- The index of one schema matches that of the other, which is found by its name. -/
theorem comparison_exact_openItems :
    ∃ p ∈ (openItems "\"Höhe\"").pseudoIndexes, ∃ q ∈ (openItems "\"HÖHE\"").pseudoIndexes,
      sameIgnoringCase p.name q.name = true ∧ p.discrepancies q = [] ∧ p.Matches q := by
  have hreachable (column : String) : Reachable (openItems column) :=
    (Reachable.empty "" .standard).submit _
  obtain ⟨p, hp, q, hq, hsame, hnone, hps, hqs⟩ : ∃ p ∈ (openItems "\"Höhe\"").pseudoIndexes,
      ∃ q ∈ (openItems "\"HÖHE\"").pseudoIndexes, sameIgnoringCase p.name q.name = true ∧
        p.discrepancies q = [] ∧ p.shape.Separable ∧ q.shape.Separable := by
    decide +kernel
  obtain ⟨-, -, hnamed⟩ := comparison_exact_iff (hreachable _) (hreachable _) hp hq
  exact ⟨p, hp, q, hq, hsame, hnone, ((hnamed hsame).2 hps.columns hqs.columns).1 hnone⟩

/-- The schema of a table with an index over each of its two columns. -/
def columnIndexes : Schema :=
  (Schema.empty "" .standard).submit (.source
    "create table t (x integer, y integer); create index i on t (x); create index j on t (y)")

/-- Nothing is reported of two indexes over different columns of one table. -/
theorem comparison_not_exact :
    Reachable columnIndexes ∧ ∃ p ∈ columnIndexes.pseudoIndexes, ∃ q ∈ columnIndexes.pseudoIndexes,
      p.discrepancies q = [] ∧ ¬p.Matches q := by
  simp only [PseudoIndex.matches_iff]
  exact ⟨(Reachable.empty "" .standard).submit _, by decide +kernel⟩

end Comparisons

end SqlCatalog
