import Mathlib.Data.Set.Basic
import SqlCatalog.Proofs.Catalog.Distinct
import SqlCatalog.Proofs.Catalog.PseudoIndexes
import SqlCatalog.Schema.Discrepancy

/-!
# Empty reports

The report of one schema against another is empty when nothing is extra, missing or different.
Tables, sequences and columns have distinct names, so each is compared with the one of its name.
Indexes are compared under names that are put together, and two of them can have the same name: a
schema can even differ from itself. Among plain names this does not happen, and schemas with empty
reports are those that agree in what they hold.

## Main definitions

* `keysOf` are the keys of the names of some things.
* `Schema.Agrees` says that two schemas hold the same tables, columns, indexes and sequences.
* `PlainSchema` is a reachable schema with plain names.
* `Schema.Rearranged` says that a schema declares the same things in another order.

## Main statements

* `discrepancies_eq_nil_iff`: what an empty report says about schemas with distinct names.
* `report_self_eq_nil_iff`: when a schema does not differ from itself.
* `report_eq_nil_iff_agrees`: schemas with plain names have empty reports exactly if they agree.
-/

namespace SqlCatalog

/-! ## Pairings -/

/-- The keys of the names of some things. -/
def keysOf {α : Type} (key : String → String) (name : α → String) (l : List α) : Set String :=
  {k | ∃ a ∈ l, key (name a) = k}

section Pairings

variable {α β : Type} {key : String → String} {name : α → String} {mine theirs : List α}

/-- The keys of one list are among those of another when each object has a partner there. -/
theorem keysOf_subset_iff :
    keysOf key name mine ⊆ keysOf key name theirs ↔
      ∀ a ∈ mine, ∃ b ∈ theirs, key (name b) = key (name a) := by
  constructor
  · intro h a ha
    exact h ⟨a, ha, rfl⟩
  · rintro h k ⟨a, ha, rfl⟩
    exact h a ha

/-- Nothing is without a partner exactly if both lists have the same keys. -/
theorem unmatched_eq_nil_iff {source : String} {kind : ObjectKind} :
    (Pairing.of key name mine theirs).unmatched source kind name = [] ↔
      keysOf key name mine = keysOf key name theirs := by
  simp [Pairing.unmatched, Pairing.of, List.filter_eq_nil_iff, Set.Subset.antisymm_iff,
    keysOf_subset_iff]

/-- What is found in the pairs is what is found for each object and the first one of its key. -/
theorem flatMap_matched_eq_nil_iff {f : α × α → List β} :
    (Pairing.of key name mine theirs).matched.flatMap f = [] ↔
      ∀ a ∈ mine, ∀ b, theirs.find? (fun b => key (name b) == key (name a)) = some b →
        f (a, b) = [] := by
  simp only [Pairing.of, List.flatMap_eq_nil_iff, List.mem_filterMap, Option.map_eq_some_iff]
  constructor
  · intro h a ha b hb
    exact h _ ⟨a, ha, b, hb, rfl⟩
  · rintro h _ ⟨a, ha, b, hb, rfl⟩
    exact h a ha b hb

end Pairings

/-! ## Tables -/

/-- Two tables have columns of the same names, and of types of the same families. -/
structure Table.Agrees (d : Dialect) (t u : Table) : Prop where
  names : keysOf lower Column.name t.columns = keysOf lower Column.name u.columns
  types : ∀ c ∈ t.columns, ∀ c' ∈ u.columns, lower c.name = lower c'.name →
    typeFamily d c.type.name = typeFamily d c'.type.name

namespace Table

variable {d : Dialect} {t u v : Table}

theorem agrees_iff : t.Agrees d u ↔
    keysOf lower Column.name t.columns = keysOf lower Column.name u.columns ∧
      ∀ c ∈ t.columns, ∀ c' ∈ u.columns, lower c.name = lower c'.name →
        typeFamily d c.type.name = typeFamily d c'.type.name :=
  ⟨fun h => ⟨h.names, h.types⟩, fun h => ⟨h.1, h.2⟩⟩

/-- Nothing is reported about the columns of two tables exactly when they agree. -/
theorem discrepancies_eq_nil_iff (hu : u.Distinct) :
    t.discrepancies d u = [] ↔ t.Agrees d u := by
  have hnames : (∀ c ∈ t.columns, ¬(!u.hasColumn c.name) = true) ∧
      (∀ c ∈ u.columns, ¬(!t.hasColumn c.name) = true) ↔
        keysOf lower Column.name t.columns = keysOf lower Column.name u.columns := by
    simp only [Bool.not_eq_true', Bool.not_eq_false, hasColumn_iff, Set.Subset.antisymm_iff,
      keysOf_subset_iff]
  rw [discrepancies, List.append_eq_nil_iff, List.append_eq_nil_iff, List.map_eq_nil_iff,
    List.map_eq_nil_iff, List.filter_eq_nil_iff, List.filter_eq_nil_iff, hnames,
    List.flatMap_eq_nil_iff, agrees_iff]
  refine and_congr_right fun _ => forall₂_congr fun c _ => ?_
  cases hnamed : u.columnNamed c.name with
  | ok other =>
    obtain ⟨hmem, hname⟩ := (columnNamed_eq_ok_iff hu).1 hnamed
    refine Column.discrepancies_eq_nil_iff.trans
      ⟨fun h c' hc' hname' => ?_, fun h => h other hmem hname.symm⟩
    obtain rfl : other = c' := DistinctBy.eq_of_key hu hmem hc' (hname.trans hname')
    exact h
  | error e =>
    refine iff_of_true rfl fun c' hc' hname => ?_
    rw [(columnNamed_eq_ok_iff hu).2 ⟨hc', hname.symm⟩] at hnamed
    cases hnamed

theorem Agrees.refl (ht : t.Distinct) : t.Agrees d t where
  names := rfl
  types := by
    intro c hc c' hc' hname
    rw [DistinctBy.eq_of_key ht hc hc' hname]

theorem Agrees.symm (h : t.Agrees d u) : u.Agrees d t where
  names := h.names.symm
  types := by
    intro c hc c' hc' hname
    exact (h.types c' hc' c hc hname.symm).symm

theorem Agrees.trans (h : t.Agrees d u) (h' : u.Agrees d v) : t.Agrees d v where
  names := h.names.trans h'.names
  types := by
    intro c hc c'' hc'' hname
    obtain ⟨c', hc', hname'⟩ := keysOf_subset_iff.1 h.names.subset c hc
    exact (h.types c hc c' hc' hname'.symm).trans (h'.types c' hc' c'' hc'' (hname'.trans hname))

end Table

/-! ## Schemas with distinct names -/

/-- Nothing is reported about two paired indexes exactly when they are over the same table and
both or neither unique; their columns are not looked at. -/
theorem PseudoIndex.discrepancies_eq_nil_iff {p q : PseudoIndex} :
    p.discrepancies q = [] ↔ lower p.table.name = lower q.table.name ∧ p.unique = q.unique := by
  simp [PseudoIndex.discrepancies, sameIgnoringCase_iff]

/-- What an empty report says about schemas with distinct names. -/
theorem report_eq_nil_iff_of_distinct {a b : Schema} (hb : b.Distinct)
    (hdialect : b.dialect = a.dialect) :
    a.report b = [] ↔
      keysOf a.dialect.identifierKey Table.name a.tables =
          keysOf a.dialect.identifierKey Table.name b.tables ∧
        (∀ t ∈ a.tables, ∀ u ∈ b.tables,
          a.dialect.identifierKey t.name = a.dialect.identifierKey u.name →
            t.Agrees a.dialect u) ∧
        keysOf lower PseudoIndex.name a.pseudoIndexes =
          keysOf lower PseudoIndex.name b.pseudoIndexes ∧
        (∀ p ∈ a.pseudoIndexes, ∀ q,
          b.pseudoIndexes.find? (fun q => lower q.name == lower p.name) = some q →
            lower p.table.name = lower q.table.name ∧ p.unique = q.unique) ∧
        keysOf a.dialect.identifierKey Sequence.name a.sequences =
          keysOf a.dialect.identifierKey Sequence.name b.sequences := by
  have htables := hb.tables
  rw [hdialect] at htables
  have hmatched : (∀ t ∈ a.tables, ∀ u, b.tables.find? (fun u =>
        a.dialect.identifierKey u.name == a.dialect.identifierKey t.name) = some u →
          t.discrepancies a.dialect u = []) ↔
      ∀ t ∈ a.tables, ∀ u ∈ b.tables,
        a.dialect.identifierKey t.name = a.dialect.identifierKey u.name →
          t.Agrees a.dialect u := by
    refine forall₂_congr fun t _ => forall_congr' fun u => ?_
    rw [find?_eq_some_iff_of_distinct htables, and_imp]
    refine forall_congr' fun hu => ?_
    rw [Table.discrepancies_eq_nil_iff (hb.columns u hu), eq_comm]
  simp only [Schema.report, List.map_eq_nil_iff, Schema.discrepancies, Schema.discrepanciesOver,
    List.append_eq_nil_iff, unmatched_eq_nil_iff, flatMap_matched_eq_nil_iff, hmatched,
    PseudoIndex.discrepancies_eq_nil_iff, and_assoc]

/-! ## A schema against itself -/

section Self

variable {s : Schema}

/-- A schema with distinct names differs from itself at most in indexes of the same name. -/
theorem report_self_eq_nil_iff_of_distinct (hs : s.Distinct) :
    s.report s = [] ↔ ∀ p ∈ s.pseudoIndexes, ∀ q ∈ s.pseudoIndexes,
      lower p.name = lower q.name → lower p.table.name = lower q.table.name ∧
        p.unique = q.unique := by
  rw [report_eq_nil_iff_of_distinct hs rfl]
  constructor
  · rintro ⟨-, -, -, hindexes, -⟩ p hp q hq hname
    -- Indexes of one name are compared with the same one, the first of that name.
    cases hfirst : s.pseudoIndexes.find? fun r => lower r.name == lower p.name with
    | none => simpa using List.find?_eq_none.1 hfirst p hp
    | some r =>
      obtain ⟨hpt, hpu⟩ := hindexes p hp r hfirst
      obtain ⟨hqt, hqu⟩ := hindexes q hq r (hname ▸ hfirst)
      exact ⟨hpt.trans hqt.symm, hpu.trans hqu.symm⟩
  · intro h
    refine ⟨rfl, ?_, rfl, ?_, rfl⟩
    · intro t ht u hu hname
      rw [hs.tables.eq_of_key ht hu hname]
      exact .refl (hs.columns u hu)
    · intro p hp q hq
      have hname : lower q.name = lower p.name := by simpa using List.find?_some hq
      exact h p hp q (List.mem_of_find?_eq_some hq) hname.symm

/-- A reachable schema does not differ from itself exactly if indexes whose names are equal up to
letter case are over tables of the same name and are both unique or both not; in particular if its
tables have plain names. -/
theorem report_self_eq_nil_iff (h : Reachable s) :
    (s.report s = [] ↔ ∀ p ∈ s.pseudoIndexes, ∀ q ∈ s.pseudoIndexes,
      sameIgnoringCase p.name q.name = true →
        sameIgnoringCase p.table.name q.table.name = true ∧ p.unique = q.unique) ∧
      ((∀ t ∈ s.tables, isPlainName t.name = true) → s.report s = []) := by
  have hcoherent := coherent_of_reachable h
  have hself := report_self_eq_nil_iff_of_distinct (distinct_of_reachable h)
  refine ⟨by simpa only [sameIgnoringCase_iff] using hself, fun hplain => hself.2 ?_⟩
  intro p hp q hq hname
  obtain ⟨hpt, hpn⟩ := wellNamed_of_mem_pseudoIndexes hcoherent hp
  obtain ⟨hqt, hqn⟩ := wellNamed_of_mem_pseudoIndexes hcoherent hq
  exact eq_of_lower_name hpn hqn (hplain _ hpt) (hplain _ hqt) hname

/-- A schema with two tables, of which one has the name of the other and a mark of unique
indexes. -/
def markedTables (column : String) : Schema :=
  (Schema.empty "" .standard).submit (.source
    s!"create table t (x int unique); create table \"t-unique\" ({column} int);
      create index i on \"t-unique\" ({column})")

/-- Over columns of different names the indexes have different names, and nothing differs. -/
theorem report_self_markedTables : (markedTables "y").report (markedTables "y") = [] := by
  have hreachable : Reachable (markedTables "y") := (Reachable.empty "" .standard).submit _
  exact (report_self_eq_nil_iff hreachable).1.2 (by decide +kernel)

/-- Over columns of the same name they have the same name, although one is unique and they are
over different tables, so that the schema differs from itself. -/
theorem report_self_markedTables_ne_nil :
    Reachable (markedTables "x") ∧ (markedTables "x").report (markedTables "x") =
      ["Pseudo index: t-unique:(x), mismatched table: t-unique",
        "Pseudo index: t-unique:(x), mismatched unique"] :=
  ⟨(Reachable.empty "" .standard).submit _, by decide +kernel⟩

end Self

/-! ## Schemas with plain names -/

namespace Schema

/-- Whether tables, columns and sequences have plain names. -/
structure PlainNames (s : Schema) : Prop where
  tables : ∀ t ∈ s.tables, isPlainName t.name = true
  columns : ∀ t ∈ s.tables, ∀ c ∈ t.columns, isPlainName c.name = true
  sequences : ∀ q ∈ s.sequences, isPlainName q.name = true

/-- Two schemas hold the same tables with the same columns, the same indexes and the same
sequences, up to what does not matter in names and types. -/
structure Agrees (a b : Schema) : Prop where
  tables : keysOf a.dialect.identifierKey Table.name a.tables =
    keysOf a.dialect.identifierKey Table.name b.tables
  columns : ∀ t ∈ a.tables, ∀ u ∈ b.tables,
    a.dialect.identifierKey t.name = a.dialect.identifierKey u.name → t.Agrees a.dialect u
  indexes : a.indexShapes lower = b.indexShapes lower
  sequences : keysOf a.dialect.identifierKey Sequence.name a.sequences =
    keysOf a.dialect.identifierKey Sequence.name b.sequences

variable {a b c : Schema}

theorem Agrees.refl (ha : a.Distinct) : a.Agrees a where
  tables := rfl
  columns := by
    intro t ht u hu hname
    rw [ha.tables.eq_of_key ht hu hname]
    exact .refl (ha.columns u hu)
  indexes := rfl
  sequences := rfl

theorem Agrees.symm (hdialect : b.dialect = a.dialect) (h : a.Agrees b) : b.Agrees a where
  tables := by
    rw [hdialect]
    exact h.tables.symm
  columns := by
    rw [hdialect]
    intro t ht u hu hname
    exact (h.columns u hu t ht hname.symm).symm
  indexes := h.indexes.symm
  sequences := by
    rw [hdialect]
    exact h.sequences.symm

theorem Agrees.trans (hdialect : b.dialect = a.dialect) (h : a.Agrees b) (h' : b.Agrees c) :
    a.Agrees c where
  tables := h.tables.trans (hdialect ▸ h'.tables)
  columns := by
    intro t ht v hv hname
    obtain ⟨u, hu, huname⟩ := keysOf_subset_iff.1 h.tables.subset t ht
    have hcolumns := h'.columns u hu v hv
    rw [hdialect] at hcolumns
    exact (h.columns t ht u hu huname.symm).trans (hcolumns (huname.trans hname))
  indexes := h.indexes.trans h'.indexes
  sequences := h.sequences.trans (hdialect ▸ h'.sequences)

end Schema

/-- A reachable schema of a dialect, with plain names. -/
structure PlainSchema (d : Dialect) where
  schema : Schema
  reachable : Reachable schema
  dialect : schema.dialect = d
  plain : schema.PlainNames

section Plain

variable {s : Schema}

/-- The name at a place is that of a column of the table. -/
theorem columnName_of_lt {t : Table} {i : Nat} (hi : i < t.columns.length) :
    ∃ c ∈ t.columns, t.columnName i = c.name :=
  ⟨t.columns[i], List.getElem_mem hi, by simp [Table.columnName, List.getElem?_eq_getElem hi]⟩

/-- The indexes of a coherent schema with plain names have plain names. -/
theorem plain_of_mem_pseudoIndexes (hs : s.Coherent) (hplain : s.PlainNames) {p : PseudoIndex}
    (hp : p ∈ s.pseudoIndexes) : p.WellNamed ∧ p.Plain := by
  obtain ⟨ht, hwell⟩ := wellNamed_of_mem_pseudoIndexes hs hp
  refine ⟨hwell, hplain.tables _ ht, fun i hi => ?_⟩
  obtain ⟨c, hc, hname⟩ := columnName_of_lt (hwell.columns i hi)
  rw [hname]
  exact hplain.columns _ ht c hc

variable {d : Dialect}

/-- Between plain schemas, indexes have the same name exactly when they do the same. -/
theorem PlainSchema.lower_name_eq_iff (a b : PlainSchema d) {p q : PseudoIndex}
    (hp : p ∈ a.schema.pseudoIndexes) (hq : q ∈ b.schema.pseudoIndexes) :
    lower p.name = lower q.name ↔ p.shape = q.shape := by
  obtain ⟨hpn, hpp⟩ := plain_of_mem_pseudoIndexes (coherent_of_reachable a.reachable) a.plain hp
  obtain ⟨hqn, hqp⟩ := plain_of_mem_pseudoIndexes (coherent_of_reachable b.reachable) b.plain hq
  exact hpp.lower_name_eq_iff hqp hpn hqn

/-- Indexes with plain names have the same names exactly if they do the same. -/
theorem PlainSchema.names_subset_iff (a b : PlainSchema d) :
    keysOf lower PseudoIndex.name a.schema.pseudoIndexes ⊆
        keysOf lower PseudoIndex.name b.schema.pseudoIndexes ↔
      a.schema.indexShapes lower ⊆ b.schema.indexShapes lower := by
  have shapes (c : PlainSchema d) {x : IndexShape} : x ∈ c.schema.indexShapes lower ↔
      ∃ p ∈ c.schema.pseudoIndexes, p.shape = x :=
    mem_indexShapes_iff (coherent_of_reachable c.reachable)
  rw [keysOf_subset_iff]
  constructor
  · intro h x hx
    obtain ⟨p, hp, rfl⟩ := (shapes a).1 hx
    obtain ⟨q, hq, hname⟩ := h p hp
    exact (shapes b).2 ⟨q, hq, (PlainSchema.lower_name_eq_iff b a hq hp).1 hname⟩
  · intro h p hp
    obtain ⟨q, hq, hshape⟩ := (shapes b).1 (h ((shapes a).2 ⟨p, hp, rfl⟩))
    exact ⟨q, hq, (PlainSchema.lower_name_eq_iff b a hq hp).2 hshape⟩

/-- Between plain schemas the report is empty exactly when they agree. -/
theorem PlainSchema.report_eq_nil_iff (a b : PlainSchema d) :
    a.schema.report b.schema = [] ↔ a.schema.Agrees b.schema := by
  have hdialect : b.schema.dialect = a.schema.dialect := b.dialect.trans a.dialect.symm
  have hnames : keysOf lower PseudoIndex.name a.schema.pseudoIndexes =
      keysOf lower PseudoIndex.name b.schema.pseudoIndexes ↔
        a.schema.indexShapes lower = b.schema.indexShapes lower := by
    rw [Set.Subset.antisymm_iff, Set.Subset.antisymm_iff, names_subset_iff, names_subset_iff]
  rw [report_eq_nil_iff_of_distinct (distinct_of_reachable b.reachable) hdialect, hnames]
  constructor
  · rintro ⟨htables, hcolumns, hindexes, -, hsequences⟩
    exact ⟨htables, hcolumns, hindexes, hsequences⟩
  · rintro ⟨htables, hcolumns, hindexes, hsequences⟩
    refine ⟨htables, hcolumns, hindexes, fun p hp q hq => ?_, hsequences⟩
    -- The index that is found has the same name and so does the same.
    have hname : lower q.name = lower p.name := by simpa using List.find?_some hq
    have hshape := (lower_name_eq_iff a b hp (List.mem_of_find?_eq_some hq)).1 hname.symm
    exact ⟨congrArg IndexShape.table hshape, congrArg IndexShape.unique hshape⟩

end Plain

/-! ## The order of declarations -/

/-- Two schemas declare the same tables, columns, indexes and sequences, each in some order. -/
structure Schema.Rearranged (a b : Schema) : Prop where
  tables : (a.tables.map Table.name).Perm (b.tables.map Table.name)
  columns : ∀ t ∈ a.tables, ∀ u ∈ b.tables, t.name = u.name →
    (t.columns.map fun c => (c.name, c.type)).Perm (u.columns.map fun c => (c.name, c.type))
  indexes : a.indexShapes id = b.indexShapes id
  sequences : (a.sequences.map Sequence.name).Perm (b.sequences.map Sequence.name)

section Rearranged

variable {α : Type} {a b : Schema}

/-- Keys do not depend on the order of declarations. -/
theorem keysOf_eq_of_perm {key : String → String} {name : α → String} {l l' : List α}
    (h : (l.map name).Perm (l'.map name)) : keysOf key name l = keysOf key name l' := by
  have subset {l l' : List α} (h : (l.map name).Perm (l'.map name)) :
      keysOf key name l ⊆ keysOf key name l' := by
    refine keysOf_subset_iff.2 fun a ha => ?_
    obtain ⟨b, hb, hname⟩ := List.mem_map.1 (h.subset (List.mem_map_of_mem ha))
    exact ⟨b, hb, congrArg key hname⟩
  exact (subset h).antisymm (subset h.symm)

/-- Tables with the same columns in another order agree. -/
theorem Table.agrees_of_perm {d : Dialect} {t u : Table} (hu : u.Distinct)
    (h : (t.columns.map fun c => (c.name, c.type)).Perm
      (u.columns.map fun c => (c.name, c.type))) : t.Agrees d u where
  names := by
    have hnames := h.map Prod.fst
    rw [List.map_map, List.map_map] at hnames
    exact keysOf_eq_of_perm hnames
  types := by
    intro c hc c' hc' hname
    obtain ⟨c'', hc'', heq⟩ := List.mem_map.1 (h.subset (List.mem_map_of_mem hc))
    obtain ⟨hname'', htype⟩ := Prod.mk.inj heq
    obtain rfl : c'' = c' := DistinctBy.eq_of_key hu hc'' hc' (by rw [hname'', hname])
    rw [← htype]

/-- The order of declarations does not matter to what schemas hold. -/
theorem Schema.Rearranged.agrees (h : a.Rearranged b) (hb : b.Distinct)
    (hdialect : b.dialect = a.dialect) : a.Agrees b where
  tables := keysOf_eq_of_perm h.tables
  columns := by
    intro t ht u hu hname
    obtain ⟨v, hv, hvname⟩ := List.mem_map.1 (h.tables.subset (List.mem_map_of_mem ht))
    obtain rfl : v = u := by
      refine hb.tables.eq_of_key hv hu ?_
      rw [hdialect, hvname, hname]
    exact Table.agrees_of_perm (hb.columns v hu) (h.columns t ht v hv hvname.symm)
  indexes := indexShapes_eq_of_id h.indexes
  sequences := keysOf_eq_of_perm h.sequences

/-- Over the indexes that are listed for coherent schemas, whether they declare the same is
decidable. -/
theorem Schema.rearranged_iff (ha : a.Coherent) (hb : b.Coherent) : a.Rearranged b ↔
    (a.tables.map Table.name).Perm (b.tables.map Table.name) ∧
      (∀ t ∈ a.tables, ∀ u ∈ b.tables, t.name = u.name →
        (t.columns.map fun c => (c.name, c.type)).Perm
          (u.columns.map fun c => (c.name, c.type))) ∧
      ((∀ x ∈ a.pseudoIndexes.map (PseudoIndex.shapeBy id),
          x ∈ b.pseudoIndexes.map (PseudoIndex.shapeBy id)) ∧
        ∀ x ∈ b.pseudoIndexes.map (PseudoIndex.shapeBy id),
          x ∈ a.pseudoIndexes.map (PseudoIndex.shapeBy id)) ∧
      (a.sequences.map Sequence.name).Perm (b.sequences.map Sequence.name) := by
  rw [← indexShapes_eq_iff ha hb]
  exact ⟨fun h => ⟨h.tables, h.columns, h.indexes, h.sequences⟩,
    fun h => ⟨h.1, h.2.1, h.2.2.1, h.2.2.2⟩⟩

end Rearranged

/-- Reachable schemas of one dialect with plain names have an empty report exactly if they hold the
same tables with the same columns, the same indexes and the same sequences. Having an empty report
is an equivalence relation among them, and does not depend on the order of declarations. -/
theorem report_eq_nil_iff_agrees (d : Dialect) :
    (∀ a b : PlainSchema d,
      a.schema.report b.schema = [] ↔ a.schema.Agrees b.schema) ∧
    Equivalence (fun a b : PlainSchema d => a.schema.report b.schema = []) ∧
    ∀ a a' b : PlainSchema d, a.schema.Rearranged a'.schema →
      (a.schema.report b.schema = [] ↔ a'.schema.report b.schema = []) ∧
        (b.schema.report a.schema = [] ↔ b.schema.report a'.schema = []) := by
  have dialects (a b : PlainSchema d) : b.schema.dialect = a.schema.dialect :=
    b.dialect.trans a.dialect.symm
  have hequivalence : Equivalence (fun a b : PlainSchema d => a.schema.report b.schema = []) := by
    refine ⟨fun a => ?_, fun {a b} h => ?_, fun {a b c} h h' => ?_⟩
    · rw [a.report_eq_nil_iff]
      exact .refl (distinct_of_reachable a.reachable)
    · rw [PlainSchema.report_eq_nil_iff] at h ⊢
      exact h.symm (dialects a b)
    · rw [PlainSchema.report_eq_nil_iff] at h h' ⊢
      exact h.trans (dialects a b) h'
  refine ⟨PlainSchema.report_eq_nil_iff, hequivalence, fun a a' b h => ?_⟩
  have hsame : a.schema.report a'.schema = [] := by
    rw [PlainSchema.report_eq_nil_iff]
    exact h.agrees (distinct_of_reachable a'.reachable) (dialects a a')
  constructor
  · exact ⟨hequivalence.trans (hequivalence.symm hsame), hequivalence.trans hsame⟩
  · exact ⟨fun hb => hequivalence.trans hb hsame,
      fun hb => hequivalence.trans hb (hequivalence.symm hsame)⟩

instance (s : Schema) : Decidable s.PlainNames :=
  decidable_of_iff
    ((∀ t ∈ s.tables, isPlainName t.name = true) ∧
      (∀ t ∈ s.tables, ∀ c ∈ t.columns, isPlainName c.name = true) ∧
        ∀ q ∈ s.sequences, isPlainName q.name = true)
    ⟨fun h => ⟨h.1, h.2.1, h.2.2⟩, fun h => ⟨h.tables, h.columns, h.sequences⟩⟩

/-- The schema of a source with plain names. -/
def PlainSchema.ofSource (text : String)
    (h : ((Schema.empty "" .standard).submit (.source text)).dialect = .standard ∧
      ((Schema.empty "" .standard).submit (.source text)).PlainNames) : PlainSchema .standard :=
  ⟨_, (Reachable.empty "" .standard).submit (.source text), h.1, h.2⟩

/-- A table, a sequence and an index. -/
def declared : PlainSchema .standard :=
  .ofSource "create table t (x int, y int unique); create sequence q; create index i on t (x, y)"
    (by decide +kernel)

/-- The same table, the same sequence and the same index in another order. -/
def declaredBackwards : PlainSchema .standard :=
  .ofSource
    "create sequence q; create table t (y int, x int, unique (y)); create index j on t (x, y)"
    (by decide +kernel)

/-- Nothing differs when everything is declared in another order. -/
theorem report_declaredBackwards : declared.schema.report declaredBackwards.schema = [] := by
  obtain ⟨-, hequivalence, hrearranged⟩ := report_eq_nil_iff_agrees .standard
  have hsame : declared.schema.Rearranged declaredBackwards.schema :=
    (Schema.rearranged_iff (coherent_of_reachable declared.reachable)
      (coherent_of_reachable declaredBackwards.reachable)).2 (by decide +kernel)
  have h := hrearranged declared declaredBackwards declared hsame
  exact h.2.1 (hequivalence.refl declared)

end SqlCatalog
