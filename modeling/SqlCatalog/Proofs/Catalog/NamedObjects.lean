import SqlCatalog.Proofs.Catalog.Distinct

/-!
# Objects and their names

In a reachable schema a name stands for one object of a kind or for none, so that looking an object
up by a name gives the object whose name has the same key, whenever there is one, and a statement
cannot create an object under a key that is taken.

## Main definitions

* `Table.FindsByName` and `Schema.FindsByName` say that look-ups are exact.
* `StatementKind.declaredName?` is the name under which a statement creates an object, and
  `Schema.Has` says that an object of the kind has that name.

## Main statements

* `refused_of_has`: a statement that creates an object under a name that is taken is refused.
* `names_exact_of_reachable`: names are distinct, look-ups are exact, and taken names are refused.
-/

namespace SqlCatalog

/-! ## Look-ups -/

/-- Columns are found by name, in any letter case: the column itself, its place, and whether there
is one. -/
structure Table.FindsByName (t : Table) : Prop where
  column : ∀ name c, t.columnNamed name = .ok c ↔ c ∈ t.columns ∧ lower c.name = lower name
  place : ∀ name i,
    t.columnIndex name = .ok i ↔ ∃ c, t.columns[i]? = some c ∧ lower c.name = lower name
  has : ∀ name, t.hasColumn name = true ↔ ∃ i, t.columnIndex name = .ok i

/-- Objects of every kind are found by the part of their name that identifies them. -/
structure Schema.FindsByName (s : Schema) : Prop where
  table : ∀ name t, s.tableNamed name = .ok t ↔
    t ∈ s.tables ∧ s.dialect.identifierKey t.name = s.dialect.identifierKey name
  sequence : ∀ name q, s.sequenceNamed name = .ok q ↔
    q ∈ s.sequences ∧ s.dialect.identifierKey q.name = s.dialect.identifierKey name
  index : ∀ name i, s.indexNamed name = .ok i ↔
    i ∈ s.indexes ∧ s.dialect.identifierKey i.name = s.dialect.identifierKey name
  columns : ∀ t ∈ s.tables, t.FindsByName

/-- With distinct names, each column is found by its own name. -/
theorem Table.Distinct.findsByName {t : Table} (h : t.Distinct) : t.FindsByName where
  column _ _ := columnNamed_eq_ok_iff h
  place _ _ := columnIndex_eq_ok_iff h
  has name := by
    simp only [columnIndex_eq_ok_iff h, hasColumn_iff, List.mem_iff_getElem?]
    constructor
    · rintro ⟨c, ⟨i, hi⟩, hname⟩
      exact ⟨i, c, hi, hname⟩
    · rintro ⟨i, c, hi, hname⟩
      exact ⟨c, ⟨i, hi⟩, hname⟩

/-- With distinct names, each object is found by its own name. -/
theorem Schema.Distinct.findsByName {s : Schema} (h : s.Distinct) : s.FindsByName where
  table _ _ := h.tableNamed_eq_ok_iff
  sequence _ _ := h.sequenceNamed_eq_ok_iff
  index _ _ := h.indexNamed_eq_ok_iff
  columns t ht := (h.columns t ht).findsByName

/-! ## Creating objects -/

/-- The name under which a statement of the given kind creates an object. -/
def StatementKind.declaredName? (statement : Statement) : StatementKind → Option String
  | table => (readTableHead (Token.flatten statement)).toOption.map Prod.fst
  | sequence => (readSequenceDefinition (Token.flatten statement)).toOption
  | index => (readIndexHead (Token.flatten statement)).toOption.map IndexHead.name
  | seedRow | blank => none

/-- Whether an object of the kind that statements of the given kind create has the given name. -/
def Schema.Has (s : Schema) (name : String) : StatementKind → Prop
  | .table => ∃ t ∈ s.tables, s.dialect.identifierKey t.name = s.dialect.identifierKey name
  | .sequence => ∃ q ∈ s.sequences, s.dialect.identifierKey q.name = s.dialect.identifierKey name
  | .index => ∃ i ∈ s.indexes, s.dialect.identifierKey i.name = s.dialect.identifierKey name
  | .seedRow | .blank => False

section Creating

variable {s : Schema} {statement : Statement} {name : String}

/-- What is read last before a refusal leaves the schema as it was. -/
theorem into_refused {α β : Type} {x : Compile α} {e : CompileError} (h : x = .error e)
    (f : α → Compiling β) : (liftM x >>= f).into s = (.error e, s) := by
  rw [h]
  rfl

/-- A table whose name is taken is refused before its body is read. -/
theorem compileTable_taken (hs : s.Distinct)
    (hname : StatementKind.table.declaredName? statement = some name) (htaken : s.Has name .table) :
    (compileTable statement).into s = (.error (.catalog (.duplicate .table name)), s) := by
  obtain ⟨⟨n, body⟩, hhead, rfl⟩ := Option.map_eq_some_iff.1 hname
  have hhead := toOption_eq_some.1 hhead
  obtain ⟨t, ht, hkey⟩ := htaken
  have hfresh : s.freshTable n = .error (.duplicate .table n) := by
    rw [Schema.freshTable, hs.tableNamed_eq_ok_iff.2 ⟨ht, hkey⟩]
  refine (Compiling.into_get _).trans (into_refused ?_ _)
  rw [Schema.readTable, hhead]
  show (fromCatalog (s.freshTable n) >>= _) = _
  rw [hfresh]
  rfl

/-- A sequence under a name that is taken is refused as a duplicate. -/
theorem compileSequence_taken (hs : s.Distinct)
    (hname : StatementKind.sequence.declaredName? statement = some name)
    (htaken : s.Has name .sequence) :
    (compileSequence statement).into s = (.error (.catalog (.duplicate .sequence name)), s) := by
  obtain ⟨q, hq, hkey⟩ := htaken
  have hadd : s.addSequence name = .error (.duplicate .sequence name) := by
    rw [Schema.addSequence, hs.sequenceNamed_eq_ok_iff.2 ⟨hq, hkey⟩]
  refine (Compiling.into_get _).trans ?_
  refine (Compiling.into_read (toOption_eq_some.1 hname) _).trans (into_refused ?_ _)
  rw [hadd]
  rfl

/-- An index is added last, so that something else may be wrong with it as well. -/
theorem compileIndex_taken (hs : s.Distinct)
    (hname : StatementKind.index.declaredName? statement = some name)
    (htaken : s.Has name .index) : ∃ e, (compileIndex statement).into s = (.error e, s) := by
  obtain ⟨head, hhead, rfl⟩ := Option.map_eq_some_iff.1 hname
  obtain ⟨i, hi, hkey⟩ := htaken
  have hadd (added : Index) (h : added.name = head.name) :
      s.addIndex added = .error (.duplicate .index head.name) := by
    rw [Schema.addIndex, h, hs.indexNamed_eq_ok_iff.2 ⟨hi, hkey⟩]
  rw [show (compileIndex statement).into s = _ from
    (Compiling.into_get _).trans (Compiling.into_read (toOption_eq_some.1 hhead) _)]
  cases htable : fromCatalog (s.tableNamed head.table) with
  | error e => exact ⟨e, into_refused rfl _⟩
  | ok t =>
    rw [Compiling.into_read rfl]
    cases hnames : readNames head.columns with
    | error e => exact ⟨e, into_refused rfl _⟩
    | ok names =>
      rw [Compiling.into_read rfl]
      cases hcolumns : fromCatalog (t.columnIndexes names) with
      | error e => exact ⟨e, into_refused rfl _⟩
      | ok columns =>
        rw [Compiling.into_read rfl, hadd _ rfl]
        exact ⟨_, into_refused rfl _⟩

/-- A statement that creates an object under a name that is taken is refused. -/
theorem refused_of_has (hs : s.Distinct) {kind : StatementKind}
    (hname : kind.declaredName? statement = some name) (htaken : s.Has name kind) :
    ∃ e, (kind.compile statement).into s = (.error e, s) := by
  have refused {α : Type} {x : Compiling α} {e : CompileError} (hx : x.into s = (.error e, s)) :
      (Functor.discard x).into s = (.error e, s) := by
    show (x >>= fun _ => pure PUnit.unit).into s = _
    rw [Compiling.into_bind, hx]
  cases kind with
  | table => exact ⟨_, refused (compileTable_taken hs hname htaken)⟩
  | sequence => exact ⟨_, refused (compileSequence_taken hs hname htaken)⟩
  | index => exact compileIndex_taken hs hname htaken
  | seedRow | blank => cases hname

end Creating

/-! ## Reachable schemas -/

/-- In a reachable schema the names of the objects of a kind have different keys, and so have the
names of the columns of a table. Every look-up by name finds the one object whose name has the same
key, whenever there is one. No statement creates an object under a name that is taken. -/
theorem names_exact_of_reachable {s : Schema} (h : Reachable s) :
    s.Distinct ∧ s.FindsByName ∧
      ∀ kind statement name, kind.declaredName? statement = some name → s.Has name kind →
        (∃ e, (kind.compile statement).into s = (.error e, s)) ∧
          (StatementKind.of statement = .ok kind →
            ∃ e, (compileStatement statement).into s = (.error e, s)) := by
  have hs := distinct_of_reachable h
  refine ⟨hs, hs.findsByName, fun kind statement name hname htaken => ?_⟩
  have hrefused := refused_of_has hs hname htaken
  refine ⟨hrefused, fun hkind => ?_⟩
  rw [into_compileStatement, hkind]
  exact hrefused

/-- The schema of a source with a table of two columns, a sequence and an index. -/
def sampleNames : Schema :=
  (Schema.empty "" .oracle).submit (.source "create table Shop (Id integer, Label text);
    create sequence Next_Id; create index By_Label on Shop (Label)")

/-- The table is found in any letter case, and no second one is created under its name. -/
theorem names_exact_sampleNames :
    (∃ t, sampleNames.tableNamed "SHOP" = .ok t ∧ t.name = "Shop") ∧
      ∃ e, (StatementKind.table.compile
        [.keyword "CREATE", .keyword "TABLE", .name "SHOP", .paren []]).into sampleNames =
          (.error e, sampleNames) := by
  have hreachable : Reachable sampleNames := (Reachable.empty "" .oracle).submit _
  obtain ⟨-, hfinds, hrefused⟩ := names_exact_of_reachable hreachable
  obtain ⟨hnames, hdialect⟩ : sampleNames.tables.map Table.name = ["Shop"] ∧
      sampleNames.dialect = .oracle := by decide +kernel
  obtain ⟨t, ht, hname⟩ : ∃ t ∈ sampleNames.tables, t.name = "Shop" := by
    rw [← List.mem_map, hnames]
    exact List.mem_singleton.2 rfl
  have hkey : sampleNames.dialect.identifierKey t.name =
      sampleNames.dialect.identifierKey "SHOP" := by
    rw [hname, hdialect]
    decide +kernel
  have hdeclared : StatementKind.table.declaredName?
      [.keyword "CREATE", .keyword "TABLE", .name "SHOP", .paren []] = some "SHOP" := by
    decide +kernel
  exact ⟨⟨t, (hfinds.table "SHOP" t).2 ⟨ht, hkey⟩, hname⟩,
    (hrefused .table _ "SHOP" hdeclared ⟨t, ht, hkey⟩).1⟩

end SqlCatalog
