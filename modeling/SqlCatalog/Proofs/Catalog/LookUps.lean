import SqlCatalog.Proofs.Catalog.Coherent
import SqlCatalog.Schema.Discrepancy
import SqlCatalog.Schema.Listing

/-!
# Look-ups by place

Listings, indexes and discrepancies look up tables, columns and sequences by their places. Here
they are made once more so that they fail at the first place that leads nowhere. On coherent
schemas none of these look-ups fails, and what comes out is the same.

## Main definitions

* `Table.fetchName` and its kin look up by place and fail where nothing is.

## Main statements

* `integrity_of_reachable`: reachable schemas are coherent, and no look-up in them fails.
-/

namespace SqlCatalog

/-! ## Look-ups that can fail -/

namespace Table

variable (t : Table)

/-- The name of the column at a place. -/
def fetchName (i : Nat) : Option String := t.columns[i]?.map Column.name

/-- The names of columns, with commas between them. -/
def fetchNames (columns : List Nat) : Option String := do
  let names ← columns.mapM t.fetchName
  return ", ".intercalate names

/-- The columns of the primary key. -/
def fetchPrimaryKey : Option (List Column) := (t.primaryKey.getD []).mapM (t.columns[·]?)

end Table

mutual

/-- The text of a check expression over the columns of a table. -/
def CheckExpr.fetchText (t : Table) : CheckExpr → Option String
  | .column i => t.fetchName i
  | .constant value => return value.literal
  | .call name arguments => do
    let texts ← CheckExpr.fetchTexts t arguments
    return name ++ "(" ++ ", ".intercalate texts ++ ")"
  | .compare operator lhs rhs => do
    let left ← lhs.fetchText t
    let right ← rhs.fetchText t
    return s!"{left} {operator} {right}"

/-- The texts of several check expressions. -/
def CheckExpr.fetchTexts (t : Table) : List CheckExpr → Option (List String)
  | [] => return []
  | e :: es => do
    let text ← e.fetchText t
    let texts ← CheckExpr.fetchTexts t es
    return text :: texts

end

/-- The text of what a constraint is about. -/
def Constraint.fetchSubject (t : Table) : Constraint → Option String
  | notNull _ => return ""
  | unique _ columns => t.fetchNames columns
  | check _ expression => expression.fetchText t

/-- The index over the given columns, named by what it does. -/
def PseudoIndex.fetch (t : Table) (columns : List Nat) (unique : Bool) : Option PseudoIndex := do
  let names ← columns.mapM t.fetchName
  return ⟨t.name ++ (if unique then "-unique" else "") ++ ":(" ++ ",".intercalate names ++ ")",
    t, unique, columns⟩

/-- The indexes that a table implies. -/
def Table.fetchImpliedIndexes (t : Table) : Option (List PseudoIndex) :=
  (t.primaryKey.toList ++ t.uniques).mapM fun columns => PseudoIndex.fetch t columns true

section Schemas

variable (s : Schema)

/-- The text of a declared default. -/
def DefaultValue.fetchText : DefaultValue → Option String
  | null => return "null"
  | literal value => return value.literal
  | sequence id => do
    let q ← s.sequences[id]?
    return s!"nextval('{q.name}')"
  | procedure name arguments => return procedureText name arguments

/-- What a column declares besides its name and type. -/
def Column.fetchModifiers (t : Table) (c : Column) : Option (List String) := do
  let default ← c.default.mapM (·.fetchText s)
  let target ← c.references.mapM fun id => s.tables[id]?.map Table.name
  return c.modifiersOver t default target

/-- The lines of a table. -/
def Table.fetchListing (t : Table) : Option (List String) := do
  let modifiers ← t.columns.mapM (·.fetchModifiers s t)
  let key ← t.jointKey?.mapM t.fetchNames
  let subjects ← t.constraints.mapM (·.fetchSubject t)
  return t.listingOver modifiers key subjects

/-- The line of a sequence. -/
def Sequence.fetchLine (q : Sequence) : Option String := do
  let users ← q.users.mapM fun user => do
    let t ← s.tables[user.1]?
    let name ← t.fetchName user.2
    return t.name ++ "." ++ name
  return q.lineOver users

/-- The line of an index. -/
def Index.fetchLine (i : Index) : Option String := do
  let t ← s.tables[i.table]?
  let columns ← t.fetchNames i.columns
  return i.lineOver t.name columns

namespace Schema

/-- The listing of a schema. -/
def fetchListing : Option String := do
  let tables ← s.tables.mapM (·.fetchListing s)
  let sequences ← s.sequences.mapM (·.fetchLine s)
  let indexes ← s.indexes.mapM (·.fetchLine s)
  return listingText tables sequences indexes

/-- The declared indexes, then the implied ones table by table. -/
def fetchPseudoIndexes : Option (List PseudoIndex) := do
  let declared ← s.indexes.mapM fun i => do
    let t ← s.tables[i.table]?
    PseudoIndex.fetch t i.columns i.unique
  let implied ← s.tables.mapM Table.fetchImpliedIndexes
  return declared ++ implied.flatten

/-- All differences, from the view of the first schema. -/
def fetchDiscrepancies (mine theirs : Schema) : Option (List Discrepancy) := do
  let myIndexes ← mine.fetchPseudoIndexes
  let theirIndexes ← theirs.fetchPseudoIndexes
  return mine.discrepanciesOver theirs myIndexes theirIndexes

end Schema

end Schemas

/-! ## Look-ups that do not fail -/

section Tables

variable {t : Table}

/-- The name of a column is found at every place of the table. -/
theorem fetchName_eq {i : Nat} (h : i < t.columns.length) :
    t.fetchName i = some (t.columnName i) := by
  simp [Table.fetchName, Table.columnName, List.getElem?_eq_getElem h]

theorem fetchNames_eq {columns : List Nat} (h : ∀ i ∈ columns, i < t.columns.length) :
    t.fetchNames columns = some (t.columnNames columns) := by
  simp [Table.fetchNames, Table.columnNames, mapM_eq_some_map fun i hi => fetchName_eq (h i hi)]

theorem fetchPrimaryKey_eq (h : t.Coherent) : t.fetchPrimaryKey = some t.primaryKeyColumns := by
  refine mapM_eq_some_filterMap fun i hi => ⟨rfl, ?_⟩
  cases hkey : t.primaryKey with
  | none => simp [hkey] at hi
  | some key =>
    rw [hkey, Option.getD_some] at hi
    rw [List.getElem?_eq_getElem (h.primaryKey key hkey i hi)]
    rfl

mutual

theorem fetchText_eq (e : CheckExpr) (h : ∀ i ∈ e.columns, i < t.columns.length) :
    e.fetchText t = some (e.text t) := by
  cases e with
  | column i => exact fetchName_eq (h i (by simp [CheckExpr.columns]))
  | constant value => rfl
  | call name arguments =>
    rw [CheckExpr.fetchText, fetchTexts_eq arguments h]
    rfl
  | compare operator lhs rhs =>
    rw [CheckExpr.fetchText, fetchText_eq lhs fun i hi => h i (List.mem_append_left _ hi),
      fetchText_eq rhs fun i hi => h i (List.mem_append_right _ hi)]
    rfl

theorem fetchTexts_eq (es : List CheckExpr)
    (h : ∀ i ∈ CheckExpr.columnsAll es, i < t.columns.length) :
    CheckExpr.fetchTexts t es = some (CheckExpr.texts t es) := by
  cases es with
  | nil => rfl
  | cons e es =>
    rw [CheckExpr.fetchTexts, fetchText_eq e fun i hi => h i (List.mem_append_left _ hi),
      fetchTexts_eq es fun i hi => h i (List.mem_append_right _ hi)]
    rfl

end

theorem fetchSubject_eq (c : Constraint) (h : ∀ i ∈ c.affected, i < t.columns.length) :
    c.fetchSubject t = some (c.subject t) := by
  cases c with
  | notNull i => rfl
  | unique name columns => exact fetchNames_eq h
  | check name expression => exact fetchText_eq expression h

theorem fetchPseudoIndex_eq {columns : List Nat} (unique : Bool)
    (h : ∀ i ∈ columns, i < t.columns.length) :
    PseudoIndex.fetch t columns unique = some (.of t columns unique) := by
  simp [PseudoIndex.fetch, PseudoIndex.of, mapM_eq_some_map fun i hi => fetchName_eq (h i hi)]

/-- The indexes that a coherent table implies are all found. -/
theorem fetchImpliedIndexes_eq (h : t.Coherent) :
    t.fetchImpliedIndexes = some t.impliedIndexes := by
  refine mapM_eq_some_map fun columns hcolumns => fetchPseudoIndex_eq true fun i hi => ?_
  rcases List.mem_append.1 hcolumns with hkey | hunique
  · exact h.primaryKey columns (Option.mem_toList.1 hkey) i hi
  · obtain ⟨name, hc⟩ := Table.mem_uniques_iff.1 hunique
    exact h.constraints _ hc i hi

end Tables

section Schemas

variable {s : Schema} (h : s.Coherent) {t : Table} (ht : t ∈ s.tables)

include h ht in
/-- What is printed after a column is found, the names of tables and sequences included. -/
theorem fetchModifiers_eq {c : Column} (hc : c ∈ t.columns) :
    c.fetchModifiers s t = some (c.modifiers s t) := by
  have hdefault : (c.default.mapM (·.fetchText s)) = some (c.default.map (·.text s)) := by
    cases hd : c.default with
    | none => rfl
    | some d =>
      cases d with
      | sequence id =>
        have hlt := h.defaults t ht c hc id hd
        simp [DefaultValue.fetchText, DefaultValue.text, Schema.sequenceName,
          List.getElem?_eq_getElem hlt]
      | _ => rfl
  have htarget : (c.references.mapM fun id => s.tables[id]?.map Table.name) =
      some (c.references.map s.tableName) := by
    cases hr : c.references with
    | none => rfl
    | some id =>
      have hlt := (h.references t ht c hc id hr).2
      simp [Schema.tableName, List.getElem?_eq_getElem hlt]
  rw [Column.fetchModifiers, hdefault, htarget]
  rfl

include h ht in
/-- The listing of a table of a coherent schema is found whole. -/
theorem fetchTableListing_eq : t.fetchListing s = some (t.listing s) := by
  have htable := h.tables t ht
  have hkey : t.jointKey?.mapM t.fetchNames = some (t.jointKey?.map t.columnNames) := by
    cases hjoint : t.jointKey? with
    | none => rfl
    | some key =>
      have hmem := (Option.filter_eq_some_iff.1 hjoint).1
      simp [fetchNames_eq (htable.primaryKey key hmem)]
  rw [Table.fetchListing, mapM_eq_some_map fun c hc => fetchModifiers_eq h ht hc, hkey,
    mapM_eq_some_map fun c hc => fetchSubject_eq c (htable.constraints c hc)]
  rfl

include h in
theorem fetchSequenceLine_eq {q : Sequence} (hq : q ∈ s.sequences) :
    q.fetchLine s = some (q.line s) := by
  have huser : ∀ user ∈ q.users, (do
      let t ← s.tables[user.1]?
      let name ← t.fetchName user.2
      return t.name ++ "." ++ name) = some (s.tableName user.1 ++ "." ++
        ((s.tables[user.1]?.map (·.columnName user.2)).getD "")) := by
    intro user huser
    obtain ⟨t, ht, hlt⟩ := h.users q hq user huser
    simp [ht, Schema.tableName, fetchName_eq (hlt user.2 (by simp))]
  rw [Sequence.fetchLine, mapM_eq_some_map huser]
  rfl

include h in
theorem fetchIndexLine_eq {i : Index} (hi : i ∈ s.indexes) : i.fetchLine s = some (i.line s) := by
  obtain ⟨t, ht, hlt⟩ := h.indexes i hi
  simp [Index.fetchLine, Index.line, ht, fetchNames_eq hlt, Schema.tableName]

include h in
/-- The listing of a coherent schema is found whole. -/
theorem fetchListing_eq : s.fetchListing = some s.listing := by
  rw [Schema.fetchListing, mapM_eq_some_map fun t ht => fetchTableListing_eq h ht,
    mapM_eq_some_map fun q hq => fetchSequenceLine_eq h hq,
    mapM_eq_some_map fun i hi => fetchIndexLine_eq h hi]
  rfl

include h in
/-- The indexes of a coherent schema are all found. -/
theorem fetchPseudoIndexes_eq : s.fetchPseudoIndexes = some s.pseudoIndexes := by
  have hdeclared : (s.indexes.mapM fun i => do
      let t ← s.tables[i.table]?
      PseudoIndex.fetch t i.columns i.unique) =
      some (s.indexes.filterMap fun i => s.tables[i.table]?.map fun t =>
        .of t i.columns i.unique) := by
    refine mapM_eq_some_filterMap fun i hi => ?_
    obtain ⟨t, ht, hlt⟩ := h.indexes i hi
    simp [ht, fetchPseudoIndex_eq i.unique hlt]
  rw [Schema.fetchPseudoIndexes, hdeclared,
    mapM_eq_some_map fun t ht => fetchImpliedIndexes_eq (h.tables t ht)]
  simp [Schema.pseudoIndexes, List.flatMap]

include h in
/-- The comparison of two coherent schemas finds whatever it looks up. -/
theorem fetchDiscrepancies_eq {theirs : Schema} (htheirs : theirs.Coherent) :
    s.fetchDiscrepancies theirs = some (s.discrepancies theirs) := by
  rw [Schema.fetchDiscrepancies, fetchPseudoIndexes_eq h, fetchPseudoIndexes_eq htheirs]
  rfl

end Schemas

/-! ## Reachable schemas -/

/-- A reachable schema is coherent, and no look-up by place fails when its tables' primary keys,
its indexes, its listing or its differences from another reachable schema are worked out. -/
theorem integrity_of_reachable {s : Schema} (h : Reachable s) :
    s.Coherent ∧ (∀ t ∈ s.tables, t.fetchPrimaryKey = some t.primaryKeyColumns) ∧
      s.fetchPseudoIndexes = some s.pseudoIndexes ∧ s.fetchListing = some s.listing ∧
        ∀ other, Reachable other → s.fetchDiscrepancies other = some (s.discrepancies other) := by
  have hs := coherent_of_reachable h
  refine ⟨hs, fun t ht => fetchPrimaryKey_eq (hs.tables t ht), fetchPseudoIndexes_eq hs,
    fetchListing_eq hs, fun other hother => ?_⟩
  exact fetchDiscrepancies_eq hs (coherent_of_reachable hother)

/-- The schema of a source with a sequence and a table that uses it, and its listing. -/
theorem integrity_of_source :
    ((Schema.empty "" .standard).submit (.source
        "create sequence q; create table t (x int default nextval('q'))")).Coherent ∧
      ((Schema.empty "" .standard).submit (.source
        "create sequence q; create table t (x int default nextval('q'))")).fetchListing =
      some "table t\n    x  int  default nextval('q')\n\nsequence q used by t.x\n" := by
  obtain ⟨hs, -, -, hlisting, -⟩ := integrity_of_reachable ((Reachable.empty "" .standard).submit
    (.source "create sequence q; create table t (x int default nextval('q'))"))
  refine ⟨hs, ?_⟩
  rw [hlisting]
  decide +kernel

end SqlCatalog
