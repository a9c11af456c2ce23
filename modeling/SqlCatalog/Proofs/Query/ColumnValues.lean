import SqlCatalog.Proofs.Catalog.Distinct
import SqlCatalog.Proofs.Query.NameOrder

/-!
# Values for columns of one table

Values for columns are accepted if all columns are of one table. In a reachable schema, tables are
told apart by their places and the columns of a table by their names, so that the accepted values
are those that were given last for their columns, in the order of the names of these.

## Main definitions

* `ColumnRef.IsOf` says that a column is one of a schema.
* `Assignments.canonical` are values in the order of names, as they are accepted.

## Main statements

* `Assignments.of_cons_eq_ok`, `Assignments.of_cons_eq_error`: when values are accepted.
* `Assignments.mem_canonical`, `Assignments.pairwise_canonical`: what is accepted.
* `Assignments.canonical_perm`: it does not depend on the order in which values are given.
-/

namespace SqlCatalog

/-! ## Columns of a schema -/

/-- The column is one of a table of the schema. -/
structure ColumnRef.IsOf (s : Schema) (c : ColumnRef) : Prop where
  table : c.table ∈ s.tables
  column : c.column ∈ c.table.columns

namespace Assignments

variable {values others : List (ColumnRef × Expression)} {v first : ColumnRef × Expression}
  {a : Assignments} {e : QueryError} {t : Table}

/-! ## When values are accepted -/

/-- The values that were given last for their columns, in the order of names. -/
def canonical (values : List (ColumnRef × Expression)) : List (ColumnRef × Expression) :=
  (sortByName (values.map fun v => (v.1.name, v))).map Prod.snd

/-- The first value decides the table, and the first one that is not for it is reported. -/
theorem of_cons (first : ColumnRef × Expression) (values : List (ColumnRef × Expression)) :
    of (first :: values) =
      match values.find? fun v => v.1.table.id != first.1.table.id with
      | some stray => .error (.notOfTable stray.1.table.name stray.1.name first.1.table.name)
      | none => .ok ⟨first.1.table, canonical (first :: values)⟩ := by
  rw [of, List.find?_cons_of_neg (by simp)]
  cases values.find? fun v => v.1.table.id != first.1.table.id <;> rfl

/-- Values for columns of tables in the place of the first one are accepted. -/
theorem of_cons_eq_ok : of (first :: values) = .ok a ↔
    (∀ v ∈ values, v.1.table.id = first.1.table.id) ∧
      ⟨first.1.table, canonical (first :: values)⟩ = a := by
  rw [of_cons]
  split
  · rename_i stray hfind
    have hstray := List.find?_some hfind
    refine iff_of_false (by simp) fun h => ?_
    simp [h.1 stray (List.mem_of_find?_eq_some hfind)] at hstray
  · rename_i hfind
    have hall := List.find?_eq_none.1 hfind
    simp only [Except.ok.injEq, iff_and_self]
    intro _ v hv
    simpa using hall v hv

/-- Other values are refused for the first column that is not of such a table. -/
theorem of_cons_eq_error : of (first :: values) = .error e ↔
    ∃ between stray after, values = between ++ stray :: after ∧
      (∀ v ∈ between, v.1.table.id = first.1.table.id) ∧
      stray.1.table.id ≠ first.1.table.id ∧
      .notOfTable stray.1.table.name stray.1.name first.1.table.name = e := by
  have hfind (stray : ColumnRef × Expression) :
      (values.find? fun v => v.1.table.id != first.1.table.id) = some stray ↔
        stray.1.table.id ≠ first.1.table.id ∧ ∃ between after, values = between ++ stray :: after ∧
          ∀ v ∈ between, v.1.table.id = first.1.table.id := by
    rw [List.find?_eq_some_iff_append]
    simp
  rw [of_cons]
  constructor
  · intro h
    split at h
    · rename_i stray hstray
      obtain ⟨hne, between, after, hvalues, hbetween⟩ := (hfind stray).1 hstray
      exact ⟨between, stray, after, hvalues, hbetween, hne, Except.error.inj h⟩
    · cases h
  · rintro ⟨between, stray, after, hvalues, hbetween, hne, rfl⟩
    rw [(hfind stray).2 ⟨hne, between, after, hvalues, hbetween⟩]

/-- Values for columns of one table are accepted, if there are any. -/
theorem of_eq_ok (hne : values ≠ []) (htable : ∀ v ∈ values, v.1.table = t) :
    of values = .ok ⟨t, canonical values⟩ := by
  rcases values with _ | ⟨first, values⟩
  · exact absurd rfl hne
  · obtain ⟨hfirst, hvalues⟩ := List.forall_mem_cons.1 htable
    refine of_cons_eq_ok.2 ⟨?_, ?_⟩
    · intro v hv
      rw [hvalues v hv, hfirst]
    · rw [hfirst]

/-! ## What is accepted -/

/-- Of each name the last value is accepted. -/
theorem mem_canonical_iff_name :
    v ∈ canonical values ↔ LastGiven (fun v => v.1.name) values v := by
  rw [canonical, List.mem_map]
  constructor
  · rintro ⟨x, hx, rfl⟩
    obtain ⟨w, hw, rfl⟩ := LastGiven.map_iff.1 (mem_sortByName.1 hx)
    exact hw
  · intro hv
    exact ⟨_, mem_sortByName.2 (LastGiven.map_iff.2 ⟨v, hv, rfl⟩), rfl⟩

/-- The names increase. -/
theorem pairwise_canonical (values : List (ColumnRef × Expression)) :
    (canonical values).Pairwise fun v w => v.1.name < w.1.name := by
  have hname : ∀ x ∈ sortByName (values.map fun v => (v.1.name, v)), x.1 = x.2.1.name := by
    intro x hx
    obtain ⟨v, -, rfl⟩ := List.mem_map.1 (mem_sortByName.1 hx).mem
    rfl
  rw [canonical, List.pairwise_map]
  refine (orderedByName_sortByName _).imp_of_mem ?_
  intro x y hx hy hlt
  rwa [← hname x hx, ← hname y hy]

section OneTable

variable (hdistinct : t.Distinct)
  (hvalues : ∀ v ∈ values, v.1.table = t ∧ v.1.column ∈ t.columns)

include hdistinct hvalues

/-- The columns of one table are told apart by their names. -/
theorem column_eq_iff {v w : ColumnRef × Expression} (hv : v ∈ values) (hw : w ∈ values) :
    v.1.name = w.1.name ↔ v.1 = w.1 := by
  refine ⟨fun hname => ?_, fun heq => congrArg ColumnRef.name heq⟩
  obtain ⟨⟨table, c⟩, x⟩ := v
  obtain ⟨⟨table', d⟩, y⟩ := w
  obtain ⟨rfl, hc⟩ := hvalues _ hv
  obtain ⟨rfl, hd⟩ := hvalues _ hw
  rw [show c = d from hdistinct.column_eq hc hd hname]

/-- Accepted are the values that were given last for their columns. -/
theorem mem_canonical : v ∈ canonical values ↔ LastGiven Prod.fst values v := by
  rw [mem_canonical_iff_name]
  exact LastGiven.congr_key fun v hv w hw => column_eq_iff hdistinct hvalues hv hw

/-- Values for different columns are accepted alike in any order. -/
theorem canonical_perm (hcolumns : (values.map Prod.fst).Nodup) (hperm : values.Perm others) :
    canonical values = canonical others := by
  have hnames : (values.map fun v => v.1.name).Nodup := by
    refine List.Nodup.map_on ?_ hcolumns.of_map
    intro v hv w hw hname
    exact List.inj_on_of_nodup_map hcolumns hv hw ((column_eq_iff hdistinct hvalues hv hw).1 hname)
  rw [canonical, canonical, sortByName_perm (hperm.map _)]
  rwa [List.map_map]

end OneTable

end Assignments

end SqlCatalog
