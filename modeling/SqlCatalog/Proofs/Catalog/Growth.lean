import SqlCatalog.Proofs.Catalog.Compiling
import SqlCatalog.Proofs.Lists

/-!
# Schemas after a change

What the lists of a schema are after a change, place by place. A change keeps the tables that are
there at their places, with their columns; only the rows of a table and the users of a sequence
can become more.

## Main definitions

* `Draft.usersOf` are the columns of a draft that use a sequence.
* `Schema.HasColumns` says that a schema has a table with columns at some places.

## Main statements

* `tables_withDraft`, `sequences_withDraft`: the schema with a draft.
* `Change.table_kept`: a change gives a table more rows at most.
* `Schema.HasColumns.change`: no change takes tables or columns away.
-/

namespace SqlCatalog

/-! ## Users of sequences -/

section Users

variable (s : Schema) (owner : TableId) (users : List (SequenceId × Nat))

@[simp] theorem tables_addUsers : (s.addUsers owner users).tables = s.tables := by
  induction users generalizing s with
  | nil => rfl
  | cons user users ih => exact ih _

@[simp] theorem source_addUsers : (s.addUsers owner users).source = s.source := by
  induction users generalizing s with
  | nil => rfl
  | cons user users ih => exact ih _

@[simp] theorem indexes_addUsers : (s.addUsers owner users).indexes = s.indexes := by
  induction users generalizing s with
  | nil => rfl
  | cons user users ih => exact ih _

@[simp] theorem length_sequences_addUsers :
    (s.addUsers owner users).sequences.length = s.sequences.length := by
  induction users generalizing s with
  | nil => rfl
  | cons user users ih => exact (ih _).trans (List.length_modify ..)

@[simp] theorem dialect_addUsers : (s.addUsers owner users).dialect = s.dialect := by
  induction users generalizing s with
  | nil => rfl
  | cons user users ih => exact ih _

/-- A sequence gets the users that are noted for its place, in their order. -/
theorem sequences_addUsers (id : SequenceId) :
    (s.addUsers owner users).sequences[id]? = s.sequences[id]?.map fun q =>
      { q with
        users := q.users ++ (users.filter (·.1 == id)).map fun user => (owner, user.2) } := by
  induction users generalizing s with
  | nil => simp [Schema.addUsers]
  | cons user users ih =>
    rw [Schema.addUsers, List.foldl_cons, ← Schema.addUsers, ih]
    by_cases hid : user.1 = id
    · simp [Schema.addUser, hid, Function.comp_def]
    · simp [Schema.addUser, hid]

end Users

/-! ## Drafts -/

/-- The columns of the draft that use the sequence at `id`. -/
def Draft.usersOf (d : Draft) (id : SequenceId) : List (TableId × Nat) :=
  (d.users.filter (·.1 == id)).map fun user => (d.table.id, user.2)

attribute [ext] Schema

section Drafts

variable (s : Schema) (d : Draft)

/-- A draft becomes the last table. -/
@[simp] theorem tables_withDraft : (s.withDraft d).tables = s.tables ++ [d.table] :=
  tables_addUsers _ _ _

@[simp] theorem source_withDraft : (s.withDraft d).source = s.source := source_addUsers _ _ _

@[simp] theorem indexes_withDraft : (s.withDraft d).indexes = s.indexes := indexes_addUsers _ _ _

@[simp] theorem dialect_withDraft : (s.withDraft d).dialect = s.dialect := dialect_addUsers _ _ _

/-- A draft adds its uses to the sequences and leaves them where they are. -/
theorem sequences_withDraft (id : SequenceId) :
    (s.withDraft d).sequences[id]? =
      s.sequences[id]?.map fun q => { q with users := q.users ++ d.usersOf id } :=
  sequences_addUsers _ _ _ _

@[simp] theorem length_sequences_withDraft :
    (s.withDraft d).sequences.length = s.sequences.length :=
  length_sequences_addUsers _ _ _

end Drafts

/-! ## Places that stay -/

/-- Whether the schema has a table at `id`, with columns at the given places. -/
def Schema.HasColumns (s : Schema) (id : TableId) (columns : List Nat) : Prop :=
  ∃ t, s.tables[id]? = some t ∧ ∀ i ∈ columns, i < t.columns.length

variable {s s' : Schema} {kind : StatementKind} {statement : Statement}

/-- A change keeps every table at its place; at most it gets more rows. -/
theorem Change.table_kept (h : Change s kind statement s')
    (hids : ∀ (i : Nat) (t : Table), s.tables[i]? = some t → t.id = i)
    {id : TableId} {t : Table} (ht : s.tables[id]? = some t) :
    ∃ more, s'.tables[id]? = some { t with rows := t.rows ++ more } := by
  cases h with
  | @table _ d _ _ _ =>
    refine ⟨[], ?_⟩
    rw [tables_withDraft, List.getElem?_append_left (List.getElem?_eq_some_iff.1 ht).1, ht,
      List.append_nil]
  | sequence | index | blank => exact ⟨[], by simpa using ht⟩
  | @seedRow _ u u' values hu hrow =>
    obtain ⟨-, rfl⟩ := Table.addRow_ok hrow
    obtain ⟨j, hj⟩ := List.mem_iff_getElem?.1 hu
    -- The row goes to the table at the place `u.id`, which is `u`: every table knows its place.
    by_cases hid : u.id = id
    · obtain rfl : u = t := by
        rw [← hids j u hj] at hj
        simpa [hid, ht] using hj.symm
      exact ⟨_, by simp [Schema.modifyTable, hid, ht]; rfl⟩
    · exact ⟨[], by simpa [Schema.modifyTable, List.getElem?_modify, hid] using ht⟩

/-- No change takes away a table or a column. -/
theorem Schema.HasColumns.change {id : TableId} {columns : List Nat}
    (hcolumns : s.HasColumns id columns) (h : Change s kind statement s')
    (hids : ∀ (i : Nat) (t : Table), s.tables[i]? = some t → t.id = i) :
    s'.HasColumns id columns := by
  obtain ⟨t, ht, hlt⟩ := hcolumns
  obtain ⟨more, ht'⟩ := h.table_kept hids ht
  exact ⟨_, ht', hlt⟩

end SqlCatalog
