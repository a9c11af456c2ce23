import SqlCatalog.Proofs.Catalog.Coherent

/-!
# Schemas only grow

Queries, references and users hold the places of objects while more is compiled. An accepted
statement adds one object at the end of a list or one row to a table, so that whatever is compiled,
accepted or refused, the objects of a schema stay at their places. A table can get more rows, and a
sequence more users, which are columns of tables that come later.

## Main definitions

* `Schema.Addition` is what one accepted statement can make of a schema.
* `Schema.Grows` says that a schema is another one with more in it.

## Main statements

* `addition_of_change`: a change is an addition.
* `Schema.Addition.grows`, `Schema.Grows.trans`: additions, one after the other, make a schema grow.
* `grows_of_reachable`: every statement adds one thing at most, and every run makes a schema grow.
-/

namespace SqlCatalog

namespace Schema

/-! ## One statement -/

/-- The schema with more users of its sequences, by the places of these. -/
def withUsers (s : Schema) (users : SequenceId → List (TableId × Nat)) : Schema :=
  { s with sequences := s.sequences.mapIdx fun id q => { q with users := q.users ++ users id } }

/-- The schema with one more row in the table at `id`. -/
def withRow (s : Schema) (id : TableId) (row : SeedRow) : Schema :=
  s.modifyTable id fun t => { t with rows := t.rows ++ [row] }

/-- What an accepted statement makes of a schema: nothing is added, or one thing. Only a table comes
with something else, the uses that its own columns make of sequences. -/
inductive Addition (s : Schema) : Schema → Prop
  | nothing : Addition s s
  | table {t : Table} {users : SequenceId → List (TableId × Nat)} (hplace : t.id = s.tables.length)
      (husers : ∀ id, ∀ user ∈ users id, user.1 = t.id) :
      Addition s { s.withUsers users with tables := s.tables ++ [t] }
  | sequence (q : Sequence) : Addition s { s with sequences := s.sequences ++ [q] }
  | index (i : Index) : Addition s { s with indexes := s.indexes ++ [i] }
  | row (id : TableId) (row : SeedRow) : Addition s (s.withRow id row)

/-! ## Any number of statements -/

/-- The second schema has everything that the first one has, at the same place. A table can have
more rows. A sequence can have more users, which belong to tables that the first schema does not
have. -/
structure Grows (s s' : Schema) : Prop where
  source : s'.source = s.source
  dialect : s'.dialect = s.dialect
  tables : ∀ (id : TableId) (t : Table), s.tables[id]? = some t →
    ∃ more, s'.tables[id]? = some { t with rows := t.rows ++ more }
  sequences : ∀ (id : SequenceId) (q : Sequence), s.sequences[id]? = some q →
    ∃ more, s'.sequences[id]? = some { q with users := q.users ++ more } ∧
      ∀ user ∈ more, s.tables.length ≤ user.1 ∧ user.1 < s'.tables.length
  indexes : s.indexes <+: s'.indexes

variable {s s' s'' : Schema}

namespace Grows

theorem refl (s : Schema) : s.Grows s where
  source := rfl
  dialect := rfl
  tables _ t ht := ⟨[], by simpa using ht⟩
  sequences _ q hq := ⟨[], by simpa using hq, by simp⟩
  indexes := List.prefix_refl _

/-- A schema that grows loses no table. -/
theorem length_tables_le (h : s.Grows s') : s.tables.length ≤ s'.tables.length := by
  refine Nat.le_of_not_lt fun hlt => ?_
  obtain ⟨more, hmore⟩ := h.tables s'.tables.length _ (List.getElem?_eq_getElem hlt)
  simp at hmore

theorem trans (h : s.Grows s') (h' : s'.Grows s'') : s.Grows s'' where
  source := h'.source.trans h.source
  dialect := h'.dialect.trans h.dialect
  tables id t ht := by
    obtain ⟨more, hmore⟩ := h.tables id t ht
    obtain ⟨more', hmore'⟩ := h'.tables id _ hmore
    exact ⟨more ++ more', by rw [hmore', List.append_assoc]⟩
  sequences id q hq := by
    obtain ⟨more, hmore, husers⟩ := h.sequences id q hq
    obtain ⟨more', hmore', husers'⟩ := h'.sequences id _ hmore
    refine ⟨more ++ more', by rw [hmore', List.append_assoc], fun user huser => ?_⟩
    -- The tables between the two schemas are new for the first one as well.
    rcases List.mem_append.1 huser with huser | huser
    · obtain ⟨hold, hnew⟩ := husers user huser
      exact ⟨hold, Nat.lt_of_lt_of_le hnew h'.length_tables_le⟩
    · obtain ⟨hold, hnew⟩ := husers' user huser
      exact ⟨Nat.le_trans h.length_tables_le hold, hnew⟩
  indexes := h.indexes.trans h'.indexes

end Grows

/-- Whatever is added, a schema keeps what it has. -/
theorem Addition.grows (h : s.Addition s') : s.Grows s' := by
  cases h with
  | nothing => exact .refl s
  | @table t users hplace husers =>
    refine ⟨rfl, rfl, fun id u hu => ⟨[], ?_⟩, fun id q hq => ⟨users id, ?_, ?_⟩,
      List.prefix_refl _⟩
    · simp [List.getElem?_append_left (List.getElem?_eq_some_iff.1 hu).1, hu]
    · simp [withUsers, hq]
    · intro user huser
      rw [husers id user huser, hplace, List.length_append]
      exact ⟨Nat.le_refl _, Nat.lt_succ_self _⟩
  | sequence q =>
    refine ⟨rfl, rfl, (Grows.refl s).tables, fun id r hr => ⟨[], ?_, by simp⟩, List.prefix_refl _⟩
    simp [List.getElem?_append_left (List.getElem?_eq_some_iff.1 hr).1, hr]
  | index i => exact ⟨rfl, rfl, (Grows.refl s).tables, (Grows.refl s).sequences, ⟨[i], rfl⟩⟩
  | row id row =>
    refine ⟨rfl, rfl, fun j t ht => ⟨if id = j then [row] else [], ?_⟩,
      fun j q hq => ⟨[], by simpa [withRow, modifyTable] using hq, by simp⟩, List.prefix_refl _⟩
    by_cases hid : id = j
    · simp [withRow, modifyTable, hid, ht]
    · simp [withRow, modifyTable, hid, ht]

end Schema

/-! ## Changes -/

section Changes

variable {s s' : Schema} {kind : StatementKind} {statement : Statement}

/-- A table comes with the uses of sequences that were noted in its draft. -/
theorem withDraft_eq_withUsers (s : Schema) (d : Draft) :
    s.withDraft d = { s.withUsers d.usersOf with tables := s.tables ++ [d.table] } := by
  have hsequences : (s.withDraft d).sequences = (s.withUsers d.usersOf).sequences := by
    apply List.ext_getElem?
    intro id
    rw [sequences_withDraft, Schema.withUsers, List.getElem?_mapIdx]
  ext1
  · exact source_withDraft s d
  · exact dialect_withDraft s d
  · exact tables_withDraft s d
  · exact indexes_withDraft s d
  · exact hsequences

/-- A change adds one thing at most. -/
theorem addition_of_change (hs : s.Coherent) (h : Change s kind statement s') :
    s.Addition s' := by
  cases h with
  | @table _ d _ hplace _ =>
    rw [withDraft_eq_withUsers]
    refine .table hplace fun id user huser => ?_
    obtain ⟨noted, -, rfl⟩ := List.mem_map.1 huser
    rfl
  | sequence => exact .sequence _
  | index => exact .index _
  | @seedRow _ t t' values ht hrow =>
    obtain ⟨-, rfl⟩ := Table.addRow_ok hrow
    have hsame : (s.modifyTable t.id fun _ =>
        { t with rows := t.rows ++ [(t.columns.map Column.name).zip values] }) =
          s.withRow t.id ((t.columns.map Column.name).zip values) := by
      -- The table at the place `t.id` is `t`, so that its rows are those that get one more.
      refine congrArg (fun tables => { s with tables }) (List.ext_getElem? fun j => ?_)
      by_cases hid : t.id = j
      · simp [← hid, hs.getElem?_id ht]
      · simp [hid]
    rw [hsame]
    exact .row _ _
  | blank => exact .nothing

/-- However many parts are compiled, the schema grows, those that are refused included. -/
theorem grows_compileParts (hs : s.Coherent) (ps : List (StatementKind × Statement)) :
    s.Grows (s.compileParts ps) := by
  induction ps generalizing s with
  | nil => exact .refl s
  | cons p ps ih =>
    rw [Schema.compileParts, List.foldl_cons, ← Schema.compileParts, Schema.compilePart]
    rcases compilePart_cases (s := s) p with ⟨e, hp⟩ | ⟨s', hp, hchange⟩ <;> rw [hp]
    · exact ih hs
    · exact (addition_of_change hs hchange).grows.trans (ih (hs.change hchange))

/-- An accepted statement of any kind is a change of that kind. -/
theorem change_of_into_compile (h : (kind.compile statement).into s = (.ok ⟨⟩, s')) :
    Change s kind statement s' :=
  (yields_compile (s := s) kind).of_ok h

/-- An accepted statement makes one of the changes that there are. -/
theorem change_of_into_compileStatement
    (h : (compileStatement statement).into s = (.ok ⟨⟩, s')) :
    ∃ kind, Change s kind statement s' := by
  rw [into_compileStatement] at h
  cases hkind : StatementKind.of statement with
  | error e =>
    rw [hkind] at h
    cases h
  | ok kind =>
    rw [hkind] at h
    exact ⟨kind, change_of_into_compile h⟩

end Changes

/-! ## Runs -/

/-- In a reachable schema, every further run, whether its statements are accepted or refused, leaves
the objects at their places, with more rows and users at most; and every accepted statement adds one
table with the uses that it makes of sequences, one sequence, one index, one row, or nothing. -/
theorem grows_of_reachable {s : Schema} (h : Reachable s) :
    (∀ cs, s.Grows (s.submitAll cs)) ∧
      ∀ statement s',
        (∀ kind : StatementKind, (kind.compile statement).into s = (.ok ⟨⟩, s') →
          s.Addition s') ∧
        ((compileStatement statement).into s = (.ok ⟨⟩, s') → s.Addition s') := by
  have hs := coherent_of_reachable h
  refine ⟨fun cs => ?_, fun statement s' => ⟨fun kind hinto => ?_, fun hinto => ?_⟩⟩
  · rw [submitAll_eq_compileParts]
    exact grows_compileParts hs _
  · exact addition_of_change hs (change_of_into_compile hinto)
  · obtain ⟨kind, hchange⟩ := change_of_into_compileStatement hinto
    exact addition_of_change hs hchange

/-- The schema of a source with a sequence and a table. -/
def smallShop : Schema :=
  (Schema.empty "" .standard).submit (.source "create sequence s; create table a (x integer)")

/-- A source that adds a row, adds a table that uses the sequence, and is then refused. -/
def laterShop : Submission :=
  .source "insert into a values (1); create table b (y integer default nextval('s')); drop"

/-- The table gets its row and the sequence its user, and both stay where they are; a statement that
creates another sequence adds just this. -/
theorem grows_smallShop :
    (∃ t more, smallShop.tables[0]? = some t ∧
      (smallShop.submitAll [laterShop]).tables[0]? = some { t with rows := t.rows ++ more }) ∧
    (∃ users, (smallShop.submitAll [laterShop]).sequences[0]? = some ⟨0, "s", users⟩ ∧
      users = [(1, 0)]) ∧
    ∃ s', (compileStatement [.keyword "CREATE", .keyword "SEQUENCE", .name "r"]).into smallShop =
      (.ok ⟨⟩, s') ∧ smallShop.Addition s' := by
  have hreachable : Reachable smallShop := (Reachable.empty "" .standard).submit _
  obtain ⟨hgrows, hadds⟩ := grows_of_reachable hreachable
  obtain ⟨hlength, hsequence, husers⟩ : 0 < smallShop.tables.length ∧
      smallShop.sequences[0]? = some ⟨0, "s", []⟩ ∧
        (smallShop.submitAll [laterShop]).sequences[0]? = some ⟨0, "s", [(1, 0)]⟩ := by
    decide +kernel
  refine ⟨⟨smallShop.tables[0], ?_⟩, ?_, ?_⟩
  · obtain ⟨more, hmore⟩ := (hgrows [laterShop]).tables 0 _ (List.getElem?_eq_getElem hlength)
    exact ⟨more, List.getElem?_eq_getElem hlength, hmore⟩
  · obtain ⟨more, hmore, -⟩ := (hgrows [laterShop]).sequences 0 _ hsequence
    have hsame := Option.some.inj (hmore.symm.trans husers)
    exact ⟨more, hmore, congrArg Sequence.users hsame⟩
  · have hok : ((compileStatement [.keyword "CREATE", .keyword "SEQUENCE", .name "r"]).into
        smallShop).1.isOk = true := by decide +kernel
    rcases hinto : (compileStatement [.keyword "CREATE", .keyword "SEQUENCE", .name "r"]).into
        smallShop with ⟨e | ⟨⟩, s'⟩
    · rw [hinto] at hok
      cases hok
    · exact ⟨s', rfl, (hadds _ s').2 hinto⟩

end SqlCatalog
