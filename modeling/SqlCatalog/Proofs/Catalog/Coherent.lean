import SqlCatalog.Proofs.Catalog.Growth
import SqlCatalog.Proofs.Catalog.Reachable
import SqlCatalog.Proofs.Definition.Drafts

/-!
# Coherent schemas

Tables, sequences and columns are referred to by places. In a coherent schema every place leads
somewhere, and every object knows its own. A table gets its place before it is read and refers to
it while it is read, so a draft is coherent relative to the schema that it will be added to.

## Main definitions

* `Table.Coherent`, `Schema.Coherent` and `Draft.Coherent`.

## Main statements

* `Draft.Coherent.step`: reading a part of a body keeps a draft coherent.
* `Schema.Coherent.change`: every change keeps a schema coherent.
* `coherent_of_reachable`: every reachable schema is coherent.
-/

namespace SqlCatalog

/-! ## Tables -/

/-- What a table says about its own columns is about columns that it has. -/
structure Table.Coherent (t : Table) : Prop where
  columns : ∀ (i : Nat) (c : Column), t.columns[i]? = some c → c.table = t.id ∧ c.position = i
  primaryKey : ∀ is ∈ t.primaryKey, ∀ i ∈ is, i < t.columns.length
  constraints : ∀ c ∈ t.constraints, ∀ i ∈ c.affected, i < t.columns.length
  /-- A seed row gives values to the first columns. -/
  rows : ∀ r ∈ t.rows, ∃ k ≤ t.columns.length,
    r.map Prod.fst = (t.columns.map Column.name).take k

namespace Table

variable {t t' : Table}

theorem names_modifyColumn (i : Nat) {f : Column → Column} (hf : ∀ c, (f c).name = c.name) :
    (t.modifyColumn i f).columns.map Column.name = t.columns.map Column.name := by
  apply List.ext_getElem?
  intro j
  by_cases hij : i = j
  · simp [modifyColumn, hij, hf, Function.comp_def]
  · simp [modifyColumn, hij]

@[simp] theorem length_modifyColumn (i : Nat) (f : Column → Column) :
    (t.modifyColumn i f).columns.length = t.columns.length := by
  simp [modifyColumn]

/-- A column of a changed table is a column of the table, changed if it is at the place. -/
theorem getElem?_modifyColumn {i j : Nat} {f : Column → Column} {c : Column}
    (h : (t.modifyColumn i f).columns[j]? = some c) :
    ∃ b, t.columns[j]? = some b ∧ (c = b ∨ i = j ∧ c = f b) := by
  rw [modifyColumn, List.getElem?_modify] at h
  obtain ⟨b, hb, rfl⟩ := Option.map_eq_some_iff.1 h
  refine ⟨b, hb, ?_⟩
  by_cases hij : i = j
  · exact .inr ⟨hij, if_pos hij⟩
  · exact .inl (if_neg hij)

theorem mem_modifyColumn {i : Nat} {f : Column → Column} {c : Column}
    (h : c ∈ (t.modifyColumn i f).columns) : ∃ b ∈ t.columns, c = b ∨ c = f b :=
  mem_modify h

/-- Columns of one place are one. -/
theorem Coherent.column_eq (h : t.Coherent) {c d : Column} (hc : c ∈ t.columns)
    (hd : d ∈ t.columns) (hposition : c.position = d.position) : c = d := by
  obtain ⟨i, hi⟩ := List.mem_iff_getElem?.1 hc
  obtain ⟨j, hj⟩ := List.mem_iff_getElem?.1 hd
  rw [(h.columns i c hi).2, (h.columns j d hj).2] at hposition
  rw [hposition, hj] at hi
  exact (Option.some.inj hi).symm

theorem coherent_empty (id : TableId) (name comment : String) :
    Coherent { empty id name with comment := comment } := by
  constructor <;> simp [empty]

/-- A change of a column that keeps its name and its place keeps a table coherent. -/
theorem Coherent.modifyColumn (h : t.Coherent) (i : Nat) {f : Column → Column}
    (hf : ∀ c, (f c).table = c.table ∧ (f c).position = c.position ∧ (f c).name = c.name) :
    (t.modifyColumn i f).Coherent where
  columns := by
    intro j c hc
    obtain ⟨b, hb, rfl | ⟨-, rfl⟩⟩ := getElem?_modifyColumn hc
    · exact h.columns j c hb
    · rw [(hf b).1, (hf b).2.1]
      exact h.columns j b hb
  primaryKey := by
    rw [length_modifyColumn]
    exact h.primaryKey
  constraints := by
    rw [length_modifyColumn]
    exact h.constraints
  rows := by
    rw [length_modifyColumn, names_modifyColumn i fun c => (hf c).2.2]
    exact h.rows

/-- A column is added at the next place, so the table stays coherent. -/
theorem Coherent.addColumn (h : t.Coherent) {name : String} {type : ColumnType}
    (hadd : t.addColumn name type = .ok t') : t'.Coherent := by
  obtain ⟨-, rfl⟩ := addColumn_ok hadd
  have more {i : Nat} (hi : i < t.columns.length) (c : Column) :
      i < (t.columns ++ [c]).length := by
    rw [List.length_append]
    exact Nat.lt_add_right _ hi
  refine ⟨fun i c hc => ?_, fun is his i hi => more (h.primaryKey is his i hi) _,
    fun c hc i hi => more (h.constraints c hc i hi) _, fun r hr => ?_⟩
  · rcases getElem?_concat_cases hc with hc | ⟨rfl, rfl⟩
    · exact h.columns i c hc
    · exact ⟨rfl, rfl⟩
  · obtain ⟨k, hk, hkeys⟩ := h.rows r hr
    refine ⟨k, by simp; omega, ?_⟩
    rw [hkeys, List.map_append, List.take_append_of_le_length (by simpa using hk)]

theorem Coherent.addConstraint (h : t.Coherent) {c : Constraint}
    (hc : ∀ i ∈ c.affected, i < t.columns.length) : (t.addConstraint c).Coherent :=
  { h with
    constraints := by
      intro b hb
      rcases mem_concat.1 hb with hb | rfl
      · exact h.constraints b hb
      · exact hc }

theorem Coherent.setPrimaryKey (h : t.Coherent) {columns : List Nat}
    (hcolumns : ∀ i ∈ columns, i < t.columns.length) :
    Coherent { t with primaryKey := some columns } :=
  { h with
    primaryKey := by
      intro is his
      rw [Option.mem_some_iff] at his
      exact his ▸ hcolumns }

/-- A row that is added has values under names of columns only. -/
theorem Coherent.addRow (h : t.Coherent) {values : List Value} (hadd : t.addRow values = .ok t') :
    t'.Coherent := by
  obtain ⟨hfits, rfl⟩ := addRow_ok hadd
  refine { h with rows := ?_ }
  intro r hr
  rcases mem_concat.1 hr with hr | rfl
  · exact h.rows r hr
  · refine ⟨values.length, hfits, ?_⟩
    rw [List.zip_eq_zip_take_min, List.map_fst_zip (by simp), List.length_map,
      Nat.min_eq_right hfits]

end Table

/-! ## Schemas -/

/-- Every place that the schema mentions leads somewhere, and every object knows its own. -/
structure Schema.Coherent (s : Schema) : Prop where
  tableIds : ∀ (i : Nat) (t : Table), s.tables[i]? = some t → t.id = i
  sequenceIds : ∀ (i : Nat) (q : Sequence), s.sequences[i]? = some q → q.id = i
  tables : ∀ t ∈ s.tables, t.Coherent
  /-- A column refers to its own table or to an earlier one. -/
  references : ∀ t ∈ s.tables, ∀ c ∈ t.columns, ∀ id ∈ c.references,
    id ≤ t.id ∧ id < s.tables.length
  defaults : ∀ t ∈ s.tables, ∀ c ∈ t.columns, ∀ id, c.default = some (.sequence id) →
    id < s.sequences.length
  users : ∀ q ∈ s.sequences, ∀ user ∈ q.users, s.HasColumns user.1 [user.2]
  indexes : ∀ i ∈ s.indexes, s.HasColumns i.table i.columns

/-- A draft for the next place of the schema, all of whose places lead somewhere. -/
structure Draft.Coherent (s : Schema) (d : Draft) : Prop where
  place : d.table.id = s.tables.length
  table : d.table.Coherent
  references : ∀ c ∈ d.table.columns, ∀ id ∈ c.references, id ≤ d.table.id
  defaults : ∀ c ∈ d.table.columns, ∀ id, c.default = some (.sequence id) →
    id < s.sequences.length
  users : ∀ user ∈ d.users, user.2 < d.table.columns.length

variable {s s' : Schema} {d d' : Draft} {ds : DefaultLog}

namespace Schema.Coherent

theorem empty (source : String) (dialect : Dialect) : (Schema.empty source dialect).Coherent := by
  constructor <;> simp [Schema.empty]

theorem id_lt (h : s.Coherent) {t : Table} (ht : t ∈ s.tables) : t.id < s.tables.length := by
  obtain ⟨i, hi⟩ := List.mem_iff_getElem?.1 ht
  rw [h.tableIds i t hi]
  exact (List.getElem?_eq_some_iff.1 hi).1

/-- A table stands at the place that its `id` gives. -/
theorem getElem?_id (h : s.Coherent) {t : Table} (ht : t ∈ s.tables) :
    s.tables[t.id]? = some t := by
  obtain ⟨i, hi⟩ := List.mem_iff_getElem?.1 ht
  rwa [h.tableIds i t hi]

/-- Tables of one place are one. -/
theorem table_eq (h : s.Coherent) {t u : Table} (ht : t ∈ s.tables) (hu : u ∈ s.tables)
    (hid : t.id = u.id) : t = u := by
  have hget := h.getElem?_id ht
  rw [hid, h.getElem?_id hu] at hget
  exact (Option.some.inj hget).symm

theorem sequence_id_lt (h : s.Coherent) {q : Sequence} (hq : q ∈ s.sequences) :
    q.id < s.sequences.length := by
  obtain ⟨i, hi⟩ := List.mem_iff_getElem?.1 hq
  rw [h.sequenceIds i q hi]
  exact (List.getElem?_eq_some_iff.1 hi).1

end Schema.Coherent

/-! ## Drafts -/

/-- A default that takes numbers from a sequence takes them from one of the schema. -/
theorem mem_sequences_of_readDefaultValue {t : Token} {id : SequenceId}
    (h : readDefaultValue s t = .ok (.sequence id)) : ∃ q ∈ s.sequences, q.id = id := by
  unfold readDefaultValue at h
  split at h
  · obtain ⟨⟨name, arguments⟩, -, h⟩ := bind_eq_ok.1 h
    dsimp only at h
    split at h
    · obtain ⟨sequence, -, h⟩ := bind_eq_ok.1 h
      obtain ⟨q, hq, h⟩ := bind_eq_ok.1 h
      refine ⟨q, (Schema.sequenceNamed_ok (fromCatalog_eq_ok.1 hq)).1, ?_⟩
      simpa [pure, Except.pure] using h
    · simp [pure, Except.pure] at h
  · split at h
    · simp at h
    · obtain ⟨value, -, h⟩ := map_eq_ok.1 h
      cases h

/-- A table that a reference finds is declared already, or the one that is being defined. -/
theorem id_le_of_findTable (hs : s.Coherent) (h : d.Coherent s) {name : String} {target : Table}
    (hfind : d.findTable s name = .ok target) : target.id ≤ d.table.id := by
  unfold Draft.findTable at hfind
  split at hfind
  · obtain rfl : d.table = target := by simpa using hfind
    exact Nat.le_refl _
  · have hmem := (Schema.tableNamed_ok (fromCatalog_eq_ok.1 hfind)).1
    rw [h.place]
    exact Nat.le_of_lt (hs.id_lt hmem)

namespace Draft.Coherent

/-- The draft with which a definition begins is coherent. -/
theorem initial (s : Schema) (name comment : String) :
    (Draft.initial s name comment).Coherent s where
  place := rfl
  table := Table.coherent_empty _ _ _
  references := by simp [Draft.initial, Table.empty]
  defaults := by simp [Draft.initial, Table.empty]
  users := by simp [Draft.initial]

/-- A changed column may keep what it refers to or refer to something else that is there. -/
theorem modifyColumn (h : d.Coherent s) {i : Nat} {f : Column → Column}
    (htable : d'.table = d.table.modifyColumn i f)
    (husers : ∀ user ∈ d'.users, user.2 < d.table.columns.length)
    (hf : ∀ c, (f c).table = c.table ∧ (f c).position = c.position ∧ (f c).name = c.name)
    (hreferences : ∀ c, ∀ id ∈ (f c).references, id ∈ c.references ∨ id ≤ d.table.id)
    (hdefaults : ∀ c id, (f c).default = some (.sequence id) →
      c.default = some (.sequence id) ∨ id < s.sequences.length) : d'.Coherent s := by
  constructor <;> rw [htable]
  · exact h.place
  · exact h.table.modifyColumn i hf
  · intro c hc id hid
    obtain ⟨b, hb, rfl | rfl⟩ := Table.mem_modifyColumn hc
    · exact h.references c hb id hid
    · exact (hreferences b id hid).elim (h.references b hb id) fun hle => hle
  · intro c hc id hid
    obtain ⟨b, hb, rfl | rfl⟩ := Table.mem_modifyColumn hc
    · exact h.defaults c hb id hid
    · exact (hdefaults b id hid).elim (h.defaults b hb id) fun hlt => hlt
  · rw [Table.length_modifyColumn]
    exact husers

/-- Reading a part of a body keeps a draft coherent. -/
theorem step (h : d.Coherent s) (hs : s.Coherent) (hstep : DraftStep s d ds d') :
    d'.Coherent s := by
  cases hstep with
  | skip => exact h
  | column hadd =>
    have htable := h.table.addColumn hadd
    obtain ⟨-, rfl⟩ := Table.addColumn_ok hadd
    refine ⟨h.place, htable, fun c hc => ?_, fun c hc => ?_, fun user huser => ?_⟩
    · rcases mem_concat.1 hc with hc | rfl
      · exact h.references c hc
      · simp
    · rcases mem_concat.1 hc with hc | rfl
      · exact h.defaults c hc
      · simp
    · rw [Draft.withTable, List.length_append]
      exact Nat.lt_add_right _ (h.users user huser)
  | primaryKey _ hcolumns => exact { h with table := h.table.setPrimaryKey hcolumns }
  | constraint hcolumns => exact { h with table := h.table.addConstraint hcolumns }
  | @default t i value hread hi =>
    refine h.modifyColumn rfl (fun user huser => ?_) (fun c => ⟨rfl, rfl, rfl⟩)
      (fun c id hid => .inl hid) fun c id hid => ?_
    · rcases List.mem_append.1 huser with huser | huser
      · exact h.users user huser
      · split at huser
        · rwa [List.mem_singleton.1 huser]
        · cases huser
    · obtain rfl : value = .sequence id := Option.some.inj hid
      obtain ⟨q, hq, rfl⟩ := mem_sequences_of_readDefaultValue hread
      exact .inr (hs.sequence_id_lt hq)
  | reference i notices hfind =>
    refine h.modifyColumn rfl h.users (fun c => ⟨rfl, rfl, rfl⟩) (fun c id hid => ?_)
      fun c id hid => .inl hid
    obtain rfl : _ = id := Option.some.inj hid
    exact .inr (id_le_of_findTable hs h hfind)
  | onDelete i action =>
    exact h.modifyColumn rfl h.users (fun c => ⟨rfl, rfl, rfl⟩) (fun c id hid => .inl hid)
      fun c id hid => .inl hid

/-- A coherent draft stays so in a run of steps. -/
theorem run (h : d.Coherent s) (hs : s.Coherent) (hrun : DraftRun s d ds d') : d'.Coherent s := by
  induction hrun with
  | nil d => exact h
  | cons hstep _ ih => exact ih (h.step hs hstep)

/-- The draft of a definition is coherent, even where reading it stopped at an error. -/
theorem readTable {statement : Statement} {stopped : Option CompileError} (hs : s.Coherent)
    (h : s.readTable statement = .ok (d, stopped)) : d.Coherent s := by
  obtain ⟨name, comment, hrun⟩ := draftRun_of_readTable h
  exact (initial s name comment).run hs hrun

end Draft.Coherent

/-! ## Changes -/

namespace Schema.Coherent

/-- A coherent draft can be put into a coherent schema. -/
theorem withDraft (h : s.Coherent) (hd : d.Coherent s)
    (columns : ∀ {id is}, s.HasColumns id is → (s.withDraft d).HasColumns id is) :
    (s.withDraft d).Coherent := by
  have hnew : (s.withDraft d).tables[d.table.id]? = some d.table := by simp [hd.place]
  constructor
  · intro i t ht
    rw [tables_withDraft] at ht
    rcases getElem?_concat_cases ht with ht | ⟨rfl, rfl⟩
    · exact h.tableIds i t ht
    · exact hd.place
  · intro i q hq
    rw [sequences_withDraft] at hq
    obtain ⟨p, hp, rfl⟩ := Option.map_eq_some_iff.1 hq
    exact h.sequenceIds i p hp
  · intro t ht
    rw [tables_withDraft] at ht
    rcases mem_concat.1 ht with ht | rfl
    · exact h.tables t ht
    · exact hd.table
  · intro t ht c hc id hid
    rw [tables_withDraft] at ht ⊢
    rw [List.length_append, List.length_singleton]
    rcases mem_concat.1 ht with ht | rfl
    · obtain ⟨hle, hlt⟩ := h.references t ht c hc id hid
      exact ⟨hle, Nat.lt_succ_of_lt hlt⟩
    · have hle := hd.references c hc id hid
      exact ⟨hle, Nat.lt_succ_of_le (hd.place ▸ hle)⟩
  · intro t ht c hc id hid
    rw [length_sequences_withDraft]
    rw [tables_withDraft] at ht
    rcases mem_concat.1 ht with ht | rfl
    · exact h.defaults t ht c hc id hid
    · exact hd.defaults c hc id hid
  · intro q hq user huser
    obtain ⟨i, hi⟩ := List.mem_iff_getElem?.1 hq
    rw [sequences_withDraft] at hi
    obtain ⟨p, hp, rfl⟩ := Option.map_eq_some_iff.1 hi
    rcases List.mem_append.1 huser with huser | huser
    · exact columns (h.users p (List.mem_of_getElem? hp) user huser)
    · obtain ⟨own, hown, rfl⟩ := List.mem_map.1 huser
      refine ⟨d.table, hnew, fun j hj => ?_⟩
      rw [List.mem_singleton.1 hj]
      exact hd.users own (List.mem_filter.1 hown).1
  · intro i hi
    rw [indexes_withDraft] at hi
    exact columns (h.indexes i hi)

theorem addSequence (h : s.Coherent) (name : String) :
    Coherent { s with sequences := s.sequences ++ [⟨s.sequences.length, name, []⟩] } := by
  refine { h with sequenceIds := ?_, defaults := ?_, users := ?_ }
  · intro i q hq
    rcases getElem?_concat_cases hq with hq | ⟨rfl, rfl⟩
    · exact h.sequenceIds i q hq
    · rfl
  · intro t ht c hc id hid
    rw [List.length_append]
    exact Nat.lt_add_right _ (h.defaults t ht c hc id hid)
  · intro q hq user huser
    rcases mem_concat.1 hq with hq | rfl
    · exact h.users q hq user huser
    · cases huser

theorem addIndex (h : s.Coherent) {i : Index} (hi : s.HasColumns i.table i.columns) :
    Coherent { s with indexes := s.indexes ++ [i] } := by
  refine { h with indexes := ?_ }
  intro j hj
  rcases mem_concat.1 hj with hj | rfl
  · exact h.indexes j hj
  · exact hi

/-- A row that its table takes keeps a schema coherent. -/
theorem addRow (h : s.Coherent) {t t' : Table} {values : List Value} (ht : t ∈ s.tables)
    (hrow : t.addRow values = .ok t')
    (columns : ∀ {id is}, s.HasColumns id is → (s.modifyTable t.id fun _ => t').HasColumns id is) :
    (s.modifyTable t.id fun _ => t').Coherent := by
  have hlength : (s.modifyTable t.id fun _ => t').tables.length = s.tables.length := by
    simp [modifyTable]
  -- A table of the changed schema is one of the old ones, but for its rows.
  have old {i : Nat} {u : Table} (hu : (s.modifyTable t.id fun _ => t').tables[i]? = some u) :
      ∃ v, s.tables[i]? = some v ∧ u.id = v.id ∧ u.columns = v.columns ∧ u.Coherent := by
    rw [modifyTable, List.getElem?_modify] at hu
    obtain ⟨v, hv, rfl⟩ := Option.map_eq_some_iff.1 hu
    have hcoherent := h.tables v (List.mem_of_getElem? hv)
    by_cases hi : t.id = i
    · obtain rfl : t = v := by
        rw [← hi, h.getElem?_id ht] at hv
        exact Option.some.inj hv
      rw [if_pos hi]
      refine ⟨t, hv, ?_, ?_, hcoherent.addRow hrow⟩ <;>
        rw [(Table.addRow_ok hrow).2]
    · rw [if_neg hi]
      exact ⟨v, hv, rfl, rfl, hcoherent⟩
  have oldMem {u : Table} (hu : u ∈ (s.modifyTable t.id fun _ => t').tables) :
      ∃ v ∈ s.tables, u.id = v.id ∧ u.columns = v.columns ∧ u.Coherent := by
    obtain ⟨i, hi⟩ := List.mem_iff_getElem?.1 hu
    obtain ⟨v, hv, huv⟩ := old hi
    exact ⟨v, List.mem_of_getElem? hv, huv⟩
  refine ⟨fun i u hu => ?_, h.sequenceIds, fun u hu => ?_, fun u hu c hc id hid => ?_,
    fun u hu c hc id hid => ?_, fun q hq user huser => columns (h.users q hq user huser),
    fun i hi => columns (h.indexes i hi)⟩
  · obtain ⟨v, hv, hid, -⟩ := old hu
    rw [hid]
    exact h.tableIds i v hv
  · obtain ⟨v, -, -, -, hcoherent⟩ := oldMem hu
    exact hcoherent
  · obtain ⟨v, hv, hidv, hcolumns, -⟩ := oldMem hu
    rw [hidv, hlength]
    exact h.references v hv c (hcolumns ▸ hc) id hid
  · obtain ⟨v, hv, -, hcolumns, -⟩ := oldMem hu
    exact h.defaults v hv c (hcolumns ▸ hc) id hid

/-- Every change keeps a schema coherent. -/
theorem change {kind : StatementKind} {statement : Statement} (h : s.Coherent)
    (hchange : Change s kind statement s') : s'.Coherent := by
  have columns {id : TableId} {columns : List Nat} (hcolumns : s.HasColumns id columns) :
      s'.HasColumns id columns := hcolumns.change hchange h.tableIds
  cases hchange with
  | table hread => exact h.withDraft (Draft.Coherent.readTable h hread) columns
  | sequence => exact h.addSequence _
  | index ht hid hcolumns =>
    exact h.addIndex ⟨_, hid ▸ h.getElem?_id ht, Table.columnIndexes_lt hcolumns⟩
  | seedRow ht hrow => exact h.addRow ht hrow columns
  | blank => exact h

end Schema.Coherent

/-- Every reachable schema is coherent. -/
theorem coherent_of_reachable (h : Reachable s) : s.Coherent :=
  h.of_change Schema.Coherent.empty fun _ _ _ _ hs hchange => hs.change hchange

end SqlCatalog
