import SqlCatalog.Proofs.Catalog.Coherent

/-!
# Users of sequences

Which columns take their default from a sequence is said twice: by the default of each column and
by the users of the sequence. A clause that declares a default replaces what the column had before,
but every clause that names a sequence adds a user for good. So the two agree as long as no such
clause is followed by another default of the same column.

## Main definitions

* `DefaultLog.Settled` says that no default from a sequence is replaced.
* `Schema.UsersExact` says that the users of sequences and the defaults of columns agree.
* `Schema.defaultLogs` are the logs of the table definitions that are accepted in a run.

## Main statements

* `exactAt_iff_settled`: users and last defaults of a log agree exactly if it is settled.
* `usersExact_submitAll_iff`: the users of a schema are exact exactly if all its logs are settled.
-/

namespace SqlCatalog

/-! ## Logs of defaults -/

/-- The sequence of a default that takes numbers from one. -/
def DefaultValue.sequence? : DefaultValue → Option SequenceId
  | sequence id => some id
  | _ => none

theorem bind_sequence?_eq_some {o : Option DefaultValue} {id : SequenceId} :
    o.bind DefaultValue.sequence? = some id ↔ o = some (.sequence id) := by
  rcases o with _ | v
  · simp
  · cases v <;> simp [DefaultValue.sequence?]

namespace DefaultLog

/-- The last default that a column is given. -/
def last (i : Nat) : DefaultLog → Option DefaultValue
  | [] => none
  | d :: ds => (last i ds).or (if d.1 = i then some d.2 else none)

/-- The columns that are given a default from the sequence at `id`, once for each clause. -/
def users (id : SequenceId) : DefaultLog → List Nat
  | [] => []
  | d :: ds => if d.2.sequence? = some id then d.1 :: users id ds else users id ds

/-- No default from a sequence is followed by another default of the same column. -/
def Settled (ds : DefaultLog) : Prop := ds.Pairwise fun a b => a.2.sequence?.isSome → b.1 ≠ a.1

/-- The columns that were given a default from the sequence at `id` are, without repetition, those
whose last default it is. -/
def ExactAt (ds : DefaultLog) (id : SequenceId) : Prop :=
  (users id ds).Nodup ∧ ∀ i, i ∈ users id ds ↔ (last i ds).bind DefaultValue.sequence? = some id

variable {ds es : DefaultLog} {d : Nat × DefaultValue} {i : Nat} {id : SequenceId}

/-- The last default of a column is that of the later clauses, if they give one. -/
theorem last_append (i : Nat) (ds es : DefaultLog) :
    last i (ds ++ es) = (last i es).or (last i ds) := by
  induction ds with
  | nil => simp [last]
  | cons d ds ih => simp [last, ih, Option.or_assoc]

theorem users_append (id : SequenceId) (ds es : DefaultLog) :
    users id (ds ++ es) = users id ds ++ users id es := by
  induction ds with
  | nil => rfl
  | cons d ds ih =>
    by_cases hd : d.2.sequence? = some id <;> simp [users, hd, ih]

/-- A column has no default exactly when no clause gives it one. -/
theorem last_eq_none : last i ds = none ↔ ∀ d ∈ ds, d.1 ≠ i := by
  induction ds with
  | nil => simp [last]
  | cons d ds ih => simp [last, ih, and_comm]

/-- A column uses a sequence exactly when some clause gives it a default from it. -/
theorem mem_users : i ∈ users id ds ↔ ∃ v, (i, v) ∈ ds ∧ v.sequence? = some id := by
  induction ds with
  | nil => simp [users]
  | cons d ds ih =>
    obtain ⟨j, w⟩ := d
    by_cases hw : w.sequence? = some id
    · simp only [users, hw, if_true, List.mem_cons, ih, Prod.mk.injEq]
      constructor
      · rintro (rfl | ⟨v, hv, hid⟩)
        · exact ⟨w, .inl ⟨rfl, rfl⟩, hw⟩
        · exact ⟨v, .inr hv, hid⟩
      · rintro ⟨v, ⟨rfl, rfl⟩ | hv, hid⟩
        · exact .inl rfl
        · exact .inr ⟨v, hv, hid⟩
    · simp only [users, hw, if_false, List.mem_cons, ih, Prod.mk.injEq]
      constructor
      · rintro ⟨v, hv, hid⟩
        exact ⟨v, .inr hv, hid⟩
      · rintro ⟨v, ⟨rfl, rfl⟩ | hv, hid⟩
        · exact absurd hid hw
        · exact ⟨v, hv, hid⟩

theorem mem_of_last {v : DefaultValue} (h : last i ds = some v) : (i, v) ∈ ds := by
  induction ds with
  | nil => cases h
  | cons d ds ih =>
    rw [last, Option.or_eq_some_iff] at h
    rcases h with h | ⟨-, h⟩
    · exact List.mem_cons_of_mem _ (ih h)
    · split at h
      · rename_i hd
        obtain rfl := Option.some.inj h
        rw [← hd]
        exact List.mem_cons_self
      · cases h

/-- The last default of a column, if it is from a sequence, is one of its defaults. -/
theorem mem_users_of_last (h : (last i ds).bind DefaultValue.sequence? = some id) :
    i ∈ users id ds := by
  obtain ⟨v, hv, hid⟩ := Option.bind_eq_some_iff.1 h
  exact mem_users.2 ⟨v, mem_of_last hv, hid⟩

/-- A log is settled when its first default is not followed by another one of its column, or is
from no sequence, and the rest is settled. -/
theorem settled_cons : Settled (d :: ds) ↔
    (d.2.sequence?.isSome → last d.1 ds = none) ∧ Settled ds := by
  rw [Settled, List.pairwise_cons, ← Settled, last_eq_none]
  refine and_congr_left fun _ => ⟨fun h hd b hb => h b hb hd, fun h b hb hd => h hd b hb⟩

theorem last_cons_of_ne (h : d.1 ≠ i) : last i (d :: ds) = last i ds := by
  simp [last, h]

theorem last_cons_self : last d.1 (d :: ds) = (last d.1 ds).or (some d.2) := by
  simp [last]

theorem users_cons_of_eq (h : d.2.sequence? = some id) :
    users id (d :: ds) = d.1 :: users id ds := by
  simp [users, h]

theorem users_cons_of_ne (h : d.2.sequence? ≠ some id) : users id (d :: ds) = users id ds := by
  simp [users, h]

/-- A default in front of a log that is exact keeps it so, unless it is from a sequence and is
replaced. -/
theorem ExactAt.cons (h : ExactAt ds id) (hd : d.2.sequence?.isSome → last d.1 ds = none) :
    ExactAt (d :: ds) id := by
  by_cases hid : d.2.sequence? = some id
  · have hnone : last d.1 ds = none := hd (by rw [hid]; rfl)
    have hmem : d.1 ∉ users id ds := fun hmem => by
      simpa [hnone] using (h.2 d.1).1 hmem
    rw [ExactAt, users_cons_of_eq hid]
    refine ⟨List.nodup_cons.2 ⟨hmem, h.1⟩, fun i => ?_⟩
    by_cases hi : d.1 = i
    · rw [← hi, last_cons_self, hnone]
      simp [hid]
    · rw [last_cons_of_ne hi, ← h.2 i, List.mem_cons]
      exact or_iff_right (Ne.symm hi)
  · rw [ExactAt, users_cons_of_ne hid]
    refine ⟨h.1, fun i => (h.2 i).trans ?_⟩
    by_cases hi : d.1 = i
    · rw [← hi, last_cons_self]
      cases last d.1 ds with
      | none => simp [hid]
      | some v => simp
    · rw [last_cons_of_ne hi]

/-- In an exact log the first default is not replaced if it is from a sequence, and what follows
it is exact. -/
theorem exactAt_of_cons (h : ∀ id, ExactAt (d :: ds) id) :
    (d.2.sequence?.isSome → last d.1 ds = none) ∧ ∀ id, ExactAt ds id := by
  refine ⟨fun hd => ?_, fun id => ⟨?_, fun i => ⟨fun hi => ?_, mem_users_of_last⟩⟩⟩
  · obtain ⟨id, hid⟩ := Option.isSome_iff_exists.1 hd
    obtain ⟨hnodup, hmem⟩ := h id
    rw [users_cons_of_eq hid] at hnodup hmem
    cases hlast : last d.1 ds with
    | none => rfl
    | some v =>
      -- The default is replaced by one from the same sequence, which lists the column again.
      have hsame := (hmem d.1).1 List.mem_cons_self
      rw [last_cons_self, hlast, Option.some_or, ← hlast] at hsame
      exact absurd (mem_users_of_last hsame) (List.nodup_cons.1 hnodup).1
  · by_cases hid : d.2.sequence? = some id
    · have hnodup := (h id).1
      rw [users_cons_of_eq hid] at hnodup
      exact (List.nodup_cons.1 hnodup).2
    · rw [← users_cons_of_ne hid]
      exact (h id).1
  · have hcons : i ∈ users id (d :: ds) := by
      by_cases hid : d.2.sequence? = some id
      · rw [users_cons_of_eq hid]
        exact List.mem_cons_of_mem _ hi
      · rwa [users_cons_of_ne hid]
    have hlast := ((h id).2 i).1 hcons
    by_cases hdi : d.1 = i
    · obtain ⟨v, hv, -⟩ := mem_users.1 hi
      cases hw : last d.1 ds with
      | none => exact absurd hdi.symm (last_eq_none.1 hw _ hv)
      | some w => rwa [← hdi, last_cons_self, hw, Option.some_or, ← hw, hdi] at hlast
    · rwa [last_cons_of_ne hdi] at hlast

/-- A log that never mentions the sequence is exact at it. -/
theorem exactAt_of_forall_notMem (h : ∀ i, i ∉ users id ds) : ExactAt ds id := by
  constructor
  · rw [List.eq_nil_iff_forall_not_mem.2 h]
    exact List.nodup_nil
  · intro i
    constructor
    · intro hi
      exact absurd hi (h i)
    · exact mem_users_of_last

/-- The columns that are given defaults from sequences are those that keep them exactly if no such
default is replaced. -/
theorem exactAt_iff_settled : (∀ id, ExactAt ds id) ↔ Settled ds := by
  induction ds with
  | nil => simp [ExactAt, users, last, Settled]
  | cons d ds ih =>
    rw [settled_cons, ← ih]
    constructor
    · exact exactAt_of_cons
    · rintro ⟨hd, h⟩ id
      exact (h id).cons hd

end DefaultLog

/-! ## Drafts -/

/-- The default of the column at a place. -/
def Table.defaultAt (t : Table) (i : Nat) : Option DefaultValue := t.columns[i]?.bind Column.default

section Drafts

variable {s : Schema} {d d' : Draft} {ds : DefaultLog}

theorem defaultAt_modifyColumn {t : Table} {i j : Nat} {f : Column → Column}
    (hf : ∀ c, (f c).default = c.default) : (t.modifyColumn i f).defaultAt j = t.defaultAt j := by
  rw [Table.defaultAt, Table.modifyColumn, List.getElem?_modify, Table.defaultAt]
  cases t.columns[j]? with
  | none => rfl
  | some c => by_cases hij : i = j <;> simp [hij, hf]

theorem DraftStep.id_eq (h : DraftStep s d ds d') : d'.table.id = d.table.id := by
  cases h with
  | column hadd =>
    obtain ⟨-, rfl⟩ := Table.addColumn_ok hadd
    rfl
  | _ => rfl

/-- A step gives each column the last default of the step, if there is one. -/
theorem DraftStep.defaultAt (h : DraftStep s d ds d') (i : Nat) :
    d'.table.defaultAt i = (ds.last i).or (d.table.defaultAt i) := by
  cases h with
  | column hadd =>
    obtain ⟨-, rfl⟩ := Table.addColumn_ok hadd
    show (d.table.columns ++ [_])[i]?.bind Column.default = d.table.columns[i]?.bind Column.default
    rcases Nat.lt_or_ge i d.table.columns.length with hi | hi
    · rw [List.getElem?_append_left hi]
    · rw [List.getElem?_append_right hi, List.getElem?_eq_none hi]
      cases i - d.table.columns.length <;> rfl
  | @default t j value hread hj =>
    show (d.table.modifyColumn j _).defaultAt i = _
    rw [Table.defaultAt, Table.modifyColumn, List.getElem?_modify]
    by_cases hij : j = i
    · simp [← hij, hj, DefaultLog.last]
    · simp [hij, DefaultLog.last, Table.defaultAt]
  | reference j => exact defaultAt_modifyColumn fun c => rfl
  | onDelete j => exact defaultAt_modifyColumn fun c => rfl
  | _ => rfl

/-- Setting a default adds its use of a sequence and takes none away. -/
theorem users_setDefault (i : Nat) (value : DefaultValue) :
    (d.setDefault i value).users = d.users ++ (value.sequence?.map (·, i)).toList := by
  cases value <;> rfl

/-- A step adds the columns that it gives a default from a sequence to the users of the sequence. -/
theorem DraftStep.usersOf (h : DraftStep s d ds d') (id : SequenceId) :
    d'.usersOf id = d.usersOf id ++ (ds.users id).map (d.table.id, ·) := by
  have same (hid : d'.table.id = d.table.id) (husers : d'.users = d.users) :
      d'.usersOf id = d.usersOf id ++ [] := by
    rw [Draft.usersOf, hid, husers, ← Draft.usersOf, List.append_nil]
  have hid := h.id_eq
  cases h with
  | @default t j value hread hj =>
    rw [Draft.usersOf, hid, users_setDefault, List.filter_append, List.map_append, ← Draft.usersOf]
    cases hvalue : value.sequence? with
    | none => simp [DefaultLog.users, hvalue]
    | some id' => by_cases hid' : id' = id <;> simp [DefaultLog.users, hvalue, hid']
  | _ => exact same hid rfl

/-- A run gives each column its last default. -/
theorem DraftRun.defaultAt (h : DraftRun s d ds d') (i : Nat) :
    d'.table.defaultAt i = (ds.last i).or (d.table.defaultAt i) := by
  induction h with
  | nil d => rfl
  | cons hstep _ ih => rw [ih, hstep.defaultAt, DefaultLog.last_append, Option.or_assoc]

/-- A run makes every column that it gives a default from a sequence a user of the sequence. -/
theorem DraftRun.usersOf (h : DraftRun s d ds d') (id : SequenceId) :
    d'.usersOf id = d.usersOf id ++ (ds.users id).map (d.table.id, ·) := by
  induction h with
  | nil d => simp [DefaultLog.users]
  | cons hstep _ ih =>
    rw [ih, hstep.usersOf, hstep.id_eq, DefaultLog.users_append, List.map_append,
      List.append_assoc]

/-- The sequences of a log are sequences of the schema. -/
theorem DraftRun.sequence_lt (h : DraftRun s d ds d') (hs : s.Coherent) {i : Nat} {id : SequenceId}
    (hi : (i, DefaultValue.sequence id) ∈ ds) : id < s.sequences.length := by
  induction h with
  | nil d => cases hi
  | cons hstep _ ih =>
    rcases List.mem_append.1 hi with hi | hi
    · cases hstep with
      | default hread =>
        rw [List.mem_singleton, Prod.mk.injEq] at hi
        obtain ⟨q, hq, rfl⟩ := mem_sequences_of_readDefaultValue (hi.2 ▸ hread)
        exact hs.sequence_id_lt hq
      | _ => cases hi
    · exact ih hi

/-- A log is exact at every place beyond the sequences of the schema. -/
theorem DraftRun.exactAt_beyond (h : DraftRun s d ds d') (hs : s.Coherent) {id : SequenceId}
    (hid : s.sequences.length ≤ id) : ds.ExactAt id := by
  apply DefaultLog.exactAt_of_forall_notMem
  intro i hi
  obtain ⟨v, hv, hsequence⟩ := DefaultLog.mem_users.1 hi
  cases v with
  | sequence id' =>
    obtain rfl : id' = id := Option.some.inj hsequence
    exact absurd (h.sequence_lt hs hv) (Nat.not_lt_of_le hid)
  | _ => cases hsequence

end Drafts

/-! ## Schemas -/

namespace Schema

/-- The default of the column of a table, by the places of both. -/
def defaultAt (s : Schema) (user : TableId × Nat) : Option DefaultValue :=
  s.tables[user.1]?.bind fun t => t.defaultAt user.2

/-- Whether the users of a sequence are, without repetition, the columns whose default it is. -/
def ExactUsers (s : Schema) (q : Sequence) : Prop :=
  q.users.Nodup ∧
    ∀ user, user ∈ q.users ↔ s.defaultAt user = some (.sequence q.id)

/-- Whether the users of every sequence are exact. -/
def UsersExact (s : Schema) : Prop := ∀ q ∈ s.sequences, s.ExactUsers q

end Schema

section Changes

variable {s s' : Schema} {d : Draft} {ds : DefaultLog}

/-- The defaults of the schema are those of the draft in its own table. -/
theorem defaultAt_withDraft (hd : d.Coherent s) (user : TableId × Nat) :
    (s.withDraft d).defaultAt user =
      if user.1 = d.table.id then d.table.defaultAt user.2 else s.defaultAt user := by
  rw [Schema.defaultAt, tables_withDraft, hd.place]
  rcases Nat.lt_trichotomy user.1 s.tables.length with h | h | h
  · rw [List.getElem?_append_left h, if_neg (Nat.ne_of_lt h), Schema.defaultAt]
  · simp [h]
  · rw [if_neg (Nat.ne_of_gt h), Schema.defaultAt, List.getElem?_eq_none (Nat.le_of_lt h),
      List.getElem?_eq_none (by simpa using Nat.succ_le_of_lt h)]

/-- What a log says about a sequence is what the users of the draft say about its own columns. -/
theorem mem_usersOf {id : SequenceId} (husers : d.usersOf id = (ds.users id).map (d.table.id, ·))
    (user : TableId × Nat) :
    user ∈ d.usersOf id ↔ user.1 = d.table.id ∧ user.2 ∈ ds.users id := by
  obtain ⟨owner, i⟩ := user
  rw [husers, List.mem_map]
  constructor
  · rintro ⟨j, hj, heq⟩
    obtain ⟨rfl, rfl⟩ := Prod.mk.inj heq
    exact ⟨rfl, hj⟩
  · rintro ⟨rfl, hi⟩
    exact ⟨i, hi, rfl⟩

/-- The uses of a draft are without repetition exactly when those of its log are. -/
theorem nodup_usersOf {id : SequenceId}
    (husers : d.usersOf id = (ds.users id).map (d.table.id, ·)) :
    (d.usersOf id).Nodup ↔ (ds.users id).Nodup := by
  rw [husers, List.Nodup, List.pairwise_map]
  constructor
  · intro h
    exact h.imp fun hne heq => hne (by rw [heq])
  · intro h
    exact h.imp fun hne heq => hne (Prod.mk.inj heq).2

/-- A draft leaves a sequence with exact users exactly if its users were exact and the log of the
draft is exact. -/
theorem exactUsers_withDraft (hs : s.Coherent) (hd : d.Coherent s)
    (husers : ∀ id, d.usersOf id = (ds.users id).map (d.table.id, ·))
    (hdefaults : ∀ i, d.table.defaultAt i = ds.last i) {q : Sequence} (hq : q ∈ s.sequences) :
    (s.withDraft d).ExactUsers { q with users := q.users ++ d.usersOf q.id } ↔
      s.ExactUsers q ∧ ds.ExactAt q.id := by
  -- The users that are there before are columns of other tables.
  have hnew : ∀ i, (d.table.id, i) ∉ q.users := by
    intro i hi
    obtain ⟨t, ht, -⟩ := hs.users q hq _ hi
    exact absurd (List.getElem?_eq_some_iff.1 ht).1 (by simp [hd.place])
  have hmem := mem_usersOf (husers q.id)
  have hnodup : (q.users ++ d.usersOf q.id).Nodup ↔ q.users.Nodup ∧ (ds.users q.id).Nodup := by
    rw [List.nodup_append, nodup_usersOf (husers q.id), and_congr_right_iff, and_iff_left_iff_imp]
    rintro - - a ha ⟨owner, i⟩ hb rfl
    obtain ⟨rfl, -⟩ := (hmem _).1 hb
    exact hnew i ha
  have hold : ∀ user : TableId × Nat, user.1 = d.table.id → s.defaultAt user = none := by
    intro user huser
    rw [Schema.defaultAt, huser, hd.place, List.getElem?_eq_none (Nat.le_refl _)]
    rfl
  simp only [Schema.ExactUsers, DefaultLog.ExactAt, hnodup, List.mem_append, hmem,
    defaultAt_withDraft hd, bind_sequence?_eq_some]
  constructor
  · rintro ⟨⟨hq', hds⟩, h⟩
    refine ⟨⟨hq', fun user => ?_⟩, hds, fun i => ?_⟩
    · by_cases huser : user.1 = d.table.id
      · have hnot : user ∉ q.users := fun hmem => hnew user.2 (by rwa [← huser])
        simp [hold user huser, hnot]
      · simpa [huser] using h user
    · simpa [hnew, hdefaults] using h (d.table.id, i)
  · rintro ⟨⟨hq', h⟩, hds, h'⟩
    refine ⟨⟨hq', hds⟩, fun user => ?_⟩
    by_cases huser : user.1 = d.table.id
    · have hnot : user ∉ q.users := fun hmem => hnew user.2 (by rwa [← huser])
      simpa [huser, hnot, hdefaults] using h' user.2
    · simpa [huser] using h user

/-- A draft leaves the users of sequences exact exactly if they were and its log is settled. -/
theorem usersExact_withDraft (hs : s.Coherent) {statement : Statement}
    (hread : s.readTable statement = .ok (d, none)) :
    (s.withDraft d).UsersExact ↔ s.UsersExact ∧ (s.tableDefaults statement).Settled := by
  have hd := Draft.Coherent.readTable hs hread
  obtain ⟨name, comment, hrun⟩ := draftRun_of_readTable hread
  have hid : (Draft.initial s name comment).table.id = d.table.id := hd.place.symm
  have husers (id : SequenceId) :
      d.usersOf id = ((s.tableDefaults statement).users id).map (d.table.id, ·) := by
    rw [hrun.usersOf, hid]
    rfl
  have hdefaults (i : Nat) : d.table.defaultAt i = (s.tableDefaults statement).last i := by
    rw [hrun.defaultAt]
    exact Option.or_none
  have hsequence {q : Sequence} (hq : q ∈ s.sequences) :=
    exactUsers_withDraft hs hd husers hdefaults hq
  rw [← DefaultLog.exactAt_iff_settled]
  constructor
  · intro h
    have hboth (q : Sequence) (hq : q ∈ s.sequences) := (hsequence hq).1 (h _ (by
      obtain ⟨i, hi⟩ := List.mem_iff_getElem?.1 hq
      refine List.mem_of_getElem? (i := i) ?_
      rw [sequences_withDraft, hi, Option.map_some, hs.sequenceIds i q hi]))
    refine ⟨fun q hq => (hboth q hq).1, fun id => ?_⟩
    -- The sequences of the schema settle the log at their places; beyond them it says nothing.
    rcases Nat.lt_or_ge id s.sequences.length with hlt | hge
    · have hget := List.getElem?_eq_getElem hlt
      have hexact := (hboth _ (List.mem_of_getElem? hget)).2
      rwa [hs.sequenceIds id _ hget] at hexact
    · exact hrun.exactAt_beyond hs hge
  · rintro ⟨h, hds⟩ q hq
    obtain ⟨i, hi⟩ := List.mem_iff_getElem?.1 hq
    rw [sequences_withDraft] at hi
    obtain ⟨p, hp, rfl⟩ := Option.map_eq_some_iff.1 hi
    have hmem := List.mem_of_getElem? hp
    rw [← hs.sequenceIds i p hp]
    exact (hsequence hmem).2 ⟨h p hmem, hds p.id⟩

theorem sequence_lt_of_defaultAt (hs : s.Coherent) {user : TableId × Nat} {id : SequenceId}
    (h : s.defaultAt user = some (.sequence id)) : id < s.sequences.length := by
  obtain ⟨t, ht, h⟩ := Option.bind_eq_some_iff.1 h
  obtain ⟨c, hc, h⟩ := Option.bind_eq_some_iff.1 h
  exact hs.defaults t (List.mem_of_getElem? ht) c (List.mem_of_getElem? hc) id h

/-- Changes that are no table definitions leave the users of sequences as exact as they were. -/
theorem usersExact_of_change {kind : StatementKind} {statement : Statement} (hs : s.Coherent)
    (hchange : Change s kind statement s') (hkind : kind ≠ .table) :
    s'.UsersExact ↔ s.UsersExact := by
  have same (hdefaults : ∀ user, s'.defaultAt user = s.defaultAt user) (q : Sequence) :
      s'.ExactUsers q ↔ s.ExactUsers q := by
    rw [Schema.ExactUsers, Schema.ExactUsers]
    simp only [hdefaults]
  cases hchange with
  | table => exact absurd rfl hkind
  | @sequence _ name =>
    -- No column can have a default from a sequence that was not there yet.
    have hnew : s.ExactUsers ⟨s.sequences.length, name, []⟩ := by
      refine ⟨List.nodup_nil, fun user => iff_of_false (by simp) fun h => ?_⟩
      exact Nat.lt_irrefl _ (sequence_lt_of_defaultAt hs h)
    constructor
    · intro h q hq
      exact (same (fun _ => rfl) q).1 (h q (mem_concat.2 (.inl hq)))
    · intro h q hq
      refine (same (fun _ => rfl) q).2 ?_
      rcases mem_concat.1 hq with hq | rfl
      · exact h q hq
      · exact hnew
  | index => exact forall₂_congr fun q _ => same (fun _ => rfl) q
  | @seedRow _ t t' values ht hrow =>
    refine forall₂_congr fun q _ => same (fun user => ?_) q
    obtain ⟨-, rfl⟩ := Table.addRow_ok hrow
    rw [Schema.defaultAt, Schema.modifyTable, List.getElem?_modify, Schema.defaultAt]
    by_cases huser : t.id = user.1
    · rw [← huser, hs.getElem?_id ht]
      simp [Table.defaultAt]
    · simp [huser]
  | blank => exact Iff.rfl

end Changes

/-! ## Runs -/

/-- The log of a part: that of a table definition, if it is accepted. -/
def Schema.partLog (s : Schema) (p : StatementKind × Statement) : DefaultLog :=
  match p.1, (p.1.compile p.2).into s with
  | .table, (.ok _, _) => s.tableDefaults p.2
  | _, _ => []

/-- The logs of some parts, each compiled into the schema that the ones before leave. -/
def Schema.partLogs (s : Schema) : List (StatementKind × Statement) → List DefaultLog
  | [] => []
  | p :: ps => s.partLog p :: Schema.partLogs (s.compilePart p) ps

/-- The logs of the table definitions that are accepted when submissions are compiled. -/
def Schema.defaultLogs (s : Schema) (cs : List Submission) : List DefaultLog :=
  s.partLogs (s.allParts cs)

section Runs

variable {s : Schema}

theorem coherent_compilePart (hs : s.Coherent) (p : StatementKind × Statement) :
    (s.compilePart p).Coherent := by
  rw [Schema.compilePart]
  rcases compilePart_cases (s := s) p with ⟨e, hp⟩ | ⟨s', hp, hchange⟩ <;> rw [hp]
  · exact hs
  · exact hs.change hchange

/-- A part leaves the users of sequences exact exactly if they were and its log is settled. -/
theorem usersExact_compilePart (hs : s.Coherent) (p : StatementKind × Statement) :
    (s.compilePart p).UsersExact ↔ s.UsersExact ∧ (s.partLog p).Settled := by
  have settled : DefaultLog.Settled [] := List.Pairwise.nil
  obtain ⟨kind, statement⟩ := p
  rw [Schema.compilePart, Schema.partLog]
  rcases compilePart_cases (s := s) (kind, statement) with ⟨e, hp⟩ | ⟨s', hp, hchange⟩ <;> rw [hp]
  · cases kind <;> exact (and_iff_left settled).symm
  · by_cases hkind : kind = .table
    · subst hkind
      cases hchange with
      | table hread => exact usersExact_withDraft hs hread
    · rw [usersExact_of_change hs hchange hkind]
      cases kind with
      | table => exact absurd rfl hkind
      | _ => exact (and_iff_left settled).symm

/-- After any parts the users are exact exactly when they were and every log is settled. -/
theorem usersExact_compileParts (hs : s.Coherent) (ps : List (StatementKind × Statement)) :
    (s.compileParts ps).UsersExact ↔ s.UsersExact ∧ ∀ ds ∈ s.partLogs ps, ds.Settled := by
  induction ps generalizing s with
  | nil => simp [Schema.compileParts, Schema.partLogs]
  | cons p ps ih =>
    rw [Schema.compileParts, List.foldl_cons, ← Schema.compileParts,
      ih (coherent_compilePart hs p), usersExact_compilePart hs, Schema.partLogs,
      List.forall_mem_cons, and_assoc]

end Runs

/-- After any submissions to an empty schema, refused or not, the users of every sequence are,
without repetition, the columns whose default it is, exactly if no accepted table definition gives
a column a default from a sequence and then another default. -/
theorem usersExact_submitAll_iff (source : String) (dialect : Dialect) (cs : List Submission) :
    ((Schema.empty source dialect).submitAll cs).UsersExact ↔
      ∀ ds ∈ (Schema.empty source dialect).defaultLogs cs, ds.Settled := by
  have hempty : (Schema.empty source dialect).UsersExact := fun q hq => by cases hq
  rw [submitAll_eq_compileParts, usersExact_compileParts (.empty source dialect)]
  exact and_iff_right hempty

/-- A column that is given a default from a sequence and then another one remains a user. -/
theorem users_not_exact :
    ¬((Schema.empty "" .standard).submit (.source
      "create sequence s; create table t (x integer default nextval('s') default 1)"
      )).UsersExact := by
  intro h
  have hexact := h ⟨0, "s", [(0, 0)]⟩ (by decide +kernel)
  have hdefault := (hexact.2 (0, 0)).1 List.mem_cons_self
  rw [← bind_sequence?_eq_some] at hdefault
  exact absurd hdefault (by decide +kernel)

end SqlCatalog
