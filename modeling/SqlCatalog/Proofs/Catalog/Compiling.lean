import SqlCatalog.Definition.Script
import SqlCatalog.Proofs.Catalog.Names

/-!
# What compiling does to a schema

Compiling a statement reads it first and changes the schema last, so that it either leaves the
schema as it was or makes one change of a few kinds. A change says all that is known when it is
made: what was read, and which names were free.

## Main definitions

* `Schema.withDraft` is a schema with the table of a draft and its uses of sequences.
* `Compiling.Yields` says what compiling gives, unless it is refused.
* `Change` is what one accepted statement does to a schema.

## Main statements

* `yields_compile`: compiling a statement is refused and changes nothing, or makes one change.
* `into_compileTable` and its kin: the other way round, when a statement of each kind is accepted.
-/

namespace SqlCatalog

/-! ## Refused or done -/

namespace Compiling

variable {α β : Type} {s s' : Schema} {P : α → Schema → Prop} {Q : β → Schema → Prop}

/-- Compiling into `s` is refused and leaves `s` as it is, or what it gives and the schema
afterwards are as `P` says. -/
def Yields (x : Compiling α) (s : Schema) (P : α → Schema → Prop) : Prop :=
  match x.into s with
  | (.ok a, s') => P a s'
  | (.error _, s') => s' = s

/-- Compiling goes on from the schema that the first part leaves, and ends where that is refused.
-/
theorem into_bind (x : Compiling α) (f : α → Compiling β) (s : Schema) :
    (x >>= f).into s =
      match x.into s with
      | (.ok a, s) => (f a).into s
      | (.error e, s) => (.error e, s) := by
  show (ExceptT.bindCont f (x.into s).1).run (x.into s).2 = _
  rcases x.into s with ⟨_ | a, s'⟩ <;> rfl

theorem Yields.pure {a : α} (h : P a s) : Yields (Pure.pure a) s P := h

theorem Yields.throw (e : CompileError) : Yields (MonadExcept.throw e) s P := rfl

theorem Yields.get {f : Schema → Compiling β} (h : (f s).Yields s Q) :
    Yields (MonadState.get >>= f) s Q := h

theorem Yields.set {P : PUnit → Schema → Prop} (h : P ⟨⟩ s') : Yields (MonadState.set s') s P := h

/-- What compiling gave, if it is as described, is what it yields. -/
theorem Yields.of_into {x : Compiling α} {a : α} (hx : x.into s = (.ok a, s')) (h : P a s') :
    x.Yields s P := by
  unfold Yields
  rw [hx]
  exact h

/-- What compiling yields describes what it gave. -/
theorem Yields.of_ok {x : Compiling α} {a : α} (h : x.Yields s P) (hx : x.into s = (.ok a, s')) :
    P a s' := by
  unfold Yields at h
  rw [hx] at h
  exact h

/-- What is read without regard to the schema leaves it as it is. -/
theorem Yields.read {x : Compile α} {f : α → Compiling β} (h : ∀ a, x = .ok a → (f a).Yields s Q) :
    Yields (liftM x >>= f) s Q := by
  unfold Yields
  rw [into_bind]
  cases x with
  | error e => rfl
  | ok a => exact h a rfl

/-- A description that follows from what is yielded is yielded. -/
theorem Yields.mono {x : Compiling α} {P' : α → Schema → Prop} (h : x.Yields s P)
    (hP : ∀ a s', P a s' → P' a s') : x.Yields s P' := by
  unfold Yields at h ⊢
  split at h
  · exact hP _ _ h
  · exact h

theorem Yields.discard {x : Compiling α} (h : x.Yields s P) :
    Yields (Functor.discard x) s fun _ s' => ∃ a, P a s' := by
  show Yields (x >>= fun _ => Pure.pure PUnit.unit) s _
  unfold Yields at h ⊢
  rw [into_bind]
  rcases hx : x.into s with ⟨e | a, s'⟩ <;> rw [hx] at h
  · exact h
  · exact ⟨a, h⟩

end Compiling

/-! ## One statement -/

/-- The schema with columns of the table at `owner` as users of sequences. -/
def Schema.addUsers (s : Schema) (owner : TableId) (users : List (SequenceId × Nat)) : Schema :=
  users.foldl (fun s user => s.addUser user.1 (owner, user.2)) s

/-- The schema with the table of a draft and its uses of sequences. -/
def Schema.withDraft (s : Schema) (d : Draft) : Schema :=
  Schema.addUsers { s with tables := s.tables ++ [d.table] } d.table.id d.users

/-- What an accepted statement of the given kind does to a schema. -/
inductive Change (s : Schema) : StatementKind → Statement → Schema → Prop
  | table {statement : Statement} {d : Draft} (hread : s.readTable statement = .ok (d, none))
      (hplace : d.table.id = s.tables.length)
      (hfree : ∀ t ∈ s.tables, s.sameName t.name d.table.name = false) :
      Change s .table statement (s.withDraft d)
  | sequence {statement : Statement} {name : String}
      (hfree : ∀ q ∈ s.sequences, s.sameName q.name name = false) :
      Change s .sequence statement
        { s with sequences := s.sequences ++ [⟨s.sequences.length, name, []⟩] }
  | index {statement : Statement} {i : Index} {t : Table} {names : List String}
      (ht : t ∈ s.tables) (hid : i.table = t.id) (hcolumns : t.columnIndexes names = .ok i.columns)
      (hfree : ∀ j ∈ s.indexes, s.sameName j.name i.name = false) :
      Change s .index statement { s with indexes := s.indexes ++ [i] }
  | seedRow {statement : Statement} {t t' : Table} {values : List Value} (ht : t ∈ s.tables)
      (hrow : t.addRow values = .ok t') :
      Change s .seedRow statement (s.modifyTable t.id fun _ => t')
  | blank {statement : Statement} : Change s .blank statement s

variable {s : Schema} {statement : Statement}

/-- Nothing is refused when users are added, so they are added in one go. -/
theorem into_addUsers (owner : TableId) (users : List (SequenceId × Nat)) (s : Schema) :
    Compiling.into (do
      users.forM fun user => modify fun s => s.addUser user.1 (owner, user.2)
      return owner) s = (.ok owner, s.addUsers owner users) := by
  induction users generalizing s with
  | nil => rfl
  | cons u us ih => exact ih _

/-- Committing a draft takes a free place and a free name, or changes nothing. -/
theorem yields_commit (d : Draft) :
    d.commit.Yields s fun id s' => id = d.table.id ∧ s' = s.withDraft d ∧
      d.table.id = s.tables.length ∧ ∀ t ∈ s.tables, s.sameName t.name d.table.name = false := by
  refine Compiling.Yields.get (Compiling.Yields.read fun s' hs' => ?_)
  obtain ⟨hid, hfree, rfl⟩ := Schema.addTable_ok (fromCatalog_eq_ok.1 hs')
  exact Compiling.Yields.of_into (into_addUsers _ d.users _) ⟨rfl, rfl, hid, hfree⟩

/-- A table definition that is compiled was read to its end, under a free name. -/
theorem yields_readTable : (compileTable statement).Yields s fun id s' =>
    ∃ d, s.readTable statement = .ok (d, none) ∧ id = d.table.id ∧ s' = s.withDraft d ∧
      d.table.id = s.tables.length ∧ ∀ t ∈ s.tables, s.sameName t.name d.table.name = false := by
  refine Compiling.Yields.get (Compiling.Yields.read fun r hread => ?_)
  obtain ⟨d, _ | e⟩ := r
  · exact (yields_commit d).mono fun _ _ h => ⟨d, hread, h⟩
  · exact .throw e

/-- A table definition is a change of its kind, or is refused and changes nothing. -/
theorem yields_compileTable :
    (compileTable statement).Yields s fun _ s' => Change s .table statement s' := by
  refine yields_readTable.mono fun _ s' h => ?_
  obtain ⟨d, hread, -, rfl, hplace, hfree⟩ := h
  exact .table hread hplace hfree

theorem yields_compileSequence :
    (compileSequence statement).Yields s fun _ s' => Change s .sequence statement s' := by
  refine Compiling.Yields.get (Compiling.Yields.read fun name _ => ?_)
  refine Compiling.Yields.read fun s' hs' => ?_
  obtain ⟨hfree, rfl⟩ := Schema.addSequence_ok (fromCatalog_eq_ok.1 hs')
  exact Compiling.Yields.of_into rfl (.sequence hfree)

theorem yields_compileIndex :
    (compileIndex statement).Yields s fun _ s' => Change s .index statement s' := by
  refine Compiling.Yields.get (Compiling.Yields.read fun head _ => ?_)
  refine Compiling.Yields.read fun t ht => Compiling.Yields.read fun names _ => ?_
  refine Compiling.Yields.read fun columns hcolumns => Compiling.Yields.read fun s' hs' => ?_
  obtain ⟨hmem, -⟩ := Schema.tableNamed_ok (fromCatalog_eq_ok.1 ht)
  obtain ⟨hfree, rfl⟩ := Schema.addIndex_ok (fromCatalog_eq_ok.1 hs')
  exact .set (.index hmem rfl (fromCatalog_eq_ok.1 hcolumns) hfree)

theorem yields_compileSeedRow :
    (compileSeedRow statement).Yields s fun _ s' => Change s .seedRow statement s' := by
  refine Compiling.Yields.get (Compiling.Yields.read fun row _ => ?_)
  refine Compiling.Yields.read fun t ht => Compiling.Yields.read fun t' ht' => ?_
  obtain ⟨hmem, -⟩ := Schema.tableNamed_ok (fromCatalog_eq_ok.1 ht)
  exact .set (.seedRow hmem (fromCatalog_eq_ok.1 ht'))

/-- Compiling a statement of any kind is refused or makes a change of that kind. -/
theorem yields_compile (kind : StatementKind) :
    (kind.compile statement).Yields s fun _ s' => Change s kind statement s' := by
  cases kind with
  | table => exact yields_compileTable.discard.mono fun _ _ ⟨_, h⟩ => h
  | sequence => exact yields_compileSequence.discard.mono fun _ _ ⟨_, h⟩ => h
  | index => exact yields_compileIndex
  | seedRow => exact yields_compileSeedRow
  | blank => exact .pure .blank

/-! ## Statements that are accepted -/

namespace Compiling

variable {α β : Type} {s' : Schema}

theorem into_get (f : Schema → Compiling β) : (MonadState.get >>= f).into s = (f s).into s := rfl

theorem into_read {x : Compile α} {a : α} (h : x = .ok a) (f : α → Compiling β) :
    (liftM x >>= f).into s = (f a).into s := by
  rw [h]
  rfl

theorem into_discard {x : Compiling α} {a : α} (h : x.into s = (.ok a, s')) :
    (Functor.discard x).into s = (.ok ⟨⟩, s') := by
  show (x >>= fun _ => Pure.pure PUnit.unit).into s = _
  rw [into_bind, h]
  rfl

end Compiling

/-- A definition that is read whole, with a free name, is accepted. -/
theorem into_compileTable {d : Draft} (hread : s.readTable statement = .ok (d, none))
    (hplace : d.table.id = s.tables.length)
    (hfree : ∀ t ∈ s.tables, s.sameName t.name d.table.name = false) :
    (compileTable statement).into s = (.ok d.table.id, s.withDraft d) := by
  have hadd : fromCatalog (s.addTable d.table) =
      .ok { s with tables := s.tables ++ [d.table] } := by
    rw [Schema.addTable_of_free hplace hfree]
    rfl
  refine (Compiling.into_get _).trans ((Compiling.into_read hread _).trans ?_)
  refine (Compiling.into_get _).trans ((Compiling.into_read hadd _).trans ?_)
  exact into_addUsers d.table.id d.users _

theorem into_compileSequence {name : String}
    (hread : readSequenceDefinition (Token.flatten statement) = .ok name)
    (hfree : ∀ q ∈ s.sequences, s.sameName q.name name = false) :
    (compileSequence statement).into s = (.ok s.sequences.length,
      { s with sequences := s.sequences ++ [⟨s.sequences.length, name, []⟩] }) := by
  have hadd : fromCatalog (s.addSequence name) =
      .ok { s with sequences := s.sequences ++ [⟨s.sequences.length, name, []⟩] } := by
    rw [Schema.addSequence_of_free hfree]
    rfl
  refine (Compiling.into_get _).trans ((Compiling.into_read hread _).trans ?_)
  exact Compiling.into_read hadd _

theorem into_compileIndex {head : IndexHead} {t : Table} {names : List String} {columns : List Nat}
    (hread : readIndexHead (Token.flatten statement) = .ok head)
    (htable : s.tableNamed head.table = .ok t) (hnames : readNames head.columns = .ok names)
    (hcolumns : t.columnIndexes names = .ok columns)
    (hfree : ∀ i ∈ s.indexes, s.sameName i.name head.name = false) :
    (compileIndex statement).into s = (.ok ⟨⟩, { s with
      indexes := s.indexes ++ [⟨head.name, t.id, head.unique, head.method, columns⟩] }) := by
  have hadd : fromCatalog
      (s.addIndex ⟨head.name, t.id, head.unique, head.method, columns⟩) = .ok { s with
        indexes := s.indexes ++ [⟨head.name, t.id, head.unique, head.method, columns⟩] } := by
    rw [Schema.addIndex_of_free (i := ⟨head.name, t.id, head.unique, head.method, columns⟩) hfree]
    rfl
  refine (Compiling.into_get _).trans ((Compiling.into_read hread _).trans ?_)
  refine (Compiling.into_read (fromCatalog_eq_ok.2 htable) _).trans ?_
  refine (Compiling.into_read hnames _).trans ?_
  exact (Compiling.into_read (fromCatalog_eq_ok.2 hcolumns) _).trans (Compiling.into_read hadd _)

/-- A row that its table takes is accepted. -/
theorem into_compileSeedRow {row : SeedRowDefinition} {t t' : Table}
    (hread : readSeedRow (Token.flatten statement) = .ok row)
    (htable : s.tableNamed row.table = .ok t) (hrow : t.addRow row.values = .ok t') :
    (compileSeedRow statement).into s = (.ok ⟨⟩, s.modifyTable t.id fun _ => t') := by
  refine (Compiling.into_get _).trans ((Compiling.into_read hread _).trans ?_)
  refine (Compiling.into_read (fromCatalog_eq_ok.2 htable) _).trans ?_
  exact Compiling.into_read (fromCatalog_eq_ok.2 hrow) _

end SqlCatalog
