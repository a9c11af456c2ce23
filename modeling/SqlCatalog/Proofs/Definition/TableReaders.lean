import SqlCatalog.Proofs.Definition.ColumnReaders

/-!
# Reading declared tables

The body of a declared table is read item by item, where an item is a column or a constraint. After
each of them the draft is that of the table declared so far, so the draft at the end is that of the
whole table.

## Main definitions

* `ReadsItem` says what reading an item does, and `ItemRun` what reading several does.

## Main statements

* `readsItem_column`, `readsItem_key`, `readsItem_unique`: one for each kind of item.
* `readBody_of_itemRun`: reading a body is reading its items one after the other.
* `readBody_body`: reading the body of a declared table gives the draft of that table.
-/

namespace SqlCatalog

open Phrase

/-! ## Lists of columns -/

section Places

variable {t : TableDeclaration} {id : TableId} {rows : List (List Value)}

/-- A table of columns whose names differ, letter case apart, finds each of them by its name. -/
theorem distinct_table (hnames : (t.columns.map fun c => lower c.name).Nodup) :
    (t.table id rows).Distinct := by
  rw [Table.Distinct, DistinctBy, TableDeclaration.names_table, List.map_map]
  exact hnames

/-- The columns of a declared table are found by their names. -/
theorem columnIndexes_table (h : (t.table id rows).Distinct) {places : List Nat}
    (hplaces : ∀ i ∈ places, i < t.columns.length) :
    (t.table id rows).columnIndexes (places.map t.columnName) = .ok places := by
  rw [Table.columnIndexes]
  induction places with
  | nil => rfl
  | cons i places ih =>
    obtain ⟨hi, hplaces⟩ := List.forall_mem_cons.1 hplaces
    have hcolumn : (t.table id rows).columns[i]? = some (t.columns[i].column id i) := by
      simp [TableDeclaration.table, hi]
    have hname : t.columnName i = (t.columns[i].column id i).name := by
      simp [TableDeclaration.columnName, hi, ColumnDeclaration.column]
    rw [List.map_cons, List.mapM_cons, hname, h.columnIndex hcolumn, ih hplaces]
    rfl

/-- A list of columns is read as their names. -/
theorem readNames_columnList {places : List Nat} (hne : places ≠ []) :
    readNames (tokensAll (t.columnList places)) = .ok (places.map t.columnName) := by
  have hnames : places.map t.columnName ≠ [] := by simpa using hne
  rw [← readNames_tokens hnames, TableDeclaration.columnList, List.map_map]
  rfl

/-- A list of columns is read as their places. -/
theorem readColumns_columnList (hnames : (t.columns.map fun c => lower c.name).Nodup)
    {places : List Nat} (hplaces : ValidPlaces t.columns.length places) :
    (t.table id rows).readColumns (tokensAll (t.columnList places)) = .ok places := by
  rw [Table.readColumns, readNames_columnList hplaces.1]
  show fromCatalog ((t.table id rows).columnIndexes _) = _
  rw [columnIndexes_table (distinct_table hnames) hplaces.2]
  rfl

end Places

/-! ## Items -/

/-- Reading on after a column or a constraint: the body is at its end or goes on after a comma. -/
def readOn (s : Schema) (draft : Draft) : List Token → Draft × Option CompileError
  | [] => (draft, none)
  | _ :: rest => readBody s draft .item rest

/-- Reading the item of a body turns the draft of one declared table into that of another. -/
def ReadsItem (s : Schema) (id : TableId) (t : TableDeclaration) (item : List Phrase)
    (t' : TableDeclaration) : Prop :=
  ∀ notices rest, EndsItem rest → ∃ notices',
    readBody s (t.draft id notices) .item (tokensAll item ++ rest) =
      readOn s (t'.draft id notices') rest

/-- Reading some items of a body one after the other. -/
inductive ItemRun (s : Schema) (id : TableId) :
    TableDeclaration → List (List Phrase) → TableDeclaration → Prop
  | nil (t : TableDeclaration) : ItemRun s id t [] t
  | cons {t t' t'' : TableDeclaration} {item : List Phrase} {items : List (List Phrase)}
      (h : ReadsItem s id t item t') (run : ItemRun s id t' items t'') :
      ItemRun s id t (item :: items) t''

section Items

variable {s : Schema} {d : Description} {t t' t'' : TableDeclaration} {id : TableId}
  {sequences : Nat}

theorem ItemRun.append {items items' : List (List Phrase)} (run : ItemRun s id t items t')
    (run' : ItemRun s id t' items' t'') : ItemRun s id t (items ++ items') t'' := by
  induction run with
  | nil => exact run'
  | cons h _ ih => exact .cons h (ih run')

theorem endsItem_items (items : List (List Phrase)) :
    EndsItem (items.flatMap fun item => .punctuation ',' :: tokensAll item) := by
  cases items with
  | nil => rintro _ ⟨⟩
  | cons item items =>
    rintro _ ⟨⟩
    rfl

/-- Reading on through the items of a run ends with the draft of its last table. -/
theorem readOn_items {items : List (List Phrase)} (run : ItemRun s id t items t')
    (notices : List Notice) : ∃ notices',
      readOn s (t.draft id notices) (items.flatMap fun item => .punctuation ',' :: tokensAll item) =
        (t'.draft id notices', none) := by
  induction run generalizing notices with
  | nil => exact ⟨notices, rfl⟩
  | cons h _ ih =>
    obtain ⟨notices', hitem⟩ := h notices _ (endsItem_items _)
    rw [List.flatMap_cons, List.cons_append, readOn, hitem]
    exact ih notices'

/-- Reading a body is reading its items one after the other. -/
theorem readBody_of_itemRun {item : List Phrase} {items : List (List Phrase)}
    (run : ItemRun s id t (item :: items) t') (notices : List Notice) : ∃ notices',
      readBody s (t.draft id notices) .item (tokensAll (commaSeparated (item :: items))) =
        (t'.draft id notices', none) := by
  cases run with
  | cons h run =>
    obtain ⟨notices', hitem⟩ := h notices _ (endsItem_items items)
    rw [tokensAll_commaSeparated_cons, hitem]
    exact readOn_items run notices'

/-! ### Columns -/

/-- A column ends where an item ends. -/
theorem readBody_columnEnd (draft : Draft) (i : Nat) {rest : List Token} (hrest : EndsItem rest) :
    readBody s draft (.column i) rest = readOn s draft rest := by
  cases rest with
  | nil => rw [readBody, readOn]
  | cons comma rest =>
    obtain rfl := hrest comma rfl
    rw [readBody_cons]
    rfl

/-- A valid column with a new name is read as that column. -/
theorem readsItem_column {c : ColumnDeclaration} (hs : s.Finds d sequences id)
    (hname : t.name = d.tableName id) (ht : t.uniques = []) (hc : c.Valid sequences id)
    (hfresh : ∀ other ∈ t.columns, lower other.name ≠ lower c.name) :
    ReadsItem s id t (c.phrases d) (t.withColumn c) := by
  intro notices rest hrest
  obtain ⟨notices', hread⟩ := readBody_column hs hname ht hc hfresh hrest notices
  exact ⟨notices', hread.trans (readBody_columnEnd _ _ hrest)⟩

/-- Reading the definitions of some columns adds them to those that were read. -/
theorem itemRun_columns (hs : s.Finds d sequences id) (hname : t.name = d.tableName id)
    (ht : t.uniques = []) {cs : List ColumnDeclaration} (hcs : ∀ c ∈ cs, c.Valid sequences id)
    (hnames : ((t.columns ++ cs).map fun c => lower c.name).Nodup) :
    ItemRun s id t (cs.map (ColumnDeclaration.phrases d))
      { t with columns := t.columns ++ cs } := by
  -- What was read stays in `t`, where the names of later columns must not occur.
  induction cs generalizing t with
  | nil =>
    rw [List.append_nil]
    exact .nil t
  | cons c cs ih =>
    obtain ⟨hc, hcs⟩ := List.forall_mem_cons.1 hcs
    have hfresh : ∀ other ∈ t.columns, lower other.name ≠ lower c.name := by
      rw [List.map_append, List.map_cons, List.nodup_append] at hnames
      intro other hother
      exact hnames.2.2 _ (List.mem_map_of_mem hother) _ List.mem_cons_self
    have hsplit : t.columns ++ c :: cs = (t.withColumn c).columns ++ cs := by
      simp [TableDeclaration.withColumn]
    rw [hsplit] at hnames ⊢
    exact .cons (readsItem_column hs hname ht hc hfresh) (ih hname ht hcs hnames)

/-! ### Constraints -/

/-- After a constraint there is the end of the body or a comma. -/
theorem readBody_constraint {draft draft' : Draft} {name : Option String} {token kind : Token}
    {ts ts' rest : List Token} (hrest : EndsItem rest)
    (hitem : readItem draft token ts = readConstraint draft token ts)
    (hhead : readConstraintName token ts = .ok (name, kind, ts'))
    (hbody : readConstraintBody draft name kind ts' = .ok (draft', rest)) :
    readBody s draft .item (token :: ts) = readOn s draft' rest := by
  have hconstraint : readItem draft token ts = afterConstraint draft' rest := by
    rw [hitem, readConstraint, hhead]
    show (readConstraintBody draft name kind ts' >>= _) = _
    rw [hbody]
    rfl
  rw [readBody_cons, readBodyStep, hconstraint]
  cases rest with
  | nil => rfl
  | cons comma rest =>
    obtain rfl := hrest comma rfl
    rfl

/-- A key over columns of the table is read as that key, if there is none yet. -/
theorem readsItem_key (hnames : (t.columns.map fun c => lower c.name).Nodup) {key : List Nat}
    (hkey : ValidPlaces t.columns.length key) (ht : t.primaryKey = none) :
    ReadsItem s id t (t.keyPhrases key) { t with primaryKey := some key } := by
  intro notices rest hrest
  have hhead (ts : List Token) : readConstraintName (.keyword "PRIMARY") ts =
      .ok (none, .keyword "PRIMARY", ts) := rfl
  refine ⟨notices, readBody_constraint hrest rfl (hhead _) ?_⟩
  have hset : (t.draft id notices).setPrimaryKey key (.keyword "PRIMARY") =
      .ok ({ t with primaryKey := some key }.draft id notices) := by
    have hfree : (t.draft id notices).table.primaryKey.isSome = false := by
      show t.primaryKey.isSome = false
      rw [ht]
      rfl
    rw [Draft.setPrimaryKey, hfree]
    rfl
  show ((t.table id []).readColumns (tokensAll (t.columnList key)) >>= fun columns =>
    (t.draft id notices).setPrimaryKey columns (.keyword "PRIMARY") >>= fun draft =>
      pure (draft, rest)) = _
  rw [readColumns_columnList hnames hkey]
  show ((t.draft id notices).setPrimaryKey key (.keyword "PRIMARY") >>= _) = _
  rw [hset]
  rfl

/-- The table with one more constraint by which columns are unique. -/
def TableDeclaration.withUnique (t : TableDeclaration) (u : Option String × List Nat) :
    TableDeclaration :=
  { t with uniques := t.uniques ++ [u] }

/-- A unique constraint over columns of the table is read as that constraint. -/
theorem readConstraintBody_unique (id : TableId)
    (hnames : (t.columns.map fun c => lower c.name).Nodup)
    {u : Option String × List Nat} (hu : ValidPlaces t.columns.length u.2) (notices : List Notice)
    (rest : List Token) :
    readConstraintBody (t.draft id notices) u.1 (.keyword "UNIQUE")
        (.paren (tokensAll (t.columnList u.2)) :: rest) =
      .ok ((t.withUnique u).draft id notices, rest) := by
  have hconstraints : (t.withUnique u).constraints = t.constraints ++ [.unique u.1 u.2] := by
    simp [TableDeclaration.withUnique, TableDeclaration.constraints, TableDeclaration.places]
  have hdraft : (t.withUnique u).draft id notices =
      (t.draft id notices).withTable ((t.table id []).addConstraint (.unique u.1 u.2)) := by
    rw [TableDeclaration.draft, TableDeclaration.table, hconstraints]
    rfl
  show ((t.table id []).readColumns (tokensAll (t.columnList u.2)) >>= fun columns =>
    pure ((t.draft id notices).withTable ((t.table id []).addConstraint (.unique u.1 columns)),
      rest)) = _
  rw [readColumns_columnList hnames hu, hdraft]
  rfl

/-- A unique constraint, named or not, is read as an item of the body. -/
theorem readsItem_unique (hnames : (t.columns.map fun c => lower c.name).Nodup)
    {u : Option String × List Nat} (hu : ValidPlaces t.columns.length u.2) :
    ReadsItem s id t (t.uniquePhrases u) (t.withUnique u) := by
  intro notices rest hrest
  have hbody := readConstraintBody_unique id hnames hu notices rest
  obtain ⟨name, places⟩ := u
  cases name with
  | none => exact ⟨notices, readBody_constraint hrest rfl rfl hbody⟩
  | some name => exact ⟨notices, readBody_constraint hrest rfl rfl hbody⟩

/-- The unique constraints of a table are read one after the other. -/
theorem itemRun_uniques (hnames : (t.columns.map fun c => lower c.name).Nodup)
    {us : List (Option String × List Nat)} (hus : ∀ u ∈ us, ValidPlaces t.columns.length u.2) :
    ItemRun s id t (us.map t.uniquePhrases) { t with uniques := t.uniques ++ us } := by
  induction us generalizing t with
  | nil =>
    rw [List.append_nil]
    exact .nil t
  | cons u us ih =>
    obtain ⟨hu, hus⟩ := List.forall_mem_cons.1 hus
    have hsplit : t.uniques ++ u :: us = (t.withUnique u).uniques ++ us := by
      simp [TableDeclaration.withUnique]
    rw [hsplit]
    exact .cons (readsItem_unique hnames hu) (ih (t := t.withUnique u) hnames hus)

end Items

/-! ## Bodies -/

/-- Reading the body of a declared table gives the draft of that table. -/
theorem readBody_body {s : Schema} {d : Description} {t : TableDeclaration} {id : TableId}
    {sequences : Nat} (hs : s.Finds d sequences id) (hname : t.name = d.tableName id)
    (ht : t.Valid sequences id) : ∃ notices,
      readBody s ⟨.empty id t.name, [], []⟩ .item (tokensAll (t.body d)) =
        (t.draft id notices, none) := by
  -- Columns, key and unique constraints are read in three runs, each to a table with more of `t`.
  have hcolumns : ItemRun s id ⟨t.name, [], none, []⟩ (t.columns.map (ColumnDeclaration.phrases d))
      ⟨t.name, t.columns, none, []⟩ :=
    itemRun_columns (t := ⟨t.name, [], none, []⟩) hs hname rfl ht.columns ht.names
  have hkey : ItemRun s id ⟨t.name, t.columns, none, []⟩ (t.primaryKey.toList.map t.keyPhrases)
      ⟨t.name, t.columns, t.primaryKey, []⟩ := by
    cases hkey : t.primaryKey with
    | none => exact .nil _
    | some key =>
      have hread : ReadsItem s id ⟨t.name, t.columns, none, []⟩ (t.keyPhrases key)
          ⟨t.name, t.columns, some key, []⟩ :=
        readsItem_key (t := ⟨t.name, t.columns, none, []⟩) ht.names (ht.primaryKey key hkey) rfl
      exact .cons hread (.nil _)
  have huniques : ItemRun s id ⟨t.name, t.columns, t.primaryKey, []⟩ (t.uniques.map t.uniquePhrases)
      t :=
    itemRun_uniques (t := ⟨t.name, t.columns, t.primaryKey, []⟩) ht.names ht.uniques
  have hrun := (hcolumns.append hkey).append huniques
  rw [TableDeclaration.body]
  cases hcs : t.columns with
  | nil => exact absurd hcs ht.nonempty
  | cons c cs =>
    rw [hcs] at hrun
    exact readBody_of_itemRun hrun []

end SqlCatalog
