import Mathlib.Data.List.Induction
import SqlCatalog.Proofs.Definition.SpelledBodies
import SqlCatalog.Proofs.Lists

/-!
# The draft of what was read

The clauses and items of a table definition are admitted by the draft that those before them make,
one after the other. Put together, they are admitted exactly if the definition is valid, and then
the draft is that of the table that is defined: with every item, and with every clause of the
column that is read, the draft remains the draft of the definition as far as it was read.

## Main definitions

* `TableSyntax.Drafted` says that a draft is that of a table definition.
* `ItemSyntax.Admitted` says when the last item of a definition leaves it valid.

## Main statements

* `TableSyntax.Drafted.clause` and `TableSyntax.Drafted.constraint`: what is admitted keeps the
  draft that of what was read.
* `TableSyntax.Drafted.accepted_clause` and `admitted_constraint`: what is admitted is what keeps
  the definition valid.
* `allAccepted_items`: items are admitted one after the other exactly if the definition is valid,
  and then the draft is that of the definition.
-/

namespace SqlCatalog

/-! ## Things admitted one after the other -/

/-- One thing more is admitted by the draft that those before it make. -/
theorem allAccepted_concat {α : Type} {accepted : Draft → α → Prop} {apply : Draft → α → Draft}
    {d : Draft} {as : List α} {a : α} :
    AllAccepted accepted apply d (as ++ [a]) ↔
      AllAccepted accepted apply d as ∧ accepted (as.foldl apply d) a := by
  induction as generalizing d with
  | nil => simp [AllAccepted]
  | cons b as ih => rw [List.cons_append, AllAccepted, AllAccepted, ih, List.foldl_cons, and_assoc]

/-! ## Names -/

section Names

variable {names names' : List String}

/-- A column that was read keeps its place. -/
theorem placeIn_of_isPrefix (h : names <+: names') {n : String} (hn : NamedIn names n) :
    placeIn names n = placeIn names' n := by
  obtain ⟨more, rfl⟩ := h
  obtain ⟨m, hm, hname⟩ := hn
  rw [placeIn, placeIn, List.findIdx_append, if_pos]
  exact List.findIdx_lt_length_of_exists ⟨m, hm, sameIgnoringCase_iff.2 hname⟩

/-- More names at the end leave the places of the others as they are. -/
theorem map_placeIn_of_isPrefix (h : names <+: names') {ns : List String}
    (hns : ∀ n ∈ ns, NamedIn names n) : ns.map (placeIn names) = ns.map (placeIn names') :=
  List.map_congr_left fun n hn => placeIn_of_isPrefix h (hns n hn)

/-- More columns at the end leave what an operand means as it is. -/
theorem OperandSyntax.expr_of_isPrefix (h : names <+: names') {o : OperandSyntax}
    (ho : ∀ n ∈ o.mentions, NamedIn names n) : o.expr names = o.expr names' := by
  cases o with
  | column n => exact congrArg _ (placeIn_of_isPrefix h (ho n List.mem_cons_self))
  | literal v => rfl
  | call f ns =>
    exact congrArg _ (List.map_congr_left fun n hn => congrArg _ (placeIn_of_isPrefix h (ho n hn)))

/-- More columns at the end leave what a check means as it is. -/
theorem CheckSyntax.expr_of_isPrefix (h : names <+: names') {c : CheckSyntax}
    (hc : ∀ n ∈ c.mentions, NamedIn names n) : c.expr names = c.expr names' := by
  obtain ⟨hlhs, hrhs⟩ := List.forall_mem_append.1 hc
  rw [expr, expr, OperandSyntax.expr_of_isPrefix h hlhs, OperandSyntax.expr_of_isPrefix h hrhs]

end Names

/-! ## One more item -/

section Items

variable (name : String) (items : List ItemSyntax) (x : ItemSyntax) (s : Schema)
  (names : List String)

/-- The last part of a body stands after the columns of those before it. -/
theorem placed_concat (i : Nat) :
    placed i (items ++ [x]) = placed i items ++ [(i + (columnsOf items).length, x)] := by
  induction items generalizing i with
  | nil => rfl
  | cons y items ih =>
    have hplace : i + y.column?.toList.length + (columnsOf items).length =
        i + (columnsOf (y :: items)).length := by
      cases y <;> simp [columnsOf, List.filterMap_cons, ItemSyntax.column?, Nat.add_comm,
        Nat.add_left_comm]
    rw [List.cons_append, placed, placed, ih, hplace, List.cons_append]

@[simp] theorem columnsOf_concat :
    columnsOf (items ++ [x]) = columnsOf items ++ x.column?.toList := by
  cases h : x.column? <;> simp [columnsOf, h]

@[simp] theorem namesOf_concat :
    namesOf (items ++ [x]) = namesOf items ++ (x.column?.map ColumnSyntax.name).toList := by
  cases h : x.column? <;> simp [namesOf, h]

namespace TableSyntax

theorem keys_concat : keys ⟨name, items ++ [x]⟩ names =
    keys ⟨name, items⟩ names ++ x.keys names (columnsOf items).length := by
  simp [keys, placed_concat]

theorem constraints_concat : constraints ⟨name, items ++ [x]⟩ names =
    constraints ⟨name, items⟩ names ++ x.constraints names (columnsOf items).length := by
  simp [constraints, placed_concat]

theorem users_concat : users ⟨name, items ++ [x]⟩ s =
    users ⟨name, items⟩ s ++ x.users s (columnsOf items).length := by
  simp [users, placed_concat]

/-- How many primary keys there are is no matter of the places of columns. -/
theorem length_keys (t : TableSyntax) (names names' : List String) :
    (t.keys names).length = (t.keys names').length := by
  rw [keys, keys, List.length_flatMap, List.length_flatMap]
  refine congrArg _ (List.map_congr_left fun x _ => ?_)
  cases x.2 with
  | column c => rfl
  | constraint c => cases h : c.rule <;> simp [ItemSyntax.keys, RuleSyntax.key?, h]

end TableSyntax

end Items

/-! ## Clauses and rules -/

/-- The column with one more clause. -/
def ColumnSyntax.withClause (c : ColumnSyntax) (clause : ClauseSyntax) : ColumnSyntax :=
  { c with clauses := c.clauses ++ [clause] }

/-- What a clause does to its column in the table named `own`. -/
def ClauseSyntax.onColumn (s : Schema) (own : String) : ClauseSyntax → Column → Column
  | default v => fun c => { c with default := some (v.value s) }
  | references r => fun c => { c with references := some (s.targetId own r) }
  | onDelete action => fun c => { c with onDelete := some action }
  | _ => id

section Clauses

variable {s : Schema} {d : Draft} {name comment : String} {names : List String}
  {items : List ItemSyntax} {c : ColumnSyntax} {clause : ClauseSyntax}

/-- One more clause does to the column what it does alone. -/
theorem ColumnSyntax.column_withClause (own : String) (i : Nat) :
    (c.withClause clause).column s own i = clause.onColumn s own (c.column s own i) := by
  cases clause <;> simp [column, withClause, ClauseSyntax.onColumn, ClauseSyntax.default?,
    ClauseSyntax.target?, ClauseSyntax.action?]

/-- The table that is found is the one a reference to its name means. -/
theorem findTable_id (hid : d.table.id = s.tables.length) {r : String} {target : Table}
    (h : d.findTable s r = .ok target) : target.id = s.targetId d.table.name r := by
  unfold Draft.findTable at h
  rw [Schema.targetId]
  split at h
  · rename_i hown
    obtain rfl := Except.ok.inj h
    rw [if_pos hown, hid]
  · rename_i hown
    have hfound := fromCatalog_eq_ok.1 h
    rw [if_neg hown]
    unfold Schema.tableNamed at hfound
    split at hfound
    · rename_i hfind
      obtain rfl := Except.ok.inj hfound
      rw [hfind]
      rfl
    · cases hfound

/-- A clause that is admitted does to the table what it says. -/
theorem table_apply (hid : d.table.id = s.tables.length) (h : clause.Accepted s d) (i : Nat) :
    (clause.apply s i d).table = { d.table with
      columns := d.table.columns.modify i (clause.onColumn s d.table.name)
      constraints := d.table.constraints ++ (clause.constraint? d.table.names i).toList
      primaryKey := d.table.primaryKey.or (clause.key? i) } := by
  cases clause with
  | primaryKey =>
    have hnone : d.table.primaryKey = none := h
    simp [ClauseSyntax.apply, ClauseSyntax.constraint?, ClauseSyntax.key?, ClauseSyntax.onColumn,
      Draft.withTable, hnone, List.modify_id]
  | references r =>
    obtain ⟨target, htarget⟩ := findTable_isOk.2 h
    simp [ClauseSyntax.apply, ClauseSyntax.constraint?, ClauseSyntax.key?, ClauseSyntax.onColumn,
      Draft.setReference, Table.modifyColumn, htarget, findTable_id hid htarget]
  | _ =>
    simp [ClauseSyntax.apply, ClauseSyntax.constraint?, ClauseSyntax.key?, ClauseSyntax.onColumn,
      Draft.withTable, Draft.setDefault, Table.addConstraint, Table.modifyColumn, List.modify_id]

/-- A clause adds a use where it names a sequence. -/
theorem users_apply (i : Nat) : (clause.apply s i d).users =
    d.users ++ (clause.sequence?.map fun q => (s.sequenceId q, i)).toList := by
  cases clause with
  | references r =>
    rw [ClauseSyntax.apply, Draft.setReference]
    cases d.findTable s r <;> simp [ClauseSyntax.sequence?, ClauseSyntax.default?]
  | default v =>
    cases v <;> simp [ClauseSyntax.apply, Draft.setDefault, DefaultSyntax.value,
      ClauseSyntax.sequence?, ClauseSyntax.default?, DefaultSyntax.sequence?]
  | _ =>
    simp [ClauseSyntax.apply, Draft.withTable, ClauseSyntax.sequence?, ClauseSyntax.default?]

/-- A rule that is admitted does to the table what it says. -/
theorem table_rule {rule : RuleSyntax} {n : Option String} (h : rule.Accepted d) :
    (rule.apply n d).table = { d.table with
      constraints := d.table.constraints ++ (rule.constraint? d.table.names n).toList
      primaryKey := d.table.primaryKey.or (rule.key? d.table.names) } := by
  cases rule with
  | primaryKey columns =>
    have hnone : d.table.primaryKey = none := h.1
    simp [RuleSyntax.apply, RuleSyntax.constraint?, RuleSyntax.key?, Draft.withTable, hnone]
  | _ =>
    simp [RuleSyntax.apply, RuleSyntax.constraint?, RuleSyntax.key?, Draft.withTable,
      Table.addConstraint]

theorem users_rule (rule : RuleSyntax) (n : Option String) : (rule.apply n d).users = d.users := by
  cases rule <;> rfl

end Clauses

/-! ## The draft of a definition -/

/-- The draft is that of a table definition, with columns looked up among the given names. -/
structure TableSyntax.Drafted (t : TableSyntax) (s : Schema) (names : List String)
    (comment : String) (d : Draft) : Prop where
  table : d.table = t.tableOver s names comment
  users : d.users = t.users s

section Drafted

variable {s : Schema} {d : Draft} {name comment : String} {names : List String}
  {items : List ItemSyntax} {c : ColumnSyntax}

/-- The table of a body, one column further. -/
theorem tableOver_column (c : ColumnSyntax) :
    TableSyntax.tableOver ⟨name, items ++ [.column c]⟩ s names comment =
      { TableSyntax.tableOver ⟨name, items⟩ s names comment with
        columns := (TableSyntax.tableOver ⟨name, items⟩ s names comment).columns ++
          [c.column s name (columnsOf items).length]
        constraints := TableSyntax.constraints ⟨name, items⟩ names ++
          c.clauses.filterMap fun clause => clause.constraint? names (columnsOf items).length
        primaryKey := (TableSyntax.keys ⟨name, items⟩ names ++
          c.clauses.filterMap fun clause => clause.key? (columnsOf items).length).head? } := by
  simp [TableSyntax.tableOver, TableSyntax.keys_concat, TableSyntax.constraints_concat,
    ItemSyntax.keys, ItemSyntax.constraints, ItemSyntax.column?]

theorem tableOver_constraint (c : ConstraintSyntax) :
    TableSyntax.tableOver ⟨name, items ++ [.constraint c]⟩ s names comment =
      { TableSyntax.tableOver ⟨name, items⟩ s names comment with
        constraints := TableSyntax.constraints ⟨name, items⟩ names ++
          (c.rule.constraint? names c.name).toList
        primaryKey := (TableSyntax.keys ⟨name, items⟩ names).head?.or (c.rule.key? names) } := by
  simp [TableSyntax.tableOver, TableSyntax.keys_concat, TableSyntax.constraints_concat,
    ItemSyntax.keys, ItemSyntax.constraints, ItemSyntax.column?]

/-- The table of a definition has the columns that are named in it. -/
theorem TableSyntax.names_tableOver (t : TableSyntax) :
    (t.tableOver s names comment).names = namesOf t.items := by
  refine List.ext_getElem (by simp [Table.names, tableOver, namesOf]) fun i hi hi' => ?_
  simp [Table.names, tableOver, namesOf, ColumnSyntax.column]

namespace TableSyntax.Drafted

theorem names_eq {t : TableSyntax} (h : t.Drafted s names comment d) :
    d.table.names = namesOf t.items := by
  rw [h.table, t.names_tableOver]

theorem length_columns {t : TableSyntax} (h : t.Drafted s names comment d) :
    d.table.columns.length = (columnsOf t.items).length := by
  rw [h.table]
  exact List.length_mapIdx

/-- A column begins with its name and its type. -/
theorem addColumn (h : Drafted ⟨name, items⟩ s names comment d) (hc : c.clauses = []) :
    Drafted ⟨name, items ++ [.column c]⟩ s names comment (d.addColumn c) where
  table := by
    rw [tableOver_column, Draft.addColumn, Draft.withTable, h.length_columns, h.table]
    simp [ColumnSyntax.column, hc, tableOver]
  users := by
    rw [users_concat, ← h.users]
    simp [ItemSyntax.users, ItemSyntax.clauses, hc, Draft.addColumn, Draft.withTable]

/-- A clause that is admitted keeps the draft that of what was read. -/
theorem clause {clause : ClauseSyntax} (h : Drafted ⟨name, items ++ [.column c]⟩ s names comment d)
    (hnames : namesOf (items ++ [.column c]) <+: names) (ha : clause.Accepted s d) :
    Drafted ⟨name, items ++ [.column (c.withClause clause)]⟩ s names comment
      (clause.apply s (columnsOf items).length d) where
  table := by
    have hconstraint : clause.constraint? d.table.names (columnsOf items).length =
        clause.constraint? names (columnsOf items).length := by
      cases clause with
      | check e =>
        rw [← h.names_eq] at hnames
        exact congrArg (fun e => some (Constraint.check none e)) (e.expr_of_isPrefix hnames ha)
      | _ => rfl
    rw [table_apply (congrArg Table.id h.table) ha, hconstraint, h.table, tableOver_column,
      tableOver_column, ColumnSyntax.column_withClause]
    have hcolumns : (tableOver ⟨name, items⟩ s names comment).columns.length =
        (columnsOf items).length := List.length_mapIdx
    rw [← hcolumns]
    simp only [modify_concat]
    cases hadded : clause.constraint? names (columnsOf items).length <;>
      simp [ColumnSyntax.withClause, tableOver, hadded, Option.or_assoc]
  users := by
    rw [users_apply, h.users, users_concat, users_concat]
    cases hq : clause.sequence? <;>
      simp [ItemSyntax.users, ItemSyntax.clauses, ColumnSyntax.withClause, hq]

/-- One constraint more makes of the draft that of the longer definition. -/
theorem constraint {c : ConstraintSyntax} (h : Drafted ⟨name, items⟩ s names comment d)
    (hnames : namesOf items <+: names) (ha : c.rule.Accepted d) :
    Drafted ⟨name, items ++ [.constraint c]⟩ s names comment (c.rule.apply c.name d) where
  table := by
    rw [← h.names_eq] at hnames
    have hconstraint :
        c.rule.constraint? d.table.names c.name = c.rule.constraint? names c.name := by
      cases hrule : c.rule with
      | primaryKey columns => rfl
      | unique columns =>
        rw [hrule] at ha
        simp [RuleSyntax.constraint?, map_placeIn_of_isPrefix hnames ha]
      | check e =>
        rw [hrule] at ha
        simp [RuleSyntax.constraint?, e.expr_of_isPrefix hnames ha]
    have hkey : c.rule.key? d.table.names = c.rule.key? names := by
      cases hrule : c.rule with
      | primaryKey columns =>
        rw [hrule] at ha
        simp [RuleSyntax.key?, map_placeIn_of_isPrefix hnames ha.2]
      | _ => rfl
    rw [table_rule ha, hconstraint, hkey, h.table, tableOver_constraint]
    rfl
  users := by
    rw [users_rule, h.users, users_concat]
    exact (List.append_nil _).symm

end TableSyntax.Drafted

end Drafted

/-! ## Validity of what was read -/

section Valid

variable {s : Schema} {name : String} {items : List ItemSyntax}

/-- Names stay distinct with one more exactly when its key is new. -/
theorem distinctBy_concat {key : String → String} {names : List String} {n : String} :
    DistinctBy key (names ++ [n]) ↔
      DistinctBy key names ∧ ∀ other ∈ names, key other ≠ key n := by
  constructor
  · intro h
    have hnodup : (names.map key ++ [key n]).Nodup := by simpa [DistinctBy] using h
    obtain ⟨hold, -, hnew⟩ := List.nodup_append.1 hnodup
    exact ⟨hold, fun other hother => hnew _ (List.mem_map_of_mem hother) _ List.mem_cons_self⟩
  · exact fun h => h.1.concat h.2

/-- What the last part of a body must be, for the definition to remain valid. -/
structure ItemSyntax.Admitted (s : Schema) (name : String) (items : List ItemSyntax)
    (x : ItemSyntax) : Prop where
  fresh : ∀ c ∈ x.column?, isKnownType c.type.name = true ∧ ¬ NamedIn (namesOf items) c.name
  key : (TableSyntax.keys ⟨name, items ++ [x]⟩ (namesOf (items ++ [x]))).length ≤ 1
  columns : ∀ n ∈ x.mentions, NamedIn (namesOf (items ++ [x])) n
  sequences : ∀ q ∈ x.clauses.filterMap ClauseSyntax.sequence?, s.HasSequence q
  targets : ∀ r ∈ x.clauses.filterMap ClauseSyntax.target?, s.HasTarget name r

/-- A definition stays valid with one more part exactly when that part is admitted. -/
theorem valid_concat {x : ItemSyntax} : TableSyntax.Valid ⟨name, items ++ [x]⟩ s ↔
    TableSyntax.Valid ⟨name, items⟩ s ∧ x.Admitted s name items := by
  have hnames : DistinctBy lower (namesOf (items ++ [x])) ↔ DistinctBy lower (namesOf items) ∧
      ∀ c ∈ x.column?, ¬ NamedIn (namesOf items) c.name := by
    cases x with
    | column c => simp [ItemSyntax.column?, distinctBy_concat, NamedIn]
    | constraint c => simp [ItemSyntax.column?]
  constructor
  · rintro ⟨hfree, hdistinct, htypes, hkey, hcolumns, hsequences, htargets⟩
    obtain ⟨hdistinct, hfresh⟩ := hnames.1 hdistinct
    refine ⟨⟨hfree, hdistinct, ?_, ?_, ?_, ?_, ?_⟩, ?_, hkey, ?_, ?_, ?_⟩
    · exact fun c hc => htypes c (by simp [hc])
    · rw [TableSyntax.keys_concat, List.length_append] at hkey
      rw [TableSyntax.length_keys _ _ (namesOf (items ++ [x]))]
      exact Nat.le_trans (Nat.le_add_right ..) hkey
    · exact fun before y hy => hcolumns before y (hy.trans (List.prefix_append ..))
    · exact fun y hy => hsequences y (List.mem_append_left _ hy)
    · exact fun y hy => htargets y (List.mem_append_left _ hy)
    · exact fun c hc => ⟨htypes c (by simp [Option.mem_def.1 hc]), hfresh c hc⟩
    · exact hcolumns items x List.prefix_rfl
    · exact hsequences x (by simp)
    · exact htargets x (by simp)
  · rintro ⟨⟨hfree, hdistinct, htypes, -, hcolumns, hsequences, htargets⟩, hx⟩
    refine ⟨hfree, hnames.2 ⟨hdistinct, fun c hc => (hx.fresh c hc).2⟩, ?_, hx.key, ?_, ?_, ?_⟩
    · intro c hc
      rw [columnsOf_concat] at hc
      rcases List.mem_append.1 hc with hc | hc
      · exact htypes c hc
      · exact (hx.fresh c (Option.mem_toList.1 hc)).1
    · intro before y hy
      rcases List.prefix_concat_iff.1 hy with hy | hy
      · obtain ⟨rfl, rfl⟩ := List.append_singleton_inj.1 hy
        exact hx.columns
      · exact hcolumns before y hy
    · intro y hy
      rcases List.mem_append.1 hy with hy | hy
      · exact hsequences y hy
      · obtain rfl := List.mem_singleton.1 hy
        exact hx.sequences
    · intro y hy
      rcases List.mem_append.1 hy with hy | hy
      · exact htargets y hy
      · obtain rfl := List.mem_singleton.1 hy
        exact hx.targets

/-! ### What is admitted keeps a definition valid -/

variable {d : Draft} {comment : String} {names : List String} {c : ColumnSyntax}
  {clause : ClauseSyntax} {rule : RuleSyntax}

/-- Whether what a clause of the table named `own` mentions is there. -/
@[mk_iff]
structure ClauseSyntax.Founded (s : Schema) (own : String) (names : List String)
    (clause : ClauseSyntax) : Prop where
  columns : ∀ n ∈ clause.mentions, NamedIn names n
  sequences : ∀ q ∈ clause.sequence?, s.HasSequence q
  targets : ∀ r ∈ clause.target?, s.HasTarget own r

/-- A draft admits a clause exactly when it is no second primary key and what it mentions is
there. -/
theorem accepted_clause_iff (i : Nat) : clause.Accepted s d ↔
    ((clause.key? i).isSome = true → d.table.primaryKey = none) ∧
      clause.Founded s d.table.name d.table.names := by
  cases clause <;> simp [ClauseSyntax.Accepted, ClauseSyntax.key?, ClauseSyntax.mentions,
    ClauseSyntax.sequence?, ClauseSyntax.default?, ClauseSyntax.target?, ClauseSyntax.founded_iff]

/-- A draft admits a rule exactly when it is no second primary key and the columns it mentions are
there. -/
theorem accepted_rule_iff (names : List String) : rule.Accepted d ↔
    ((rule.key? names).isSome = true → d.table.primaryKey = none) ∧
      ∀ n ∈ rule.mentions, NamedIn d.table.names n := by
  cases rule <;> simp [RuleSyntax.Accepted, RuleSyntax.key?, RuleSyntax.mentions]

/-- A column is admitted exactly when its type is known, its name is new, its clauses make no
second primary key, and what they mention is there. -/
theorem admitted_column_iff (names : List String) :
    (ItemSyntax.column c).Admitted s name items ↔
      (isKnownType c.type.name = true ∧ ¬ NamedIn (namesOf items) c.name) ∧
        (TableSyntax.keys ⟨name, items ++ [.column c]⟩ names).length ≤ 1 ∧
          ∀ clause ∈ c.clauses, clause.Founded s name (namesOf items ++ [c.name]) := by
  have hnames : namesOf (items ++ [.column c]) = namesOf items ++ [c.name] := by
    simp [ItemSyntax.column?]
  rw [TableSyntax.length_keys _ names (namesOf (items ++ [.column c]))]
  constructor
  · rintro ⟨hfresh, hkey, hcolumns, hsequences, htargets⟩
    rw [hnames] at hcolumns
    refine ⟨hfresh c rfl, hkey, fun clause hclause => ⟨?_, ?_, ?_⟩⟩
    · exact fun n hn => hcolumns n (List.mem_flatMap.2 ⟨clause, hclause, hn⟩)
    · exact fun q hq => hsequences q (List.mem_filterMap.2 ⟨clause, hclause, hq⟩)
    · exact fun r hr => htargets r (List.mem_filterMap.2 ⟨clause, hclause, hr⟩)
  · rintro ⟨hfresh, hkey, hfounded⟩
    refine ⟨?_, hkey, ?_, ?_, ?_⟩
    · rintro _ ⟨⟩
      exact hfresh
    · intro n hn
      obtain ⟨clause, hclause, hn⟩ := List.mem_flatMap.1 hn
      rw [hnames]
      exact (hfounded clause hclause).columns n hn
    · intro q hq
      obtain ⟨clause, hclause, hq⟩ := List.mem_filterMap.1 hq
      exact (hfounded clause hclause).sequences q hq
    · intro r hr
      obtain ⟨clause, hclause, hr⟩ := List.mem_filterMap.1 hr
      exact (hfounded clause hclause).targets r hr

/-- The name and the type of a column keep a definition valid if the type is known and the name is
new. -/
theorem admitted_column (h : TableSyntax.Valid ⟨name, items⟩ s) (hc : c.clauses = []) :
    (ItemSyntax.column c).Admitted s name items ↔
      isKnownType c.type.name = true ∧ ¬ NamedIn (namesOf items) c.name := by
  have hkey : (TableSyntax.keys ⟨name, items ++ [.column c]⟩ (namesOf items)).length ≤ 1 := by
    rw [TableSyntax.keys_concat]
    simpa [ItemSyntax.keys, hc] using h.key
  simp [admitted_column_iff (namesOf items), hkey, hc]

/-- A clause keeps a definition valid if what it mentions is there and it is not a second primary
key. -/
theorem admitted_withClause (names : List String) :
    (ItemSyntax.column (c.withClause clause)).Admitted s name items ↔
      (ItemSyntax.column c).Admitted s name items ∧
        ((clause.key? (columnsOf items).length).isSome = true →
          (TableSyntax.keys ⟨name, items ++ [.column c]⟩ names).head? = none) ∧
            clause.Founded s name (namesOf items ++ [c.name]) := by
  have hkeys : TableSyntax.keys ⟨name, items ++ [.column (c.withClause clause)]⟩ names =
      TableSyntax.keys ⟨name, items ++ [.column c]⟩ names ++
        (clause.key? (columnsOf items).length).toList := by
    rw [TableSyntax.keys_concat, TableSyntax.keys_concat]
    cases hkey : clause.key? (columnsOf items).length <;>
      simp [ItemSyntax.keys, ColumnSyntax.withClause, hkey]
  rw [admitted_column_iff names, admitted_column_iff names, hkeys, length_append_toList_le_one]
  simp only [ColumnSyntax.withClause, List.forall_mem_append, List.forall_mem_singleton]
  tauto

/-- The draft of what was read admits a clause exactly if it keeps the definition valid. -/
theorem TableSyntax.Drafted.accepted_clause
    (h : TableSyntax.Drafted ⟨name, items ++ [.column c]⟩ s names comment d)
    (hc : (ItemSyntax.column c).Admitted s name items) :
    clause.Accepted s d ↔ (ItemSyntax.column (c.withClause clause)).Admitted s name items := by
  have hkey : (TableSyntax.keys ⟨name, items ++ [.column c]⟩ names).head? = d.table.primaryKey :=
    (congrArg Table.primaryKey h.table).symm
  have hname : d.table.name = name := congrArg Table.name h.table
  have hnames : d.table.names = namesOf items ++ [c.name] := by
    simp [h.names_eq, ItemSyntax.column?]
  rw [admitted_withClause names, accepted_clause_iff (columnsOf items).length, hkey, hname, hnames]
  exact (and_iff_right hc).symm

/-- A constraint keeps a definition valid exactly if the draft of what was read before admits it. -/
theorem admitted_constraint {c : ConstraintSyntax} (hvalid : TableSyntax.Valid ⟨name, items⟩ s)
    (h : TableSyntax.Drafted ⟨name, items⟩ s names comment d) :
    (ItemSyntax.constraint c).Admitted s name items ↔ c.rule.Accepted d := by
  have hnames : namesOf (items ++ [.constraint c]) = namesOf items := by simp [ItemSyntax.column?]
  have hkeys : TableSyntax.keys ⟨name, items ++ [.constraint c]⟩ names =
      TableSyntax.keys ⟨name, items⟩ names ++ (c.rule.key? names).toList :=
    TableSyntax.keys_concat ..
  have hkey : (TableSyntax.keys ⟨name, items⟩ names).head? = d.table.primaryKey :=
    (congrArg Table.primaryKey h.table).symm
  have hone : (TableSyntax.keys ⟨name, items⟩ names).length ≤ 1 := by
    rw [TableSyntax.length_keys _ _ (namesOf items)]
    exact hvalid.key
  rw [accepted_rule_iff names, h.names_eq, ← hkey]
  constructor
  · rintro ⟨-, hkeys', hcolumns, -, -⟩
    rw [TableSyntax.length_keys _ _ names, hkeys, length_append_toList_le_one] at hkeys'
    rw [hnames] at hcolumns
    exact ⟨hkeys'.2, hcolumns⟩
  · rintro ⟨hprimary, hcolumns⟩
    refine ⟨by simp [ItemSyntax.column?], ?_, ?_, by simp [ItemSyntax.clauses],
      by simp [ItemSyntax.clauses]⟩
    · rw [TableSyntax.length_keys _ _ names, hkeys, length_append_toList_le_one]
      exact ⟨hone, hprimary⟩
    · rw [hnames]
      exact hcolumns

/-! ### Clauses, items and bodies one after the other -/

/-- The clauses of a column are admitted one after the other exactly if they keep the definition
valid, and then the draft becomes that of the definition with the column. -/
theorem allAccepted_clauses (h : TableSyntax.Drafted ⟨name, items⟩ s names comment d)
    (hvalid : TableSyntax.Valid ⟨name, items⟩ s)
    (hfresh : isKnownType c.type.name = true ∧ ¬ NamedIn (namesOf items) c.name)
    (hnames : namesOf items ++ [c.name] <+: names) (clauses : List ClauseSyntax) :
    (AllAccepted (ClauseSyntax.Accepted s) (ClauseSyntax.apply s (columnsOf items).length)
        (d.addColumn c) clauses ↔
      TableSyntax.Valid ⟨name, items ++ [.column { c with clauses := clauses }]⟩ s) ∧
    (TableSyntax.Valid ⟨name, items ++ [.column { c with clauses := clauses }]⟩ s →
      TableSyntax.Drafted ⟨name, items ++ [.column { c with clauses := clauses }]⟩ s names comment
        (clauses.foldl (ClauseSyntax.apply s (columnsOf items).length) (d.addColumn c))) := by
  induction clauses using List.reverseRecOn with
  | nil =>
    have hadmitted : (ItemSyntax.column { c with clauses := [] }).Admitted s name items :=
      (admitted_column hvalid rfl).2 hfresh
    have hbegun := h.addColumn (c := { c with clauses := [] }) rfl
    exact ⟨iff_of_true trivial (valid_concat.2 ⟨hvalid, hadmitted⟩), fun _ => hbegun⟩
  | append_singleton clauses clause ih =>
    obtain ⟨hall, hdrafted⟩ := ih
    have hprefix : namesOf (items ++ [.column { c with clauses := clauses }]) <+: names := by
      simpa [ItemSyntax.column?] using hnames
    rw [allAccepted_concat, hall, List.foldl_concat]
    -- A definition that is valid with the clause is valid without it, so that its draft is there.
    have hlast : (TableSyntax.Valid ⟨name, items ++ [.column { c with clauses := clauses }]⟩ s ∧
        clause.Accepted s
          (clauses.foldl (ClauseSyntax.apply s (columnsOf items).length) (d.addColumn c))) ↔
        TableSyntax.Valid
          ⟨name, items ++ [.column { c with clauses := clauses ++ [clause] }]⟩ s := by
      constructor
      · rintro ⟨hbefore, haccepted⟩
        have hadmitted := (valid_concat.1 hbefore).2
        exact valid_concat.2
          ⟨hvalid, ((hdrafted hbefore).accepted_clause hadmitted).1 haccepted⟩
      · intro hwhole
        have hwith := (valid_concat.1 hwhole).2
        have hadmitted :=
          ((admitted_withClause (c := { c with clauses := clauses }) names).1 hwith).1
        have hbefore := valid_concat.2 ⟨hvalid, hadmitted⟩
        exact ⟨hbefore, ((hdrafted hbefore).accepted_clause hadmitted).2 hwith⟩
    refine ⟨hlast, fun hwhole => ?_⟩
    obtain ⟨hbefore, haccepted⟩ := hlast.2 hwhole
    exact (hdrafted hbefore).clause hprefix haccepted

/-- An item is admitted exactly if it keeps the definition valid, and then the draft becomes that of
the definition with the item. -/
theorem accepted_item (h : TableSyntax.Drafted ⟨name, items⟩ s names comment d)
    (hvalid : TableSyntax.Valid ⟨name, items⟩ s) {x : ItemSyntax}
    (hnames : namesOf (items ++ [x]) <+: names) :
    (x.Accepted s d ↔ TableSyntax.Valid ⟨name, items ++ [x]⟩ s) ∧
      (TableSyntax.Valid ⟨name, items ++ [x]⟩ s →
        TableSyntax.Drafted ⟨name, items ++ [x]⟩ s names comment (x.apply s d)) := by
  cases x with
  | column c =>
    have hprefix : namesOf items ++ [c.name] <+: names := by
      simpa [ItemSyntax.column?] using hnames
    have hclauses := fun hfresh => allAccepted_clauses h hvalid (c := c) hfresh hprefix c.clauses
    rw [ItemSyntax.Accepted, ItemSyntax.apply, h.length_columns, h.names_eq]
    refine ⟨?_, fun hwhole => (hclauses ((valid_concat.1 hwhole).2.fresh c rfl)).2 hwhole⟩
    constructor
    · rintro ⟨hknown, hfresh, hall⟩
      exact (hclauses ⟨hknown, hfresh⟩).1.1 hall
    · intro hwhole
      have hfresh := (valid_concat.1 hwhole).2.fresh c rfl
      exact ⟨hfresh.1, hfresh.2, (hclauses hfresh).1.2 hwhole⟩
  | constraint c =>
    have hprefix : namesOf items <+: names := by simpa [ItemSyntax.column?] using hnames
    have haccepted : c.rule.Accepted d ↔ TableSyntax.Valid ⟨name, items ++ [.constraint c]⟩ s := by
      rw [valid_concat, admitted_constraint hvalid h]
      exact (and_iff_right hvalid).symm
    exact ⟨haccepted, fun hwhole => h.constraint hprefix (haccepted.2 hwhole)⟩

/-- The items of a definition under a free name are admitted one after the other exactly if the
definition is valid, and then the draft is that of the definition. -/
theorem allAccepted_items (comment : String)
    (hfree : ∀ u ∈ s.tables, s.sameName u.name name = false)
    (hnames : namesOf items <+: names) :
    (AllAccepted (ItemSyntax.Accepted s) (ItemSyntax.apply s) (.initial s name comment) items ↔
      TableSyntax.Valid ⟨name, items⟩ s) ∧
    (TableSyntax.Valid ⟨name, items⟩ s →
      TableSyntax.Drafted ⟨name, items⟩ s names comment
        (items.foldl (ItemSyntax.apply s) (.initial s name comment))) := by
  induction items using List.reverseRecOn with
  | nil =>
    have hvalid : TableSyntax.Valid ⟨name, []⟩ s := by
      refine ⟨hfree, .nil, fun _ h => ?_, Nat.zero_le _, fun before x h => ?_, fun _ h => ?_,
        fun _ h => ?_⟩
      · cases h
      · simp at h
      · cases h
      · cases h
    exact ⟨iff_of_true trivial hvalid, fun _ => ⟨rfl, rfl⟩⟩
  | append_singleton items x ih =>
    have hprefix : namesOf items <+: names := by
      rw [namesOf_concat] at hnames
      exact (List.prefix_append ..).trans hnames
    obtain ⟨hall, hdrafted⟩ := ih hprefix
    have hx (hbefore : TableSyntax.Valid ⟨name, items⟩ s) :=
      accepted_item (hdrafted hbefore) hbefore hnames
    rw [allAccepted_concat, hall, List.foldl_concat]
    constructor
    · constructor
      · rintro ⟨hbefore, haccepted⟩
        exact (hx hbefore).1.1 haccepted
      · intro hwhole
        have hbefore := (valid_concat.1 hwhole).1
        exact ⟨hbefore, (hx hbefore).1.2 hwhole⟩
    · exact fun hwhole => (hx (valid_concat.1 hwhole).1).2 hwhole

end Valid

end SqlCatalog
