import SqlCatalog.Proofs.Catalog.TableGrammar
import SqlCatalog.Proofs.Definition.ClauseRuns
import SqlCatalog.Proofs.Query.NewRows

/-!
# The order of the clauses of a column

A column takes at most one thing from the clauses of each kind, so that their order is no matter if
no kind occurs twice: the table is admitted in every order and is the same, but for the order of its
constraints.

## Main statements

* `TableSyntax.Valid.reordered` and `TableSyntax.addedTo_reordered`: what a table definition says in
  other orders of its clauses.
* `clause_order_irrelevant`: statements that differ in the order of clauses.
-/

namespace SqlCatalog

/-! ## Clauses of a kind -/

namespace ClauseSyntax

variable {c : ClauseSyntax}

theorem kind_of_key? (i : Nat) (h : (c.key? i).isSome = true) : c.kind = .primaryKey := by
  cases c <;> first | rfl | cases h

theorem kind_of_default? (h : c.default?.isSome = true) : c.kind = .default := by
  cases c <;> first | rfl | cases h

theorem kind_of_sequence? (h : c.sequence?.isSome = true) : c.kind = .default := by
  cases c <;> first | rfl | cases h

theorem kind_of_target? (h : c.target?.isSome = true) : c.kind = .references := by
  cases c <;> first | rfl | cases h

theorem kind_of_action? (h : c.action?.isSome = true) : c.kind = .onDelete := by
  cases c <;> first | rfl | cases h

end ClauseSyntax

section Clauses

variable {β : Type} {f : ClauseSyntax → Option β} {kind : ClauseKind} {cs cs' : List ClauseSyntax}

/-- One clause at most is of a kind that occurs once. -/
theorem length_filterMap_le_one (hf : ∀ c, (f c).isSome = true → c.kind = kind)
    (hnodup : (cs.map ClauseSyntax.kind).Nodup) : (cs.filterMap f).length ≤ 1 := by
  induction cs with
  | nil => simp
  | cons c cs ih =>
    obtain ⟨hnew, hrest⟩ := List.nodup_cons.1 hnodup
    cases hc : f c with
    | none => simpa [hc] using ih hrest
    | some b =>
      have hnone : cs.filterMap f = [] := by
        refine List.filterMap_eq_nil_iff.2 fun d hd => ?_
        refine Option.not_isSome_iff_eq_none.1 fun hsome => ?_
        have hsame : d.kind = c.kind := (hf d hsome).trans (hf c (by simp [hc])).symm
        exact hnew (hsame ▸ List.mem_map_of_mem hd)
      simp [hc, hnone]

/-- What clauses of one kind give does not depend on the order of the clauses. -/
theorem filterMap_eq_of_perm (hf : ∀ c, (f c).isSome = true → c.kind = kind)
    (hnodup : (cs.map ClauseSyntax.kind).Nodup) (hperm : cs.Perm cs') :
    cs.filterMap f = cs'.filterMap f := by
  have hone := length_filterMap_le_one hf hnodup
  have hsame := hperm.filterMap f
  match hcs : cs.filterMap f, hone with
  | [], _ =>
    rw [hcs] at hsame
    exact hsame.nil_eq
  | [b], _ =>
    rw [hcs] at hsame
    exact List.singleton_perm.1 hsame

end Clauses

/-! ## Items -/

/-- The columns have one name and one type, and are one column of a table. -/
structure ColumnSyntax.Same (c c' : ColumnSyntax) : Prop where
  name : c.name = c'.name
  type : c.type = c'.type
  column : ∀ (s : Schema) (own : String) (i : Nat), c.column s own i = c'.column s own i

namespace ItemSyntax.Reordered

variable {x y : ItemSyntax}

/-- What is a column stays one when its clauses are reordered. -/
theorem length_column? (h : x.Reordered y) :
    x.column?.toList.length = y.column?.toList.length := by
  cases h <;> rfl

theorem mem_clauses_iff (h : x.Reordered y) {c : ClauseSyntax} : c ∈ x.clauses ↔ c ∈ y.clauses := by
  cases h with
  | same => rfl
  | clauses _ hperm => exact hperm.mem_iff

theorem mem_mentions_iff (h : x.Reordered y) {n : String} : n ∈ x.mentions ↔ n ∈ y.mentions := by
  cases h with
  | same => rfl
  | clauses _ hperm => exact (hperm.flatMap_right _).mem_iff

/-- Reordering keeps the primary keys, since a column has at most one among its clauses. -/
theorem keys_eq (h : x.Reordered y) (names : List String) (i : Nat) :
    x.keys names i = y.keys names i := by
  cases h with
  | same => rfl
  | clauses hnodup hperm =>
    exact filterMap_eq_of_perm (fun c => ClauseSyntax.kind_of_key? i) hnodup hperm

/-- Reordering keeps the uses of sequences, since a column has at most one default. -/
theorem users_eq (h : x.Reordered y) (s : Schema) (i : Nat) : x.users s i = y.users s i := by
  cases h with
  | same => rfl
  | clauses hnodup hperm =>
    have hsequences := filterMap_eq_of_perm (fun c => ClauseSyntax.kind_of_sequence?) hnodup hperm
    exact congrArg (List.map fun q => (s.sequenceId q, i)) hsequences

/-- Reordered clauses make the same constraints, in another order. -/
theorem constraints_perm (h : x.Reordered y) (names : List String) (i : Nat) :
    (x.constraints names i).Perm (y.constraints names i) := by
  cases h with
  | same => rfl
  | clauses _ hperm => exact hperm.filterMap _

/-- Reordered clauses make the same column, since no kind of them occurs twice. -/
theorem column_same {n : String} {type : ColumnType} {cs cs' : List ClauseSyntax}
    (hnodup : (cs.map ClauseSyntax.kind).Nodup) (hperm : cs.Perm cs') :
    ColumnSyntax.Same ⟨n, type, cs⟩ ⟨n, type, cs'⟩ where
  name := rfl
  type := rfl
  column s own i := by
    have hdefault := filterMap_eq_of_perm (fun c => ClauseSyntax.kind_of_default?) hnodup hperm
    have htarget := filterMap_eq_of_perm (fun c => ClauseSyntax.kind_of_target?) hnodup hperm
    have haction := filterMap_eq_of_perm (fun c => ClauseSyntax.kind_of_action?) hnodup hperm
    simp only [ColumnSyntax.column, hdefault, htarget, haction]

end ItemSyntax.Reordered

/-! ## Bodies -/

section Bodies

variable {items items' : List ItemSyntax}

/-- What is put together along reordered parts is related if it is for each of them. -/
theorem flatMap_placed_related {β : Type} {R : List β → List β → Prop} (hnil : R [] [])
    (happend : ∀ {a b c d}, R a b → R c d → R (a ++ c) (b ++ d)) {f : Nat → ItemSyntax → List β}
    (hf : ∀ (i : Nat) (x y : ItemSyntax), x.Reordered y → R (f i x) (f i y))
    (h : List.Forall₂ ItemSyntax.Reordered items items') (i : Nat) :
    R ((placed i items).flatMap fun p => f p.1 p.2)
      ((placed i items').flatMap fun p => f p.1 p.2) := by
  induction h generalizing i with
  | nil => exact hnil
  | cons hxy _ ih =>
    rw [placed, placed, List.flatMap_cons, List.flatMap_cons, hxy.length_column?]
    exact happend (hf i _ _ hxy) (ih _)

/-- Bodies with reordered clauses declare the same columns. -/
theorem columnsOf_same (h : List.Forall₂ ItemSyntax.Reordered items items') :
    List.Forall₂ ColumnSyntax.Same (columnsOf items) (columnsOf items') := by
  induction h with
  | nil => exact .nil
  | @cons x y items items' hxy _ ih =>
    cases hxy with
    | same =>
      cases x with
      | column c => exact .cons ⟨rfl, rfl, fun _ _ _ => rfl⟩ ih
      | constraint c => exact ih
    | clauses hnodup hperm => exact .cons (ItemSyntax.Reordered.column_same hnodup hperm) ih

theorem namesOf_eq (h : List.Forall₂ ItemSyntax.Reordered items items') :
    namesOf items = namesOf items' := by
  have hmap : List.Forall₂ (fun c c' : ColumnSyntax => c.name = c'.name) (columnsOf items)
      (columnsOf items') := (columnsOf_same h).imp fun _ _ hc => hc.name
  rw [namesOf, namesOf, ← List.forall₂_eq_eq_eq, List.forall₂_map_left_iff,
    List.forall₂_map_right_iff]
  exact hmap

namespace TableSyntax

variable {name comment : String} {s : Schema}

/-- Bodies with reordered clauses declare the same primary keys. -/
theorem keys_reordered (h : List.Forall₂ ItemSyntax.Reordered items items') (names : List String) :
    keys ⟨name, items⟩ names = keys ⟨name, items'⟩ names :=
  flatMap_placed_related rfl (fun h h' => by rw [h, h'])
    (fun i _ _ hxy => hxy.keys_eq names i) h 0

/-- Bodies with reordered clauses use the same sequences. -/
theorem users_reordered (h : List.Forall₂ ItemSyntax.Reordered items items') :
    users ⟨name, items⟩ s = users ⟨name, items'⟩ s :=
  flatMap_placed_related rfl (fun h h' => by rw [h, h']) (fun i _ _ hxy => hxy.users_eq s i) h 0

/-- Bodies with reordered clauses declare the same constraints, in another order. -/
theorem constraints_reordered (h : List.Forall₂ ItemSyntax.Reordered items items')
    (names : List String) :
    (constraints ⟨name, items⟩ names).Perm (constraints ⟨name, items'⟩ names) :=
  flatMap_placed_related .nil .append (fun i _ _ hxy => hxy.constraints_perm names i) h 0

/-- The tables of bodies with reordered clauses differ in the order of their constraints only. -/
theorem table_reordered (h : List.Forall₂ ItemSyntax.Reordered items items') :
    table ⟨name, items'⟩ s comment = { table ⟨name, items⟩ s comment with
      constraints := constraints ⟨name, items'⟩ (namesOf items') } := by
  have hcolumns : (columnsOf items').mapIdx (fun i c => c.column s name i) =
      (columnsOf items).mapIdx fun i c => c.column s name i :=
    (mapIdx_eq_of_forall₂ (fun i _ _ hc => hc.column s name i) (columnsOf_same h)).symm
  simp only [table, tableOver, hcolumns, ← keys_reordered h, namesOf_eq h]

/-- The schema has the same table, but for the order of its constraints. -/
theorem addedTo_reordered (h : List.Forall₂ ItemSyntax.Reordered items items') :
    addedTo ⟨name, items'⟩ s comment = { addedTo ⟨name, items⟩ s comment with
      tables := s.tables ++ [{ table ⟨name, items⟩ s comment with
        constraints := constraints ⟨name, items'⟩ (namesOf items') }] } := by
  rw [addedTo, table_reordered h, ← users_reordered h]
  rfl

/-- A valid definition stays valid when its clauses are reordered. -/
theorem Valid.reordered (h : List.Forall₂ ItemSyntax.Reordered items items')
    (hvalid : Valid ⟨name, items⟩ s) : Valid ⟨name, items'⟩ s where
  free := hvalid.free
  distinct := namesOf_eq h ▸ hvalid.distinct
  types c' hc' := by
    obtain ⟨c, hc, hsame⟩ := exists_of_mem_of_forall₂ (columnsOf_same h) hc'
    exact hsame.type ▸ hvalid.types c hc
  key := by
    have hkey := hvalid.key
    rwa [keys_reordered h, namesOf_eq h] at hkey
  columns before' x' hbefores n hn := by
    obtain ⟨before, x, hbefore, hrelated, hx⟩ := exists_prefix_of_forall₂ h hbefores
    rw [← namesOf_eq hrelated]
    exact hvalid.columns before x hbefore n (hx.mem_mentions_iff.2 hn)
  sequences x' hx' q hq := by
    obtain ⟨x, hx, hsame⟩ := exists_of_mem_of_forall₂ h hx'
    obtain ⟨clause, hclause, hq⟩ := List.mem_filterMap.1 hq
    exact hvalid.sequences x hx q
      (List.mem_filterMap.2 ⟨clause, hsame.mem_clauses_iff.2 hclause, hq⟩)
  targets x' hx' r hr := by
    obtain ⟨x, hx, hsame⟩ := exists_of_mem_of_forall₂ h hx'
    obtain ⟨clause, hclause, hr⟩ := List.mem_filterMap.1 hr
    exact hvalid.targets x hx r
      (List.mem_filterMap.2 ⟨clause, hsame.mem_clauses_iff.2 hclause, hr⟩)

end TableSyntax

end Bodies

/-! ## Columns that need a value -/

section NeedsValue

variable {items : List ItemSyntax} {s : Schema} {name comment : String}

/-- A valid definition makes a table whose columns have distinct names. -/
theorem TableSyntax.Valid.distinct_table {t : TableSyntax} (h : t.Valid s) (comment : String) :
    (t.table s comment).Distinct := by
  rw [Table.Distinct, ← Table.names, table, names_tableOver]
  exact h.distinct

variable (s comment) in
/-- The columns of the table stand where they are declared. -/
theorem TableSyntax.getElem?_columns_table {t : TableSyntax} {c : ColumnSyntax} {i : Nat}
    (h : (columnsOf t.items)[i]? = some c) :
    (t.table s comment).columns[i]? = some (c.column s t.name i) := by
  rw [table, tableOver, List.getElem?_mapIdx, h]
  rfl

/-- The columns of a body are those among its parts. -/
theorem mem_columnsOf_iff {c : ColumnSyntax} : c ∈ columnsOf items ↔ .column c ∈ items := by
  rw [columnsOf, List.mem_filterMap]
  constructor
  · rintro ⟨x, hx, hc⟩
    cases x with
    | column c' =>
      obtain rfl := Option.some.inj hc
      exact hx
    | constraint => cases hc
  · exact fun hc => ⟨_, hc, rfl⟩

/-- The parts of a body are placed at the places of its columns. -/
theorem mem_placed_column_iff {c : ColumnSyntax} {i j : Nat} :
    (j, .column c) ∈ placed i items ↔ ∃ k, j = i + k ∧ (columnsOf items)[k]? = some c := by
  induction items generalizing i with
  | nil => simp [placed, columnsOf]
  | cons x items ih =>
    rw [placed, List.mem_cons, ih]
    cases x with
    | column c' =>
      show _ ∨ (∃ k, j = i + 1 + k ∧ _) ↔ _
      constructor
      · rintro (heq | ⟨k, rfl, hk⟩)
        · obtain ⟨rfl, hc⟩ := Prod.mk.inj heq
          obtain rfl := ItemSyntax.column.inj hc
          exact ⟨0, rfl, rfl⟩
        · exact ⟨k + 1, by omega, hk⟩
      · rintro ⟨_ | k, rfl, hk⟩
        · obtain rfl := Option.some.inj hk
          exact .inl rfl
        · exact .inr ⟨k, by omega, hk⟩
    | constraint c' =>
      exact or_iff_right (fun heq => by cases (Prod.mk.inj heq).2)

/-- Only `NOT NULL` makes a column's constraint not to be null. -/
theorem ClauseSyntax.constraint?_eq_notNull_iff {clause : ClauseSyntax} {names : List String}
    {i j : Nat} : clause.constraint? names i = some (.notNull j) ↔ clause = .notNull ∧ i = j := by
  cases clause <;> simp [constraint?]

/-- A table keeps a column from being null where a clause of the column says so. -/
theorem notNull_mem_constraints_iff {names : List String} {i : Nat} :
    .notNull i ∈ TableSyntax.constraints ⟨name, items⟩ names ↔
      ∃ c, (columnsOf items)[i]? = some c ∧ .notNull ∈ c.clauses := by
  rw [TableSyntax.constraints, List.mem_flatMap]
  constructor
  · rintro ⟨⟨j, x⟩, hx, hmem⟩
    cases x with
    | column c =>
      obtain ⟨clause, hclause, hsome⟩ := List.mem_filterMap.1 hmem
      obtain ⟨rfl, rfl⟩ := ClauseSyntax.constraint?_eq_notNull_iff.1 hsome
      obtain ⟨k, hk, hc⟩ := mem_placed_column_iff.1 hx
      exact ⟨c, by rwa [hk, Nat.zero_add], hclause⟩
    | constraint c =>
      cases hrule : c.rule <;>
        simp [ItemSyntax.constraints, RuleSyntax.constraint?, hrule] at hmem
  · rintro ⟨c, hc, hclause⟩
    refine ⟨(i, .column c), mem_placed_column_iff.2 ⟨i, (Nat.zero_add i).symm, hc⟩, ?_⟩
    exact List.mem_filterMap.2 ⟨_, hclause, ClauseSyntax.constraint?_eq_notNull_iff.2 ⟨rfl, rfl⟩⟩

theorem notNull_mem_kinds_iff {cs : List ClauseSyntax} :
    .notNull ∈ cs.map ClauseSyntax.kind ↔ .notNull ∈ cs := by
  rw [List.mem_map]
  constructor
  · rintro ⟨c, hc, hkind⟩
    cases c with
    | notNull => exact hc
    | _ => cases hkind
  · exact fun hc => ⟨_, hc, rfl⟩

/-- A column has no default if no clause gives it one. -/
theorem default_column_eq_none_iff {c : ColumnSyntax} {own : String} {i : Nat} :
    (c.column s own i).default = none ↔ .default ∉ c.clauses.map ClauseSyntax.kind := by
  rw [ColumnSyntax.column, Option.map_eq_none_iff, List.getLast?_eq_none_iff,
    List.filterMap_eq_nil_iff, List.mem_map, not_exists]
  refine forall_congr' fun clause => ?_
  rw [not_and]
  refine imp_congr_right fun _ => ?_
  cases clause <;> simp [ClauseSyntax.default?, ClauseSyntax.kind]

variable (s name comment) in
/-- A column needs a value exactly if a clause keeps it from being null and none gives a default. -/
theorem needsValue_column_iff {c : ColumnSyntax} {i : Nat} (hc : (columnsOf items)[i]? = some c) :
    (TableSyntax.table ⟨name, items⟩ s comment).needsValue (c.column s name i) = true ↔
      .notNull ∈ c.clauses.map ClauseSyntax.kind ∧ .default ∉ c.clauses.map ClauseSyntax.kind := by
  rw [Table.needsValue_iff, Table.Demands, default_column_eq_none_iff, notNull_mem_kinds_iff]
  refine and_congr_left fun _ => notNull_mem_constraints_iff.trans ?_
  constructor
  · rintro ⟨d, hd, hnotNull⟩
    obtain rfl := Option.some.inj (hc.symm.trans hd)
    exact hnotNull
  · exact fun hnotNull => ⟨c, hc, hnotNull⟩

end NeedsValue

/-! ## Statements -/

section Statements

variable {s s' : Schema} {a b : Statement} {name : String} {body body' : List Token} {id : TableId}

/-- Reordered tokens spell reordered parts. -/
theorem exists_spelled_of_reordered {items : List ItemSyntax} {parts parts' : List (List Token)}
    (h : List.Forall₂ ItemSyntax.Spelled items parts)
    (hparts : List.Forall₂ Reordered parts parts') :
    ∃ items', List.Forall₂ ItemSyntax.Reordered items items' ∧
      List.Forall₂ ItemSyntax.Spelled items' parts' := by
  induction h generalizing parts' with
  | nil => exact ⟨[], .nil, List.forall₂_nil_left_iff.1 hparts ▸ .nil⟩
  | cons hx _ ih =>
    obtain ⟨part', more', hpart, hmore, rfl⟩ := List.forall₂_cons_left_iff.1 hparts
    obtain ⟨x', hx', hspelled⟩ := spelled_of_reordered hpart hx
    obtain ⟨items', hitems', hrest⟩ := ih hmore
    exact ⟨x' :: items', .cons hx' hitems', .cons hspelled hrest⟩

/-- A table definition that is accepted is spelled by what stands between its commas. -/
theorem items_of_into_compileTable (ha : readTableHead (Token.flatten a) = .ok (name, body))
    (h : (compileTable a).into s = (.ok id, s')) :
    ∃ items, List.Forall₂ ItemSyntax.Spelled items (body.splitOnP (Token.isMark ',')) ∧
      TableSyntax.Valid ⟨name, items⟩ s ∧ id = s.tables.length ∧
        s' = TableSyntax.addedTo ⟨name, items⟩ s (leadingComment a) := by
  obtain ⟨⟨n, items⟩, hspelled, hvalid, hid, hs'⟩ := spelled_of_into_compileTable h
  obtain ⟨body', hhead, hitems⟩ := spelled_iff.1 hspelled
  obtain ⟨rfl, rfl⟩ := Prod.mk.inj (Except.ok.inj (hhead.symm.trans ha))
  exact ⟨items, spellsItems_iff.1 hitems, hvalid, hid, hs'⟩

/-- A table definition that is accepted is accepted in every order of its clauses. -/
theorem into_compileTable_of_reordered (ha : readTableHead (Token.flatten a) = .ok (name, body))
    (hb : readTableHead (Token.flatten b) = .ok (name, body'))
    (hcomment : leadingComment a = leadingComment b)
    (hparts : List.Forall₂ Reordered (body.splitOnP (Token.isMark ','))
      (body'.splitOnP (Token.isMark ',')))
    (h : (compileTable a).into s = (.ok id, s')) :
    ∃ table constraints, s'.tables = s.tables ++ [table] ∧ table.constraints.Perm constraints ∧
      (compileTable b).into s = (.ok id,
        { s' with tables := s.tables ++ [{ table with constraints := constraints }] }) := by
  obtain ⟨items, hitems, hvalid, rfl, rfl⟩ := items_of_into_compileTable ha h
  obtain ⟨items', hreordered, hitems'⟩ := exists_spelled_of_reordered hitems hparts
  have hspelled : TableSyntax.Spelled ⟨name, items'⟩ (Token.flatten b) :=
    spelled_iff.2 ⟨body', hb, spellsItems_iff.2 hitems'⟩
  have hperm : (TableSyntax.constraints ⟨name, items⟩ (namesOf items)).Perm
      (TableSyntax.constraints ⟨name, items'⟩ (namesOf items)) :=
    TableSyntax.constraints_reordered hreordered _
  refine ⟨_, _, rfl, hperm, ?_⟩
  rw [into_compileTable_of_spelled hspelled (hvalid.reordered hreordered),
    TableSyntax.addedTo_reordered hreordered, ← namesOf_eq hreordered, hcomment]

/-- A column of a table that is accepted is found by its name, and needs a value exactly if a clause
keeps it from being null and none gives a default. -/
theorem needsValue_of_into_compileTable (ha : readTableHead (Token.flatten a) = .ok (name, body))
    (h : (compileTable a).into s = (.ok id, s')) {n : String} {start : List Token}
    {kinds : List ClauseKind} {runs : List (List Token)} (hstart : BeginsColumn n start)
    (hruns : List.Forall₂ ClauseKind.Shape kinds runs)
    (hpart : start ++ runs.flatten ∈ body.splitOnP (Token.isMark ',')) :
    ∃ table c, s'.tables = s.tables ++ [table] ∧ table.columnNamed n = .ok c ∧
      (table.needsValue c = true ↔ .notNull ∈ kinds ∧ .default ∉ kinds) := by
  obtain ⟨items, hitems, hvalid, rfl, rfl⟩ := items_of_into_compileTable ha h
  obtain ⟨x, hx, hspelled⟩ := exists_of_mem_of_forall₂ hitems hpart
  obtain ⟨type, cs, rfl, -, hcs⟩ := (spelled_column_iff hstart hruns).1 hspelled
  obtain ⟨i, hi⟩ := List.mem_iff_getElem?.1 (mem_columnsOf_iff.2 hx)
  have hneeds := needsValue_column_iff s name (leadingComment a) hi
  rw [map_kind_eq hruns hcs] at hneeds
  have hcolumn :=
    TableSyntax.getElem?_columns_table s (leadingComment a) (t := ⟨name, items⟩) hi
  have hnamed := (hvalid.distinct_table (leadingComment a)).columnNamed
    (List.mem_of_getElem? hcolumn)
  exact ⟨TableSyntax.table ⟨name, items⟩ s (leadingComment a), _, rfl, hnamed, hneeds⟩

end Statements

/-- Two table definitions of one name and with the same comment, whose parts between commas are the
same but for the order of the clauses of columns, none of whose kinds occurs twice in a column, are
both accepted or both refused. Where they are accepted, they give the same schema but for the order
of the constraints of the table. A column then needs a value exactly if `NOT NULL` is among its
clauses and `DEFAULT` is not. -/
theorem clause_order_irrelevant {s : Schema} {a b : Statement} {name : String}
    {body body' : List Token} (ha : readTableHead (Token.flatten a) = .ok (name, body))
    (hb : readTableHead (Token.flatten b) = .ok (name, body'))
    (hcomment : leadingComment a = leadingComment b)
    (hparts : List.Forall₂ Reordered (body.splitOnP (Token.isMark ','))
      (body'.splitOnP (Token.isMark ','))) :
    ((∃ id s', (compileTable a).into s = (.ok id, s')) ↔
      ∃ id s', (compileTable b).into s = (.ok id, s')) ∧
    (∀ id s', (compileTable a).into s = (.ok id, s') →
      ∃ table constraints, s'.tables = s.tables ++ [table] ∧ table.constraints.Perm constraints ∧
        (compileTable b).into s = (.ok id,
          { s' with tables := s.tables ++ [{ table with constraints := constraints }] })) ∧
    ∀ id s', (compileTable a).into s = (.ok id, s') →
      ∀ n start kinds runs, BeginsColumn n start → List.Forall₂ ClauseKind.Shape kinds runs →
        start ++ runs.flatten ∈ body.splitOnP (Token.isMark ',') →
        ∃ table c, s'.tables = s.tables ++ [table] ∧ table.columnNamed n = .ok c ∧
          (table.needsValue c = true ↔ .notNull ∈ kinds ∧ .default ∉ kinds) := by
  refine ⟨⟨?_, ?_⟩, ?_, ?_⟩
  · rintro ⟨id, s', h⟩
    obtain ⟨_, _, -, -, h'⟩ := into_compileTable_of_reordered ha hb hcomment hparts h
    exact ⟨_, _, h'⟩
  · rintro ⟨id, s', h⟩
    have hback := (hparts.imp fun _ _ h => h.symm).flip
    obtain ⟨_, _, -, -, h'⟩ := into_compileTable_of_reordered hb ha hcomment.symm hback h
    exact ⟨_, _, h'⟩
  · exact fun id s' => into_compileTable_of_reordered ha hb hcomment hparts
  · exact fun id s' h n start kinds runs hstart => needsValue_of_into_compileTable ha h hstart

/-- The name and the type of a column. -/
def oneStart : List Token := [.name "x", .name "integer"]

/-- The definition of a table with one column of the given clauses. -/
def singleColumn (runs : List (List Token)) : Statement :=
  [.keyword "CREATE", .keyword "TABLE", .call [.name "t", .paren (oneStart ++ runs.flatten)]]

/-- The clauses `NOT NULL` and `DEFAULT 1`. -/
def notNullThenDefault : List (List Token) :=
  [[.keyword "NOT", .keyword "NULL"], [.keyword "DEFAULT", .integer "1"]]

/-- A table whose column may not be null and has a default is accepted in both orders of the
clauses, and the column does not need a value. -/
theorem clause_order_irrelevant_singleColumn :
    (∃ id s', (compileTable (singleColumn notNullThenDefault.reverse)).into (.empty "" .standard) =
      (.ok id, s')) ∧
    ∃ id s' table c, (compileTable (singleColumn notNullThenDefault)).into (.empty "" .standard) =
      (.ok id, s') ∧ s'.tables = [table] ∧ table.columnNamed "x" = .ok c ∧
        table.needsValue c = false := by
  have hwords : SpellsWords ["CREATE", "TABLE"] [.keyword "CREATE", .keyword "TABLE"] :=
    .cons (by decide +kernel) (.cons (by decide +kernel) .nil)
  have ha : readTableHead (Token.flatten (singleColumn notNullThenDefault)) =
      .ok ("t", oneStart ++ notNullThenDefault.flatten) :=
    readTableHead_eq_ok.2 ⟨_, hwords, .inl ⟨_, rfl, rfl⟩⟩
  have hb : readTableHead (Token.flatten (singleColumn notNullThenDefault.reverse)) =
      .ok ("t", oneStart ++ notNullThenDefault.reverse.flatten) :=
    readTableHead_eq_ok.2 ⟨_, hwords, .inl ⟨_, rfl, rfl⟩⟩
  have hstart : BeginsColumn "x" oneStart := .mk rfl (by decide +kernel)
  have hruns : List.Forall₂ ClauseKind.Shape [.notNull, .default] notNullThenDefault :=
    .cons (.mk (by decide +kernel) (.notNull (.cons (by decide +kernel) .nil)))
      (.cons (.mk (by decide +kernel) (.default _)) .nil)
  have hsplit : (oneStart ++ notNullThenDefault.flatten).splitOnP (Token.isMark ',') =
      [oneStart ++ notNullThenDefault.flatten] :=
    List.splitOnP_eq_singleton (by decide)
  have hsplit' : (oneStart ++ notNullThenDefault.reverse.flatten).splitOnP (Token.isMark ',') =
      [oneStart ++ notNullThenDefault.reverse.flatten] :=
    List.splitOnP_eq_singleton (by decide)
  have hreordered := Reordered.clauses hstart hruns (by decide) (List.reverse_perm _).symm
  obtain ⟨hiff, -, hneeds⟩ := clause_order_irrelevant (s := .empty "" .standard) ha hb rfl
    (by rw [hsplit, hsplit']; exact .cons hreordered .nil)
  have haccepted : ((compileTable (singleColumn notNullThenDefault)).into
      (.empty "" .standard)).1.isOk = true := by decide +kernel
  rcases hinto : (compileTable (singleColumn notNullThenDefault)).into (.empty "" .standard) with
    ⟨e | id, s'⟩
  · rw [hinto] at haccepted
    cases haccepted
  · obtain ⟨table, c, htable, hc, hvalue⟩ :=
      hneeds id s' hinto "x" _ _ _ hstart hruns (by simp [hsplit])
    refine ⟨hiff.1 ⟨id, s', hinto⟩, id, s', table, c, rfl, htable, hc, ?_⟩
    exact Bool.eq_false_iff.2 fun htrue => (hvalue.1 htrue).2 (by decide)

end SqlCatalog
