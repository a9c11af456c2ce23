import SqlCatalog.Definition.Table
import SqlCatalog.Proofs.Catalog.Names

/-!
# How a draft grows

Reading a part of a body does one thing to the draft, out of a few: it adds a column, a constraint
or the primary key, or it gives the column that is being read a default, a reference or an action.
Places of columns are found by name or are the place of that column, so they are never beyond the
columns that were read. What holds of a body follows by induction on its parts.

## Main definitions

* `DefaultLog` lists the defaults that clauses declare: `declaredDefaults` those of a body,
  `Schema.tableDefaults` those of a table definition.
* `DraftStep` is what reading a part of a body does to a draft, `DraftRun` what reading parts does.

## Main statements

* `draftStep_of_readBodyStep`: reading a part of a body is such a step.
* `draftRun_of_readBody` and `draftRun_of_readTable`: reading a body is a run of steps.
-/

namespace SqlCatalog

/-! ## Places that are read -/

section Places

variable {t : Table}

/-- The places that names are read as are places of columns. -/
theorem readColumns_lt {inner : List Token} {is : List Nat} (h : t.readColumns inner = .ok is) :
    ∀ i ∈ is, i < t.columns.length := by
  obtain ⟨names, -, h⟩ := bind_eq_ok.1 h
  exact Table.columnIndexes_lt (fromCatalog_eq_ok.1 h)

/-- The columns of operands that are columns are these columns. -/
theorem columnsAll_map_column (is : List Nat) :
    CheckExpr.columnsAll (is.map .column) = is := by
  induction is with
  | nil => rfl
  | cons i is ih => simp [CheckExpr.columnsAll, CheckExpr.columns, ih]

/-- An operand mentions columns of the table only. -/
theorem readOperand_lt {token : Token} {e : CheckExpr} (h : readOperand t token = .ok e) :
    ∀ i ∈ e.columns, i < t.columns.length := by
  have column {n : String} (h : CheckExpr.column <$> fromCatalog (t.columnIndex n) = .ok e) :
      ∀ i ∈ e.columns, i < t.columns.length := by
    obtain ⟨j, hj, rfl⟩ := map_eq_ok.1 h
    simpa [CheckExpr.columns] using Table.columnIndex_lt (fromCatalog_eq_ok.1 hj)
  unfold readOperand at h
  split at h
  · split at h
    · exact column h
    · cases h
  · split at h
    · exact column h
    · cases h
  · obtain ⟨⟨name, arguments⟩, -, h⟩ := bind_eq_ok.1 h
    obtain ⟨is, his, h⟩ := bind_eq_ok.1 h
    obtain rfl : CheckExpr.call name (is.map .column) = e := by
      simpa [pure, Except.pure] using h
    rw [CheckExpr.columns, columnsAll_map_column]
    exact readColumns_lt his
  · obtain ⟨value, -, rfl⟩ := map_eq_ok.1 h
    simp [CheckExpr.columns]

theorem readNextOperand_lt {ts : List Token} {r : CheckExpr × List Token}
    (h : readNextOperand t ts = .ok r) : ∀ i ∈ r.1.columns, i < t.columns.length := by
  cases ts with
  | nil => cases h
  | cons token ts =>
    obtain ⟨e, he, rfl⟩ := map_eq_ok.1 h
    exact readOperand_lt he

/-- A check is about columns that were read. -/
theorem readCheck_lt {inner : List Token} {e : CheckExpr} (h : readCheck t inner = .ok e) :
    ∀ i ∈ e.columns, i < t.columns.length := by
  obtain ⟨⟨lhs, rest⟩, hlhs, h⟩ := bind_eq_ok.1 h
  dsimp only at h
  split at h
  · obtain ⟨⟨rhs, rest'⟩, hrhs, h⟩ := bind_eq_ok.1 h
    dsimp only at h
    split at h
    · obtain rfl := Except.ok.inj h
      intro i hi
      rcases List.mem_append.1 hi with hi | hi
      · exact readNextOperand_lt hlhs i hi
      · exact readNextOperand_lt hrhs i hi
    · cases h
  · cases h

end Places

/-! ## Declared defaults -/

/-- The defaults that clauses declare, in their order and with the places of their columns. -/
abbrev DefaultLog := List (Nat × DefaultValue)

/-- The default that the clause beginning with `t` declares, with the place of its column. -/
def declaredDefault (s : Schema) (place : BodyPlace) (t : Token) (ts : List Token) : DefaultLog :=
  match place, ts with
  | .column i, value :: _ =>
    if t.isKeyword "DEFAULT" then
      match unwrapDefault value >>= readDefaultValue s with
      | .ok value => [(i, value)]
      | .error _ => []
    else []
  | _, _ => []

/-- The defaults that the clauses of a body declare, as far as it is read. -/
def declaredDefaults (s : Schema) (d : Draft) (place : BodyPlace) (ts : List Token) : DefaultLog :=
  match ts with
  | [] => []
  | t :: ts =>
    match _h : readBodyStep s d place t ts with
    | .error _ => []
    | .ok step =>
      declaredDefault s place t ts ++
        match step.next with
        | none => []
        | some place => declaredDefaults s step.draft place step.rest
termination_by ts.length
decreasing_by exact Nat.lt_succ_of_le (length_of_readBodyStep _h)

/-- The defaults of a body are those of its first clause, then those of what is read after it. -/
theorem declaredDefaults_cons (s : Schema) (d : Draft) (place : BodyPlace) (t : Token)
    (ts : List Token) :
    declaredDefaults s d place (t :: ts) =
      match readBodyStep s d place t ts with
      | .error _ => []
      | .ok step =>
        declaredDefault s place t ts ++
          match step.next with
          | none => []
          | some place => declaredDefaults s step.draft place step.rest := by
  rw [declaredDefaults]
  split <;> simp only [*]

/-- Reading a body is reading its first part, then what is left in the place where that part
ended. -/
theorem readBody_cons (s : Schema) (d : Draft) (place : BodyPlace) (t : Token) (ts : List Token) :
    readBody s d place (t :: ts) =
      match readBodyStep s d place t ts with
      | .error e => (d, some e)
      | .ok step =>
        match step.next with
        | none => (step.draft, none)
        | some place => readBody s step.draft place step.rest := by
  rw [readBody]
  split
  · simp only [*]
  · rename_i step hstep
    cases hnext : step.next <;> simp only [hstep, hnext]

/-- A clause of a column is read in one step. -/
theorem readBody_modifier {s : Schema} {draft draft' : Draft} {i : Nat} {token : Token}
    {ts rest : List Token}
    (hcomma : token.isMark ',' = false)
    (h : readModifier s draft i token ts = .ok (draft', rest)) :
    readBody s draft (.column i) (token :: ts) = readBody s draft' (.column i) rest := by
  have hstep : readBodyStep s draft (.column i) token ts =
      .ok ⟨draft', some (.column i), rest⟩ := by
    rw [readBodyStep, hcomma, if_neg Bool.false_ne_true, h]
    rfl
  rw [readBody_cons, hstep]

/-! ## Steps -/

/-- What reading a part of a body does to a draft, and the defaults that the part declares. -/
inductive DraftStep (s : Schema) (d : Draft) : DefaultLog → Draft → Prop
  | skip : DraftStep s d [] d
  | column {name : String} {type : ColumnType} {t : Table}
      (hadd : d.table.addColumn name type = .ok t) : DraftStep s d [] (d.withTable t)
  | primaryKey {columns : List Nat} (hnone : d.table.primaryKey = none)
      (hcolumns : ∀ i ∈ columns, i < d.table.columns.length) :
      DraftStep s d [] (d.withTable { d.table with primaryKey := some columns })
  | constraint {c : Constraint} (hcolumns : ∀ i ∈ c.affected, i < d.table.columns.length) :
      DraftStep s d [] (d.withTable (d.table.addConstraint c))
  | default {t : Token} {i : Nat} {value : DefaultValue} (hread : readDefaultValue s t = .ok value)
      (hi : i < d.table.columns.length) : DraftStep s d [(i, value)] (d.setDefault i value)
  | reference {name : String} {target : Table} (i : Nat) (notices : List Notice)
      (hfind : d.findTable s name = .ok target) :
      DraftStep s d []
        { d with
          table := d.table.modifyColumn i fun c => { c with references := some target.id }
          notices := d.notices ++ notices }
  | onDelete (i : Nat) (action : DeleteAction) :
      DraftStep s d []
        (d.withTable (d.table.modifyColumn i fun c => { c with onDelete := some action }))

/-- What reading some parts of a body does to a draft, and the defaults that they declare. -/
inductive DraftRun (s : Schema) : Draft → DefaultLog → Draft → Prop
  | nil (d : Draft) : DraftRun s d [] d
  | cons {d d' d'' : Draft} {ds ds' : DefaultLog} (hstep : DraftStep s d ds d')
      (hrun : DraftRun s d' ds' d'') : DraftRun s d (ds ++ ds') d''

variable {s : Schema} {d d' : Draft}

/-- A primary key is set exactly when there is none yet. -/
theorem setPrimaryKey_eq_ok {columns : List Nat} {clause : Token} :
    d.setPrimaryKey columns clause = .ok d' ↔
      d.table.primaryKey = none ∧ d' = d.withTable { d.table with primaryKey := some columns } := by
  cases h : d.table.primaryKey <;> simp [Draft.setPrimaryKey, h, violated, eq_comm]

/-- A keyword that is one word is another word exactly if the two words are the same. -/
theorem isKeyword_of_isKeyword {t : Token} {word : String} (h : t.isKeyword word = true)
    (other : String) : t.isKeyword other = sameIgnoringAsciiCase word other := by
  cases t with
  | keyword k =>
    rw [Token.isKeyword, sameIgnoringAsciiCase, beq_iff_eq] at h
    rw [Token.isKeyword, sameIgnoringAsciiCase, h, ← sameIgnoringAsciiCase]
  | _ => cases h

/-- A token is not two different keywords. -/
theorem isKeyword_eq_false {t : Token} {a b : String} (ha : t.isKeyword a = true)
    (hab : sameIgnoringAsciiCase a b = false) : t.isKeyword b = false :=
  (isKeyword_of_isKeyword ha b).trans hab

/-- A part that does not begin with `DEFAULT` declares none. -/
theorem declaredDefault_eq_nil {place : BodyPlace} {t : Token} {ts : List Token}
    (ht : t.isKeyword "DEFAULT" = false) : declaredDefault s place t ts = [] := by
  unfold declaredDefault
  split
  · simp [ht]
  · rfl

/-- Reading a default sets it, and nothing else of the draft but the users of its sequence. -/
theorem draftStep_of_readDefault {i : Nat} {ts : List Token} {r : Draft × List Token}
    (hi : i < d.table.columns.length) (h : readDefault s d i ts = .ok r) :
    ∃ value rest, ts = value :: rest ∧
      ∃ v, (unwrapDefault value >>= readDefaultValue s) = .ok v ∧ DraftStep s d [(i, v)] r.1 := by
  cases ts with
  | nil => cases h
  | cons token rest =>
    obtain ⟨single, hsingle, h⟩ := bind_eq_ok.1 h
    obtain ⟨v, hv, h⟩ := bind_eq_ok.1 h
    obtain rfl := Except.ok.inj h
    exact ⟨token, rest, rfl, v, bind_eq_ok.2 ⟨single, hsingle, hv⟩, .default hv hi⟩

theorem draftStep_of_readReference {i : Nat} {ts : List Token} {r : Draft × List Token}
    (h : readReference s d i ts = .ok r) : DraftStep s d [] r.1 := by
  cases ts with
  | nil => cases h
  | cons token rest =>
    obtain ⟨name, -, h⟩ := bind_eq_ok.1 h
    obtain ⟨target, hfind, h⟩ := bind_eq_ok.1 h
    obtain rfl := Except.ok.inj h
    exact .reference i _ hfind

/-- Reading a clause of the column `i` is a step, which declares the default that it reads. -/
theorem draftStep_of_readModifier {i : Nat} {t : Token} {ts : List Token} {r : Draft × List Token}
    (hi : i < d.table.columns.length) (h : readModifier s d i t ts = .ok r) :
    DraftStep s d (declaredDefault s (.column i) t ts) r.1 := by
  -- The clause of any other keyword declares no default, since a token is one keyword at most.
  have other {word : String} (ht : t.isKeyword word = true)
      (hword : sameIgnoringAsciiCase word "DEFAULT" = false) :
      declaredDefault s (.column i) t ts = [] :=
    declaredDefault_eq_nil (isKeyword_eq_false ht hword)
  unfold readModifier at h
  split at h
  · rename_i ht
    obtain ⟨rest, -, h⟩ := bind_eq_ok.1 h
    obtain ⟨d', hkey, h⟩ := bind_eq_ok.1 h
    obtain ⟨hnone, rfl⟩ := setPrimaryKey_eq_ok.1 hkey
    obtain rfl := Except.ok.inj h
    rw [other ht (by decide +kernel)]
    exact .primaryKey hnone (by simpa using hi)
  split at h
  · rename_i ht
    obtain rfl := Except.ok.inj h
    rw [other ht (by decide +kernel)]
    exact .constraint (by simpa [Constraint.affected] using hi)
  split at h
  · rename_i ht
    obtain ⟨rest, -, h⟩ := bind_eq_ok.1 h
    obtain rfl := Except.ok.inj h
    rw [other ht (by decide +kernel)]
    exact .constraint (by simpa [Constraint.affected] using hi)
  split at h
  · rename_i ht
    obtain rfl := Except.ok.inj h
    rw [other ht (by decide +kernel)]
    exact .skip
  split at h
  · rename_i ht
    obtain ⟨⟨inner, rest⟩, -, h⟩ := bind_eq_ok.1 h
    obtain ⟨expression, hcheck, h⟩ := bind_eq_ok.1 h
    obtain rfl := Except.ok.inj h
    rw [other ht (by decide +kernel)]
    exact .constraint (readCheck_lt hcheck)
  split at h
  · rename_i ht
    obtain ⟨value, rest, rfl, v, hv, hstep⟩ := draftStep_of_readDefault hi h
    simpa [declaredDefault, ht, hv] using hstep
  split at h
  · rename_i ht
    rw [other ht (by decide +kernel)]
    exact draftStep_of_readReference h
  split at h
  · rename_i ht
    obtain ⟨⟨action, rest⟩, -, h⟩ := bind_eq_ok.1 h
    obtain rfl := Except.ok.inj h
    rw [other ht (by decide +kernel)]
    exact .onDelete i action
  · cases h

/-- Reading a constraint is a step that declares no default. -/
theorem draftStep_of_readConstraintBody {name : Option String} {kind : Token} {ts : List Token}
    {r : Draft × List Token} (h : readConstraintBody d name kind ts = .ok r) :
    DraftStep s d [] r.1 := by
  unfold readConstraintBody at h
  split at h
  · obtain ⟨rest, -, h⟩ := bind_eq_ok.1 h
    obtain ⟨⟨inner, rest⟩, -, h⟩ := bind_eq_ok.1 h
    obtain ⟨columns, hcolumns, h⟩ := bind_eq_ok.1 h
    obtain ⟨d', hkey, h⟩ := bind_eq_ok.1 h
    obtain ⟨hnone, rfl⟩ := setPrimaryKey_eq_ok.1 hkey
    obtain rfl := Except.ok.inj h
    exact .primaryKey hnone (readColumns_lt hcolumns)
  split at h
  · obtain ⟨⟨inner, rest⟩, -, h⟩ := bind_eq_ok.1 h
    obtain ⟨columns, hcolumns, h⟩ := bind_eq_ok.1 h
    obtain rfl := Except.ok.inj h
    exact .constraint (readColumns_lt hcolumns)
  split at h
  · obtain ⟨⟨inner, rest⟩, -, h⟩ := bind_eq_ok.1 h
    obtain ⟨expression, hcheck, h⟩ := bind_eq_ok.1 h
    obtain rfl := Except.ok.inj h
    exact .constraint (readCheck_lt hcheck)
  · cases h

/-- Whether the place is before an item or inside a column of the table. -/
def BodyPlace.Within (t : Table) : BodyPlace → Prop
  | item => True
  | column i => i < t.columns.length

/-- After a constraint the draft is as it was, and only an item can follow. -/
theorem afterConstraint_ok {ts : List Token} {r : BodyStep} (h : afterConstraint d ts = .ok r) :
    r.draft = d ∧ ∀ place ∈ r.next, place = .item := by
  unfold afterConstraint at h
  split at h
  · obtain rfl := Except.ok.inj h
    simp
  · split at h
    · obtain rfl := Except.ok.inj h
      simp
    · cases h

/-- Reading the beginning of an item is a step, after which the place is inside the table. -/
theorem draftStep_of_readItem {t : Token} {ts : List Token} {r : BodyStep}
    (h : readItem d t ts = .ok r) :
    DraftStep s d [] r.draft ∧ ∀ place ∈ r.next, place.Within r.draft.table := by
  have start {name : String} (h : readColumnStart d name ts = .ok r) :
      DraftStep s d [] r.draft ∧ ∀ place ∈ r.next, place.Within r.draft.table := by
    obtain ⟨⟨type, rest⟩, -, h⟩ := bind_eq_ok.1 h
    obtain ⟨t, hadd, h⟩ := bind_eq_ok.1 h
    obtain rfl := Except.ok.inj h
    have hadd := fromCatalog_eq_ok.1 hadd
    refine ⟨.column hadd, fun place hplace => ?_⟩
    obtain rfl : BodyPlace.column d.table.columns.length = place := by simpa using hplace
    obtain ⟨-, rfl⟩ := Table.addColumn_ok hadd
    simp [BodyPlace.Within, Draft.withTable]
  have constraint (h : readConstraint d t ts = .ok r) :
      DraftStep s d [] r.draft ∧ ∀ place ∈ r.next, place.Within r.draft.table := by
    obtain ⟨⟨name, kind, rest⟩, -, h⟩ := bind_eq_ok.1 h
    obtain ⟨⟨d', rest'⟩, hbody, h⟩ := bind_eq_ok.1 h
    obtain ⟨hdraft, hnext⟩ := afterConstraint_ok h
    refine ⟨hdraft ▸ draftStep_of_readConstraintBody hbody, fun place hplace => ?_⟩
    rw [hnext place hplace]
    trivial
  unfold readItem at h
  split at h
  · split at h
    · exact start h
    · cases h
  · split at h
    · exact start h
    · cases h
  · exact constraint h

/-- No step takes a column away. -/
theorem DraftStep.length_le {ds : DefaultLog} (h : DraftStep s d ds d') :
    d.table.columns.length ≤ d'.table.columns.length := by
  cases h with
  | column hadd =>
    obtain ⟨-, rfl⟩ := Table.addColumn_ok hadd
    simp [Draft.withTable]
  | _ => simp [Draft.withTable, Draft.setDefault, Table.modifyColumn, Table.addConstraint]

/-- Reading a part of a body is a step, after which the reader is still at a place of the body. -/
theorem draftStep_of_readBodyStep {place : BodyPlace} {t : Token} {ts : List Token} {r : BodyStep}
    (hplace : place.Within d.table) (h : readBodyStep s d place t ts = .ok r) :
    DraftStep s d (declaredDefault s place t ts) r.draft ∧
      ∀ place ∈ r.next, place.Within r.draft.table := by
  unfold readBodyStep at h
  split at h
  · rw [show declaredDefault s .item t ts = [] from rfl]
    exact draftStep_of_readItem h
  · rename_i i
    split at h
    · rename_i hcomma
      obtain rfl := Except.ok.inj h
      have ht : t.isKeyword "DEFAULT" = false := by
        cases t with
        | keyword k => cases hcomma
        | _ => rfl
      rw [declaredDefault_eq_nil ht]
      refine ⟨.skip, fun place hnext => ?_⟩
      obtain rfl : BodyPlace.item = place := by simpa using hnext
      trivial
    · obtain ⟨⟨d', rest⟩, hmodifier, h⟩ := bind_eq_ok.1 h
      obtain rfl := Except.ok.inj h
      have hstep := draftStep_of_readModifier hplace hmodifier
      refine ⟨hstep, fun place hnext => ?_⟩
      obtain rfl : BodyPlace.column i = place := by simpa using hnext
      exact Nat.lt_of_lt_of_le hplace hstep.length_le

/-- Reading a body, as far as it goes, is a run of steps. -/
theorem draftRun_of_readBody {place : BodyPlace} (ts : List Token)
    (hplace : place.Within d.table) :
    DraftRun s d (declaredDefaults s d place ts) (readBody s d place ts).1 := by
  -- The induction is on the tokens that are left, as in the definition of `readBody`.
  induction d, place, ts using readBody.induct s with
  | case1 d =>
    rw [readBody, declaredDefaults]
    exact .nil d
  | case2 d i =>
    rw [readBody, declaredDefaults]
    exact .nil d
  | case3 d place t ts e he =>
    rw [readBody_cons, declaredDefaults_cons]
    simp only [he]
    exact .nil d
  | case4 d place t ts step hstep hnext =>
    have hdraft := (draftStep_of_readBodyStep hplace hstep).1
    rw [readBody_cons, declaredDefaults_cons]
    simp only [hstep, hnext]
    exact .cons hdraft (.nil _)
  | case5 d place t ts step hstep place' hnext ih =>
    obtain ⟨hdraft, hwithin⟩ := draftStep_of_readBodyStep hplace hstep
    rw [readBody_cons, declaredDefaults_cons]
    simp only [hstep, hnext]
    exact .cons hdraft (ih (hwithin place' hnext))

/-! ## Tables -/

/-- The draft with which reading a table definition begins. -/
def Draft.initial (s : Schema) (name comment : String) : Draft :=
  ⟨{ Table.empty s.tables.length name with comment := comment }, [], []⟩

/-- The defaults that the clauses of a table definition declare, as far as it is read. -/
def Schema.tableDefaults (s : Schema) (statement : Statement) : DefaultLog :=
  match readTableHead (Token.flatten statement) with
  | .ok (name, body) => declaredDefaults s (.initial s name (leadingComment statement)) .item body
  | .error _ => []

/-- Reading a table definition is a run of steps from a table without columns. -/
theorem draftRun_of_readTable {statement : Statement} {stopped : Option CompileError}
    (h : s.readTable statement = .ok (d, stopped)) :
    ∃ name comment, DraftRun s (.initial s name comment) (s.tableDefaults statement) d := by
  obtain ⟨⟨name, body⟩, hhead, h⟩ := bind_eq_ok.1 h
  obtain ⟨t, ht, h⟩ := bind_eq_ok.1 h
  obtain rfl := Schema.freshTable_ok (fromCatalog_eq_ok.1 ht)
  have hbody :
      readBody s (.initial s name (leadingComment statement)) .item body = (d, stopped) := by
    simpa [pure, Except.pure, Draft.initial] using h
  refine ⟨name, leadingComment statement, ?_⟩
  rw [Schema.tableDefaults, hhead, show d = (d, stopped).1 from rfl, ← hbody]
  exact draftRun_of_readBody body trivial

end SqlCatalog
