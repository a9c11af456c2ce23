import SqlCatalog.Definition.Column
import SqlCatalog.Token.Flatten

/-!
# Reading table definitions

A table definition is `CREATE TABLE`, a name and a parenthesis. The parenthesis holds columns and
constraints with commas between them. It is read one clause at a time, and what was read before a
fault is kept for the sake of its notices; the schema itself changes only when all was read.

## Main definitions

* `readTableHead` reads up to the parenthesis.
* `readItem` reads a constraint or the beginning of a column.
* `readBody` reads the parenthesis and gives what it read and what stopped it.
* `compileTable` adds the table.
-/

namespace SqlCatalog

/-! ## Heads -/

/-- The comments that a statement begins with, one to a line. -/
def leadingComment (statement : Statement) : String :=
  "\n".intercalate ((statement.takeWhile fun t => !t.isSignificant).map Token.text)

/-- Reads `CREATE TABLE`, the name and the parenthesis, which ends the statement. -/
def readTableHead (ts : List Token) : Compile (String × List Token) := do
  let rest ← readKeyword "CREATE" ts
  let rest ← readKeyword "TABLE" rest
  match rest with
  | t :: rest =>
    match t with
    | .call parts => do
      let head ← readCall "table name and body" t parts
      readEnd rest
      return head
    | .identifier _ | .name _ => do
      let (name, rest) ← readName "table name" (t :: rest)
      let (body, rest) ← readParen rest
      readEnd rest
      return (name, body)
    | _ => violated "table name" (some t)
  | [] => violated "table name" none

/-! ## Items -/

/-- Where the reader of a body stands. -/
inductive BodyPlace where
  /-- Before a column or a constraint. -/
  | item
  /-- Inside the definition of the column at this place. -/
  | column (position : Nat)
deriving DecidableEq

/-- What reading a part of a body gives: the draft, the place after it, unless the body is at its
end, and the tokens that follow. -/
structure BodyStep where
  draft : Draft
  next : Option BodyPlace
  rest : List Token

/-- Goes on after a constraint: to the end or over a comma. -/
def afterConstraint (d : Draft) : List Token → Compile BodyStep
  | [] => .ok ⟨d, none, []⟩
  | t :: ts => if t.isMark ',' then .ok ⟨d, some .item, ts⟩ else violated "',' or ')'" (some t)

/-- Reads the name of a constraint, if it has one, and the token that says its kind. -/
def readConstraintName (t : Token) (ts : List Token) :
    Compile (Option String × Token × List Token) :=
  if t.isKeyword "CONSTRAINT" then do
    let (name, rest) ← readName "constraint name" ts
    match rest with
    | [] => violated "constraint type" none
    | kind :: rest => return (some name, kind, rest)
  else .ok (none, t, ts)

/-- Reads the constraint of the given name that begins with `kind`. -/
def readConstraintBody (d : Draft) (name : Option String) (kind : Token) (ts : List Token) :
    Compile (Draft × List Token) :=
  if kind.isKeyword "PRIMARY" then do
    let rest ← readKeyword "KEY" ts
    let (inner, rest) ← readParen rest
    let columns ← d.table.readColumns inner
    let d ← d.setPrimaryKey columns kind
    return (d, rest)
  else if kind.isKeyword "UNIQUE" then do
    let (inner, rest) ← readParen ts
    let columns ← d.table.readColumns inner
    return (d.withTable (d.table.addConstraint (.unique name columns)), rest)
  else if kind.isKeyword "CHECK" then do
    let (inner, rest) ← readParen ts
    let expression ← readCheck d.table inner
    return (d.withTable (d.table.addConstraint (.check name expression)), rest)
  else violated "PRIMARY, UNIQUE or CHECK" (some kind)

/-- Reads a constraint that begins with `t`. -/
def readConstraint (d : Draft) (t : Token) (ts : List Token) : Compile BodyStep := do
  let (name, kind, rest) ← readConstraintName t ts
  let (d, rest) ← readConstraintBody d name kind rest
  afterConstraint d rest

/-- Reads the type of a column and adds the column. -/
def readColumnStart (d : Draft) (name : String) (ts : List Token) : Compile BodyStep := do
  let (type, rest) ← readColumnType ts
  let table ← fromCatalog (d.table.addColumn name type)
  return ⟨d.withTable table, some (.column d.table.columns.length), rest⟩

/-- Reads a constraint, or the name and the type of a column. -/
def readItem (d : Draft) (t : Token) (ts : List Token) : Compile BodyStep :=
  match t with
  | .identifier _ | .name _ =>
    match t.name? with
    | some name => readColumnStart d name ts
    | none => violated "column name" (some t)
  | _ => readConstraint d t ts

/-- Reads the part of a body that begins with `t`. -/
def readBodyStep (s : Schema) (d : Draft) (place : BodyPlace) (t : Token) (ts : List Token) :
    Compile BodyStep :=
  match place with
  | .item => readItem d t ts
  | .column i =>
    if t.isMark ',' then .ok ⟨d, some .item, ts⟩
    else do
      let (d, rest) ← readModifier s d i t ts
      return ⟨d, some (.column i), rest⟩

/-! ## What is left is shorter -/

/-- What may stand behind a constraint takes nothing back. -/
theorem length_of_afterConstraint {d : Draft} {ts : List Token} {r : BodyStep}
    (h : afterConstraint d ts = .ok r) : r.rest.length ≤ ts.length := by
  unfold afterConstraint at h
  split at h
  · obtain rfl := Except.ok.inj h
    simp
  · split at h
    · obtain rfl := Except.ok.inj h
      simp
    · simp [violated] at h

theorem length_of_readConstraintName {t : Token} {ts : List Token}
    {r : Option String × Token × List Token} (h : readConstraintName t ts = .ok r) :
    r.2.2.length ≤ ts.length := by
  unfold readConstraintName at h
  split at h
  · obtain ⟨⟨name, rest⟩, hn, h⟩ := bind_eq_ok.1 h
    have hn := length_of_readName hn
    dsimp only at h
    split at h
    · simp [violated] at h
    · obtain rfl := Except.ok.inj h
      simp only [List.length_cons] at hn ⊢
      omega
  · obtain rfl := Except.ok.inj h
    exact Nat.le_refl _

theorem length_of_readConstraintBody {d : Draft} {name : Option String} {kind : Token}
    {ts : List Token} {r : Draft × List Token} (h : readConstraintBody d name kind ts = .ok r) :
    r.2.length ≤ ts.length := by
  unfold readConstraintBody at h
  split at h
  · obtain ⟨rest, hk, h⟩ := bind_eq_ok.1 h
    obtain ⟨⟨inner, rest⟩, hp, h⟩ := bind_eq_ok.1 h
    obtain ⟨columns, -, h⟩ := bind_eq_ok.1 h
    obtain ⟨d', -, h⟩ := bind_eq_ok.1 h
    have hk := length_of_readKeyword hk
    have hp := length_of_readParen hp
    obtain rfl := Except.ok.inj h
    exact Nat.le_of_lt (Nat.lt_trans hp hk)
  split at h
  · obtain ⟨⟨inner, rest⟩, hp, h⟩ := bind_eq_ok.1 h
    obtain ⟨columns, -, h⟩ := bind_eq_ok.1 h
    obtain rfl := Except.ok.inj h
    exact Nat.le_of_lt (length_of_readParen hp)
  split at h
  · obtain ⟨⟨inner, rest⟩, hp, h⟩ := bind_eq_ok.1 h
    obtain ⟨expression, -, h⟩ := bind_eq_ok.1 h
    obtain rfl := Except.ok.inj h
    exact Nat.le_of_lt (length_of_readParen hp)
  · simp [violated] at h

theorem length_of_readItem {d : Draft} {t : Token} {ts : List Token} {r : BodyStep}
    (h : readItem d t ts = .ok r) : r.rest.length ≤ ts.length := by
  have start {name : String} (h : readColumnStart d name ts = .ok r) :
      r.rest.length ≤ ts.length := by
    unfold readColumnStart at h
    obtain ⟨⟨type, rest⟩, hc, h⟩ := bind_eq_ok.1 h
    obtain ⟨table, -, h⟩ := bind_eq_ok.1 h
    obtain rfl := Except.ok.inj h
    exact Nat.le_of_lt (length_of_readColumnType hc)
  have constraint (h : readConstraint d t ts = .ok r) : r.rest.length ≤ ts.length := by
    unfold readConstraint at h
    obtain ⟨⟨name, kind, rest⟩, hn, h⟩ := bind_eq_ok.1 h
    obtain ⟨⟨d', rest'⟩, hb, h⟩ := bind_eq_ok.1 h
    exact Nat.le_trans (length_of_afterConstraint h)
      (Nat.le_trans (length_of_readConstraintBody hb) (length_of_readConstraintName hn))
  unfold readItem at h
  split at h
  · split at h
    · exact start h
    · simp [violated] at h
  · split at h
    · exact start h
    · simp [violated] at h
  · exact constraint h

/-- A step through a table's body takes nothing back, so the walk over the body ends. -/
theorem length_of_readBodyStep {s : Schema} {d : Draft} {place : BodyPlace} {t : Token}
    {ts : List Token} {r : BodyStep} (h : readBodyStep s d place t ts = .ok r) :
    r.rest.length ≤ ts.length := by
  unfold readBodyStep at h
  split at h
  · exact length_of_readItem h
  · split at h
    · obtain rfl := Except.ok.inj h
      exact Nat.le_refl _
    · obtain ⟨⟨d', rest⟩, hm, h⟩ := bind_eq_ok.1 h
      obtain rfl := Except.ok.inj h
      exact length_of_readModifier hm

/-! ## Bodies -/

/-- Reads a body from a place on: the draft as far as it was read, and what stopped the reader
before the end of the body. -/
def readBody (s : Schema) (d : Draft) (place : BodyPlace) (ts : List Token) :
    Draft × Option CompileError :=
  match ts with
  | [] =>
    match place with
    | .item => (d, some (.violated "column or constraint" none))
    | .column _ => (d, none)
  | t :: ts =>
    match _h : readBodyStep s d place t ts with
    | .error e => (d, some e)
    | .ok step =>
      match step.next with
      | none => (step.draft, none)
      | some place => readBody s step.draft place step.rest
termination_by ts.length
decreasing_by exact Nat.lt_succ_of_le (length_of_readBodyStep _h)

/-! ## Tables -/

/-- Reads a table definition and its body as far as it goes. -/
def Schema.readTable (s : Schema) (statement : Statement) :
    Compile (Draft × Option CompileError) := do
  let (name, body) ← readTableHead (Token.flatten statement)
  let table ← fromCatalog (s.freshTable name)
  return readBody s ⟨{ table with comment := leadingComment statement }, [], []⟩ .item body

/-- Adds the table of a draft, and the uses of sequences in the order in which they were read. -/
def Draft.commit (d : Draft) : Compiling TableId := do
  let s ← get
  set (← fromCatalog (s.addTable d.table))
  d.users.forM fun user => modify fun s => s.addUser user.1 (d.table.id, user.2)
  return d.table.id

/-- Compiles a table definition. -/
def compileTable (statement : Statement) : Compiling TableId := do
  let s ← get
  let (d, stopped) ← s.readTable statement
  match stopped with
  | some e => throw e
  | none => d.commit

/-- The notices that compiling a table definition leaves, also when it is refused. -/
def Schema.tableNotices (s : Schema) (statement : Statement) : List Notice :=
  (Token.listLengths statement).map .openedList ++
    match s.readTable statement with
    | .error _ => []
    | .ok (d, some _) => d.notices
    | .ok (d, none) =>
      d.notices ++
        match s.addTable d.table with
        | .ok _ => [.compiledTable d.table.name]
        | .error _ => []

end SqlCatalog
