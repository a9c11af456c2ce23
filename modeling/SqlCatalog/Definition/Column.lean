import SqlCatalog.Definition.Check
import SqlCatalog.Definition.ColumnType
import SqlCatalog.Notice

/-!
# Reading what a column declares

A table is read into a draft, column by column and clause by clause. A clause of a column changes
the column, adds a constraint to the table or makes the column its primary key. A clause may look
at the columns read so far, and at the tables and sequences of the schema.

## Main definitions

* `Draft` is the table as far as it was read, with what goes to the schema together with it.
* `readDefault`, `readReference`, `readDeleteAction` read the clauses of more than one token.
* `readModifier` reads one clause of a column.

## Main statements

* `length_of_readModifier`: a clause takes at least the token it begins with.
-/

namespace SqlCatalog

/-- A table as far as it was read, with the uses of sequences and the notices that came up. -/
structure Draft where
  table : Table
  users : List (SequenceId × Nat)
  notices : List Notice

namespace Draft

/-- Replaces the table of a draft. -/
def withTable (d : Draft) (t : Table) : Draft := { d with table := t }

/-- Makes columns the primary key of a table that has none yet; `clause` is the token that says
so. -/
def setPrimaryKey (d : Draft) (columns : List Nat) (clause : Token) : Compile Draft :=
  if d.table.primaryKey.isSome then violated "at most one primary key" (some clause)
  else .ok (d.withTable { d.table with primaryKey := some columns })

end Draft

/-! ## Defaults -/

/-- The token that gives a default, out of its parentheses if it stands alone in some. -/
def unwrapDefault (t : Token) : Compile Token :=
  match t with
  | .paren [single] => .ok single
  | .paren _ => violated "single default expression" (some t)
  | _ => .ok t

/-- Reads the name of the sequence that is the only argument of `nextval`. -/
def readSequenceName : List Token → Compile String
  | [.string raw] => readString raw
  | ts => violated "sequence name" ts.head?

/-- Reads the token of a default. -/
def readDefaultValue (s : Schema) (t : Token) : Compile DefaultValue :=
  match t with
  | .call parts => do
    let (name, arguments) ← readCall "default value" t parts
    if sameIgnoringAsciiCase name "nextval" then
      let sequence ← readSequenceName arguments
      let q ← fromCatalog (s.sequenceNamed sequence)
      return .sequence q.id
    else return .procedure name arguments
  | _ =>
    if t.isKeyword "NULL" then .ok .null
    else DefaultValue.literal <$> readLiteral "default value" t

/-- Gives a column its default. The use of a sequence is noted. -/
def Draft.setDefault (d : Draft) (i : Nat) (value : DefaultValue) : Draft :=
  let users := match value with
    | .sequence id => [(id, i)]
    | _ => []
  { d with
    table := d.table.modifyColumn i fun c => { c with default := some value }
    users := d.users ++ users }

/-- Reads a default of the column `i`. -/
def readDefault (s : Schema) (d : Draft) (i : Nat) : List Token → Compile (Draft × List Token)
  | [] => violated "default value" none
  | t :: ts => do
    let single ← unwrapDefault t
    let value ← readDefaultValue s single
    return (d.setDefault i value, ts)

/-! ## References -/

/-- The name of the table that a token refers to, with or without a column list. -/
def readTarget (t : Token) : Compile String :=
  let name := match t with
    | .call parts => (Token.callParts? parts).map Prod.fst
    | _ => t.name?
  match name with
  | some n => .ok n
  | none => violated "referenced table" (some t)

/-- The notice that the column `c` refers to a table with a key of another family of types. -/
def keyNotices (dialect : Dialect) (own : Table) (c : Column) (target : Table) : List Notice :=
  match target.primaryKeyColumns with
  | [key] =>
    if typeFamily dialect key.type.name == typeFamily dialect c.type.name then []
    else [.keyMismatch own.name c.name c.type target.name key.type]
  | _ => []

/-- The table with the given name, which may be the one that is being read. -/
def Draft.findTable (s : Schema) (d : Draft) (name : String) : Compile Table :=
  if s.sameName name d.table.name then .ok d.table else fromCatalog (s.tableNamed name)

/-- Reads a reference of the column `i`. -/
def readReference (s : Schema) (d : Draft) (i : Nat) : List Token → Compile (Draft × List Token)
  | [] => violated "referenced table" none
  | t :: ts => do
    let name ← readTarget t
    let target ← d.findTable s name
    let notices := match d.table.columns[i]? with
      | some c => keyNotices s.dialect d.table c target
      | none => []
    return ({ d with
      table := d.table.modifyColumn i fun c => { c with references := some target.id }
      notices := d.notices ++ notices }, ts)

/-! ## Actions -/

/-- Reads the action after `ON`. -/
def readDeleteAction (ts : List Token) : Compile (DeleteAction × List Token) := do
  let rest ← readKeyword "DELETE" ts
  match rest with
  | [] => violated "CASCADE or SET" none
  | t :: rest =>
    if t.isKeyword "CASCADE" then return (.cascade, rest)
    else if t.isKeyword "SET" then
      match rest with
      | [] => violated "NULL or DEFAULT" none
      | t :: rest =>
        if t.isKeyword "NULL" then return (.setNull, rest)
        else if t.isKeyword "DEFAULT" then return (.setDefault, rest)
        else violated "NULL or DEFAULT" (some t)
    else violated "CASCADE or SET" (some t)

/-! ## Clauses -/

/-- Reads the clause of the column `i` that begins with `t`. -/
def readModifier (s : Schema) (d : Draft) (i : Nat) (t : Token) (ts : List Token) :
    Compile (Draft × List Token) :=
  if t.isKeyword "PRIMARY" then do
    let rest ← readKeyword "KEY" ts
    let d ← d.setPrimaryKey [i] t
    return (d, rest)
  else if t.isKeyword "UNIQUE" then
    .ok (d.withTable (d.table.addConstraint (.unique none [i])), ts)
  else if t.isKeyword "NOT" then do
    let rest ← readKeyword "NULL" ts
    return (d.withTable (d.table.addConstraint (.notNull i)), rest)
  else if t.isKeyword "NULL" then .ok (d, ts)
  else if t.isKeyword "CHECK" then do
    let (inner, rest) ← readParen ts
    let expression ← readCheck d.table inner
    return (d.withTable (d.table.addConstraint (.check none expression)), rest)
  else if t.isKeyword "DEFAULT" then readDefault s d i ts
  else if t.isKeyword "REFERENCES" then readReference s d i ts
  else if t.isKeyword "ON" then do
    let (action, rest) ← readDeleteAction ts
    let table := d.table.modifyColumn i fun c => { c with onDelete := some action }
    return (d.withTable table, rest)
  else violated "column modifier" (some t)

/-! ## What is left is shorter -/

/-- What is left after a default is shorter than what it was read from. -/
theorem length_of_readDefault {s : Schema} {d : Draft} {i : Nat} {ts : List Token}
    {r : Draft × List Token} (h : readDefault s d i ts = .ok r) : r.2.length < ts.length := by
  unfold readDefault at h
  split at h
  · simp [violated] at h
  · obtain ⟨single, -, h⟩ := bind_eq_ok.1 h
    obtain ⟨value, -, h⟩ := bind_eq_ok.1 h
    obtain rfl := Except.ok.inj h
    simp

theorem length_of_readReference {s : Schema} {d : Draft} {i : Nat} {ts : List Token}
    {r : Draft × List Token} (h : readReference s d i ts = .ok r) : r.2.length < ts.length := by
  unfold readReference at h
  split at h
  · simp [violated] at h
  · obtain ⟨name, -, h⟩ := bind_eq_ok.1 h
    obtain ⟨target, -, h⟩ := bind_eq_ok.1 h
    obtain rfl := Except.ok.inj h
    simp

theorem length_of_readDeleteAction {ts : List Token} {r : DeleteAction × List Token}
    (h : readDeleteAction ts = .ok r) : r.2.length < ts.length := by
  unfold readDeleteAction at h
  obtain ⟨rest, hk, h⟩ := bind_eq_ok.1 h
  have hk := length_of_readKeyword hk
  split at h
  · simp [violated] at h
  · split at h
    · obtain rfl := Except.ok.inj h
      simp only [List.length_cons] at hk ⊢
      omega
    · split at h
      · split at h
        · simp [violated] at h
        · split at h
          · obtain rfl := Except.ok.inj h
            simp only [List.length_cons] at hk ⊢
            omega
          · split at h
            · obtain rfl := Except.ok.inj h
              simp only [List.length_cons] at hk ⊢
              omega
            · simp [violated] at h
      · simp [violated] at h

/-- A clause takes nothing back: what is left after it is no longer than what stood there. -/
theorem length_of_readModifier {s : Schema} {d : Draft} {i : Nat} {t : Token} {ts : List Token}
    {r : Draft × List Token} (h : readModifier s d i t ts = .ok r) : r.2.length ≤ ts.length := by
  unfold readModifier at h
  split at h
  · obtain ⟨rest, hk, h⟩ := bind_eq_ok.1 h
    obtain ⟨d', -, h⟩ := bind_eq_ok.1 h
    obtain rfl := Except.ok.inj h
    exact Nat.le_of_lt (length_of_readKeyword hk)
  split at h
  · obtain rfl := Except.ok.inj h
    exact Nat.le_refl _
  split at h
  · obtain ⟨rest, hk, h⟩ := bind_eq_ok.1 h
    obtain rfl := Except.ok.inj h
    exact Nat.le_of_lt (length_of_readKeyword hk)
  split at h
  · obtain rfl := Except.ok.inj h
    exact Nat.le_refl _
  split at h
  · obtain ⟨⟨inner, rest⟩, hp, h⟩ := bind_eq_ok.1 h
    obtain ⟨expression, -, h⟩ := bind_eq_ok.1 h
    obtain rfl := Except.ok.inj h
    exact Nat.le_of_lt (length_of_readParen hp)
  split at h
  · exact Nat.le_of_lt (length_of_readDefault h)
  split at h
  · exact Nat.le_of_lt (length_of_readReference h)
  split at h
  · obtain ⟨⟨action, rest⟩, ha, h⟩ := bind_eq_ok.1 h
    obtain rfl := Except.ok.inj h
    exact Nat.le_of_lt (length_of_readDeleteAction ha)
  · simp [violated] at h

end SqlCatalog
