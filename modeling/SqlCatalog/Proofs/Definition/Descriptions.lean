import Mathlib.Tactic.MkIffOfInductiveProp
import SqlCatalog.Proofs.Text.TypeNames
import SqlCatalog.Proofs.Token.Phrases
import SqlCatalog.Schema.Names

/-!
# Descriptions of schemas

A description is a list of declarations: sequences, tables, indexes and rows, in any order in which
everything is declared before it is used. Objects are referred to by their places, so that a
description says what a schema is made of without any look-up. It has two readings: the schema that
it describes, and the script that declares it, in which every name is quoted.

## Main definitions

* `Declaration`, `Description` and their parts.
* `Description.Valid` says that names are distinct, and that places are places of something.
* `Description.schema` is the schema that is described.
* `Description.script` is the text of the statements that declare it.
-/

namespace SqlCatalog

/-! ## Declarations -/

/-- The default that a column is declared with. -/
inductive DefaultDeclaration where
  | null
  | literal (v : Value)
  /-- The next number of the sequence at a place. -/
  | next (sequence : SequenceId)

/-- A column with all that is declared next to its name. -/
structure ColumnDeclaration where
  name : String
  type : ColumnType
  /-- Whether the column may not be null. -/
  required : Bool
  default : Option DefaultDeclaration
  /-- The table that the column refers to, and what happens when a row of it is deleted. -/
  reference : Option (TableId × Option DeleteAction)

/-- A table with its columns and the constraints that are declared after them. -/
structure TableDeclaration where
  name : String
  columns : List ColumnDeclaration
  primaryKey : Option (List Nat)
  uniques : List (Option String × List Nat)

/-- What a statement declares. -/
inductive Declaration where
  | sequence (name : String)
  | table (t : TableDeclaration)
  | index (i : Index)
  | row (table : TableId) (values : List Value)

/-- Declarations in their order. -/
abbrev Description := List Declaration

namespace Description

variable (d : Description)

/-- The names of the sequences. -/
def sequences : List String :=
  d.filterMap fun
    | .sequence name => some name
    | _ => none

/-- The declarations of the tables. -/
def tables : List TableDeclaration :=
  d.filterMap fun
    | .table t => some t
    | _ => none

/-- The indexes. -/
def indexes : List Index :=
  d.filterMap fun
    | .index i => some i
    | _ => none

/-- The values of the rows of the table at a place. -/
def rows (id : TableId) : List (List Value) :=
  d.filterMap fun
    | .row table values => if table = id then some values else none
    | _ => none

/-- The name of the sequence at a place, empty where there is none. -/
def sequenceName (id : SequenceId) : String := (sequences d)[id]?.getD ""

/-- The name of the table at a place, empty where there is none. -/
def tableName (id : TableId) : String := ((tables d)[id]?.map TableDeclaration.name).getD ""

end Description

/-- The name of the column at a place, empty where there is none. -/
def TableDeclaration.columnName (t : TableDeclaration) (i : Nat) : String :=
  (t.columns[i]?.map ColumnDeclaration.name).getD ""

/-! ## Validity -/

/-- Whether the type is known, and has a length only if its name is one word. -/
def ColumnType.Valid (t : ColumnType) : Prop :=
  isKnownType t.name = true ∧ (t.length.isSome = true → ' ' ∉ t.name.toList)

/-- Whether the default is no floating-point number and not null in two ways, and is taken from
one of the first `sequences` sequences, if from any. -/
def DefaultDeclaration.Valid (sequences : Nat) : DefaultDeclaration → Prop
  | null => True
  | literal v => v.isFloat = false ∧ v.isNull = false
  | next id => id < sequences

/-- Whether the column is one of the table at the place `id`, with `sequences` sequences declared
before that table. -/
@[mk_iff]
structure ColumnDeclaration.Valid (c : ColumnDeclaration) (sequences : Nat) (id : TableId) :
    Prop where
  type : c.type.Valid
  default : ∀ v ∈ c.default, v.Valid sequences
  reference : ∀ r ∈ c.reference, r.1 ≤ id

/-- Whether the places are some places of a list of `n`. -/
def ValidPlaces (n : Nat) (places : List Nat) : Prop := places ≠ [] ∧ ∀ i ∈ places, i < n

/-- Whether the table can be declared at the place `id` after `sequences` sequences. -/
@[mk_iff]
structure TableDeclaration.Valid (t : TableDeclaration) (sequences : Nat) (id : TableId) :
    Prop where
  nonempty : t.columns ≠ []
  names : (t.columns.map fun c => lower c.name).Nodup
  columns : ∀ c ∈ t.columns, c.Valid sequences id
  primaryKey : ∀ key ∈ t.primaryKey, ValidPlaces t.columns.length key
  uniques : ∀ u ∈ t.uniques, ValidPlaces t.columns.length u.2

/-- Whether no name of a list is taken for the same as `name`. -/
def Dialect.Fresh (dialect : Dialect) (names : List String) (name : String) : Prop :=
  ∀ other ∈ names, dialect.sameName other name = false

/-- Whether the declaration is valid after those before it. -/
def Declaration.Valid (dialect : Dialect) (before : Description) : Declaration → Prop
  | sequence name => dialect.Fresh before.sequences name
  | table t =>
    dialect.Fresh (before.tables.map TableDeclaration.name) t.name ∧
      t.Valid before.sequences.length before.tables.length
  | index i =>
    dialect.Fresh (before.indexes.map Index.name) i.name ∧
      ∃ t ∈ before.tables[i.table]?, ValidPlaces t.columns.length i.columns
  | row id values =>
    values ≠ [] ∧ (∀ v ∈ values, v.isFloat = false) ∧
      ∃ t ∈ before.tables[id]?, values.length ≤ t.columns.length

/-- Whether declarations are valid one after the other, after those in `before`. -/
def Description.ValidAfter (dialect : Dialect) (before : Description) : Description → Prop
  | [] => True
  | x :: d => x.Valid dialect before ∧ ValidAfter dialect (before ++ [x]) d

/-- Whether every declaration is valid after those before it. -/
def Description.Valid (dialect : Dialect) (d : Description) : Prop :=
  Description.ValidAfter dialect [] d

/-! ### Validity can be decided -/

instance (t : ColumnType) : Decidable t.Valid :=
  inferInstanceAs (Decidable (_ ∧ _))

instance (n : Nat) (places : List Nat) : Decidable (ValidPlaces n places) :=
  inferInstanceAs (Decidable (_ ∧ _))

instance (sequences : Nat) : (v : DefaultDeclaration) → Decidable (v.Valid sequences)
  | .null => inferInstanceAs (Decidable True)
  | .literal v => inferInstanceAs (Decidable (v.isFloat = false ∧ v.isNull = false))
  | .next id => inferInstanceAs (Decidable (id < sequences))

instance (c : ColumnDeclaration) (sequences : Nat) (id : TableId) :
    Decidable (c.Valid sequences id) :=
  decidable_of_iff' _ (ColumnDeclaration.valid_iff c sequences id)

instance (t : TableDeclaration) (sequences : Nat) (id : TableId) :
    Decidable (t.Valid sequences id) :=
  decidable_of_iff' _ (TableDeclaration.valid_iff t sequences id)

instance (dialect : Dialect) (names : List String) (name : String) :
    Decidable (dialect.Fresh names name) :=
  inferInstanceAs (Decidable (∀ other ∈ names, _))

instance (dialect : Dialect) (before : Description) :
    (x : Declaration) → Decidable (x.Valid dialect before)
  | .sequence _ => inferInstanceAs (Decidable (dialect.Fresh _ _))
  | .table _ => inferInstanceAs (Decidable (_ ∧ _))
  | .index i => inferInstanceAs (Decidable (_ ∧ ∃ t ∈ before.tables[i.table]?, _))
  | .row id _ => inferInstanceAs (Decidable (_ ∧ _ ∧ ∃ t ∈ before.tables[id]?, _))

instance Description.decidableValidAfter (dialect : Dialect) (before : Description) :
    (d : Description) → Decidable (Description.ValidAfter dialect before d)
  | [] => inferInstanceAs (Decidable True)
  | x :: d =>
    have := decidableValidAfter dialect (before ++ [x]) d
    inferInstanceAs (Decidable (_ ∧ _))

instance (dialect : Dialect) (d : Description) : Decidable (d.Valid dialect) :=
  inferInstanceAs (Decidable (Description.ValidAfter dialect [] d))

/-! ## The schema -/

/-- The type that compiling gives. The words of a type keep their letter case, except for the last
two of four: instead of them the compiler writes `time zone`, in lower case. -/
def ColumnType.kept (t : ColumnType) : ColumnType :=
  match typeWords t.name with
  | [a, b, c, d] => { t with name := a ++ " " ++ b ++ " " ++ lower c ++ " " ++ lower d }
  | _ => t

/-- The default as the schema keeps it. -/
def DefaultDeclaration.value : DefaultDeclaration → DefaultValue
  | null => .null
  | literal v => .literal v
  | next id => .sequence id

/-- The sequence that the default is taken from, if it is taken from one. -/
def DefaultDeclaration.sequence? : DefaultDeclaration → Option SequenceId
  | next id => some id
  | _ => none

/-- The column at a place of the table at `id`. -/
def ColumnDeclaration.column (c : ColumnDeclaration) (id : TableId) (position : Nat) : Column where
  name := c.name
  table := id
  position := position
  type := c.type.kept
  default := c.default.map DefaultDeclaration.value
  references := c.reference.map Prod.fst
  onDelete := c.reference.bind Prod.snd

namespace TableDeclaration

variable (t : TableDeclaration)

/-- The places of the columns for which `p` holds. -/
def places (p : ColumnDeclaration → Bool) : List Nat :=
  t.columns.zipIdx.filterMap fun c => if p c.1 then some c.2 else none

/-- The constraints: first the columns that may not be null, then what is unique. -/
def constraints : List Constraint :=
  (t.places ColumnDeclaration.required).map .notNull ++ t.uniques.map fun u => .unique u.1 u.2

/-- The table at the place `id`, with some rows. -/
def table (id : TableId) (rows : List (List Value)) : Table where
  id := id
  name := t.name
  comment := ""
  columns := t.columns.mapIdx fun i c => c.column id i
  constraints := t.constraints
  primaryKey := t.primaryKey
  rows := rows.map fun values => (t.columns.map ColumnDeclaration.name).zip values

/-- The columns that take their default from the sequence at `id`. -/
def users (id : SequenceId) : List Nat :=
  t.places fun c => c.default.bind DefaultDeclaration.sequence? == some id

end TableDeclaration

namespace Description

variable (d : Description)

/-- The columns of all tables that take their default from the sequence at `id`. -/
def users (id : SequenceId) : List (TableId × Nat) :=
  (d.tables.mapIdx fun owner t => (t.users id).map (owner, ·)).flatten

/-- The schema that is described, with the types that compiling gives. -/
def schema (source : String) (dialect : Dialect) : Schema where
  source := source
  dialect := dialect
  tables := d.tables.mapIdx fun id t => t.table id (d.rows id)
  indexes := d.indexes
  sequences := d.sequences.mapIdx fun id name => ⟨id, name, d.users id⟩

end Description

/-! ## The script -/

open Phrase

/-- Reserved words. -/
def keywords (words : List String) : List Phrase := words.map fun w => .plain (.reserved w)

/-- A quoted name. -/
def nameOf (name : String) : Phrase := .plain (.name name)

/-- Items with commas between them. -/
def commaSeparated (items : List (List Phrase)) : List Phrase := [.plain .comma].intercalate items

/-- The words of a type, with its length in parentheses if it has one. -/
def ColumnType.phrases (t : ColumnType) : List Phrase :=
  match t.length with
  | some n => [.applied (.word t.name) [.plain (.number n.toNat)]]
  | none => (typeWords t.name).map fun w => .plain (.word w)

/-- The words for an action. -/
def DeleteAction.phrases : DeleteAction → List Phrase
  | cascade => keywords ["ON", "DELETE", "CASCADE"]
  | setNull => keywords ["ON", "DELETE", "SET", "NULL"]
  | setDefault => keywords ["ON", "DELETE", "SET", "DEFAULT"]

/-- The default that a column is declared with. -/
def DefaultDeclaration.phrase (d : Description) : DefaultDeclaration → Phrase
  | null => .plain (.value .null)
  | literal v => .plain (.value v)
  | next id => .applied (.word "nextval") [.plain (.value (.text (d.sequenceName id)))]

namespace ColumnDeclaration

variable (d : Description) (c : ColumnDeclaration)

/-- The clause by which a column may not be null. -/
def requiredPhrases : List Phrase := if c.required then keywords ["NOT", "NULL"] else []

/-- The clause that gives a column its default. -/
def defaultPhrases : List Phrase :=
  match c.default with
  | some v => keywords ["DEFAULT"] ++ [v.phrase d]
  | none => []

/-- The clauses by which a column refers to a table. -/
def referencePhrases : List Phrase :=
  match c.reference with
  | some r =>
    keywords ["REFERENCES"] ++ [nameOf (d.tableName r.1)] ++
      (r.2.map DeleteAction.phrases).getD []
  | none => []

/-- The definition of a column. -/
def phrases : List Phrase :=
  nameOf c.name :: c.type.phrases ++ c.requiredPhrases ++ c.defaultPhrases d ++ c.referencePhrases d

end ColumnDeclaration

namespace TableDeclaration

variable (t : TableDeclaration)

/-- The names of some columns. -/
def columnList (places : List Nat) : List Phrase :=
  commaSeparated (places.map fun i => [nameOf (t.columnName i)])

/-- The primary key as a constraint of the table. -/
def keyPhrases (key : List Nat) : List Phrase :=
  keywords ["PRIMARY"] ++ [.applied (.reserved "KEY") (t.columnList key)]

/-- A constraint by which some columns are unique. -/
def uniquePhrases (u : Option String × List Nat) : List Phrase :=
  (match u.1 with
    | some name => keywords ["CONSTRAINT"] ++ [nameOf name]
    | none => []) ++
    [.applied (.reserved "UNIQUE") (t.columnList u.2)]

/-- The columns and the constraints of a table. -/
def body (d : Description) : List Phrase :=
  commaSeparated (t.columns.map (ColumnDeclaration.phrases d) ++
    t.primaryKey.toList.map t.keyPhrases ++ t.uniques.map t.uniquePhrases)

end TableDeclaration

namespace Description

variable (d : Description)

/-- The names of some columns of the table at a place. -/
def columnList (id : TableId) (places : List Nat) : List Phrase :=
  (d.tables[id]?.map fun t => t.columnList places).getD []

/-- The statement that declares an index. -/
def indexPhrases (i : Index) : List Phrase :=
  keywords (if i.unique then ["CREATE", "UNIQUE", "INDEX"] else ["CREATE", "INDEX"]) ++
    [nameOf i.name] ++ keywords ["ON"] ++
    match i.method with
      | some method =>
        [nameOf (d.tableName i.table)] ++ keywords ["USING"] ++
          [.applied (.name method) (d.columnList i.table i.columns)]
      | none => [.applied (.name (d.tableName i.table)) (d.columnList i.table i.columns)]

/-- The statement of a declaration. -/
def phrases : Declaration → List Phrase
  | .sequence name => keywords ["CREATE", "SEQUENCE"] ++ [nameOf name]
  | .table t => keywords ["CREATE", "TABLE"] ++ [.applied (.name t.name) (t.body d)]
  | .index i => d.indexPhrases i
  | .row id values =>
    keywords ["INSERT", "INTO"] ++ [nameOf (d.tableName id)] ++
      [.applied (.reserved "VALUES") (commaSeparated (values.map fun v => [.plain (.value v)]))]

/-- The script that declares what is described, in the order in which it is declared. -/
def script : String := scriptText (d.map d.phrases)

end Description

end SqlCatalog
