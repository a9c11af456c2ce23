import SqlCatalog.Proofs.Catalog.Distinct
import SqlCatalog.Proofs.Definition.TableSyntax

/-!
# The meaning of table definitions

What a table definition makes of a schema, said of the definition as a whole: places are those of
the columns with the given names, the last of several clauses of a kind counts, and constraints
stand in the order in which they are written. A definition is valid if its names are free and
distinct and what it mentions is there, where the columns that are there are those read so far.

## Main definitions

* `TableSyntax.table` is the table that is defined, `TableSyntax.users` are the columns that take
  their default from a sequence.
* `TableSyntax.addedTo` is the schema with the table.
* `TableSyntax.Valid` says when a schema admits the table.
-/

namespace SqlCatalog

/-! ## What names stand for -/

/-- The place of the first of the names that is `name`, in any letter case. -/
def placeIn (names : List String) (name : String) : Nat :=
  names.findIdx fun other => sameIgnoringCase other name

/-- Whether one of the names is `name`, in any letter case. -/
def NamedIn (names : List String) (name : String) : Prop :=
  ∃ other ∈ names, lower other = lower name

namespace Schema

variable (s : Schema)

/-- The sequence that has the given name. -/
def sequenceId (name : String) : SequenceId :=
  ((s.sequences.find? fun q => s.sameName q.name name).map Sequence.id).getD 0

/-- The table that has the given name, where the one named `own` is the next one of the schema. -/
def targetId (own name : String) : TableId :=
  if s.sameName name own then s.tables.length
  else ((s.tables.find? fun t => s.sameName t.name name).map Table.id).getD 0

/-- Whether a sequence has the given name. -/
def HasSequence (name : String) : Prop := ∃ q ∈ s.sequences, s.sameName q.name name = true

/-- Whether a table has the given name, be it the one named `own`. -/
def HasTarget (own name : String) : Prop :=
  s.sameName name own = true ∨ ∃ t ∈ s.tables, s.sameName t.name name = true

end Schema

/-! ## Checks and defaults -/

namespace OperandSyntax

/-- The columns that an operand mentions. -/
def mentions : OperandSyntax → List String
  | column n => [n]
  | literal _ => []
  | call _ columns => columns

/-- The operand over columns with the given names. -/
def expr (names : List String) : OperandSyntax → CheckExpr
  | column n => .column (placeIn names n)
  | literal v => .constant v
  | call f columns => .call f (columns.map fun n => .column (placeIn names n))

end OperandSyntax

namespace CheckSyntax

variable (c : CheckSyntax)

/-- The columns that a check mentions. -/
def mentions : List String := c.lhs.mentions ++ c.rhs.mentions

/-- The check over columns with the given names. -/
def expr (names : List String) : CheckExpr :=
  .compare c.operator (c.lhs.expr names) (c.rhs.expr names)

end CheckSyntax

namespace DefaultSyntax

/-- The sequence that a default is taken from, if it is taken from one. -/
def sequence? : DefaultSyntax → Option String
  | next q => some q
  | _ => none

/-- The default as a column keeps it. -/
def value (s : Schema) : DefaultSyntax → DefaultValue
  | null => .null
  | literal v => .literal v
  | next q => .sequence (s.sequenceId q)
  | procedure f arguments => .procedure f arguments

end DefaultSyntax

/-! ## Columns -/

namespace ClauseSyntax

/-- The default that a clause declares. -/
def default? : ClauseSyntax → Option DefaultSyntax
  | default v => some v
  | _ => none

/-- The table that a clause refers to. -/
def target? : ClauseSyntax → Option String
  | references r => some r
  | _ => none

/-- The action that a clause declares. -/
def action? : ClauseSyntax → Option DeleteAction
  | onDelete action => some action
  | _ => none

/-- The sequence that a clause uses. -/
def sequence? (c : ClauseSyntax) : Option String := c.default?.bind DefaultSyntax.sequence?

/-- The primary key that a clause of the column `i` declares. -/
def key? (i : Nat) : ClauseSyntax → Option (List Nat)
  | primaryKey => some [i]
  | _ => none

/-- The constraint that a clause of the column `i` adds to a table. -/
def constraint? (names : List String) (i : Nat) : ClauseSyntax → Option Constraint
  | unique => some (.unique none [i])
  | notNull => some (.notNull i)
  | check c => some (.check none (c.expr names))
  | _ => none

/-- The columns that a clause mentions. -/
def mentions : ClauseSyntax → List String
  | check c => c.mentions
  | _ => []

end ClauseSyntax

/-- The column at the place `i` of the next table of a schema, which is named `own`. -/
def ColumnSyntax.column (s : Schema) (own : String) (i : Nat) (c : ColumnSyntax) : Column where
  name := c.name
  table := s.tables.length
  position := i
  type := c.type
  default := (c.clauses.filterMap ClauseSyntax.default?).getLast?.map fun v => v.value s
  references := (c.clauses.filterMap ClauseSyntax.target?).getLast?.map fun r => s.targetId own r
  onDelete := (c.clauses.filterMap ClauseSyntax.action?).getLast?

/-! ## Constraints -/

namespace RuleSyntax

/-- The columns that a rule mentions. -/
def mentions : RuleSyntax → List String
  | primaryKey columns | unique columns => columns
  | check c => c.mentions

/-- The primary key that a rule declares. -/
def key? (names : List String) : RuleSyntax → Option (List Nat)
  | primaryKey columns => some (columns.map (placeIn names))
  | _ => none

/-- The constraint that a rule of the given name adds to a table. -/
def constraint? (names : List String) (name : Option String) : RuleSyntax → Option Constraint
  | unique columns => some (.unique name (columns.map (placeIn names)))
  | check c => some (.check name (c.expr names))
  | primaryKey _ => none

end RuleSyntax

namespace ItemSyntax

/-- The clauses of a column, none for a constraint. -/
def clauses : ItemSyntax → List ClauseSyntax
  | column c => c.clauses
  | constraint _ => []

/-- The column that is defined. -/
def column? : ItemSyntax → Option ColumnSyntax
  | column c => some c
  | constraint _ => none

/-- The columns that a part of a body mentions. -/
def mentions : ItemSyntax → List String
  | column c => c.clauses.flatMap ClauseSyntax.mentions
  | constraint c => c.rule.mentions

/-- The primary keys that a part of a body declares after `i` columns. -/
def keys (names : List String) (i : Nat) : ItemSyntax → List (List Nat)
  | column c => c.clauses.filterMap fun clause => clause.key? i
  | constraint c => (c.rule.key? names).toList

/-- The constraints that a part of a body adds after `i` columns. -/
def constraints (names : List String) (i : Nat) : ItemSyntax → List Constraint
  | column c => c.clauses.filterMap fun clause => clause.constraint? names i
  | constraint c => (c.rule.constraint? names c.name).toList

/-- The sequences that a part of a body uses after `i` columns, with the place of its column. -/
def users (s : Schema) (i : Nat) (x : ItemSyntax) : List (SequenceId × Nat) :=
  (x.clauses.filterMap ClauseSyntax.sequence?).map fun q => (s.sequenceId q, i)

end ItemSyntax

/-! ## Tables -/

/-- The columns among the parts of a body. -/
def columnsOf (items : List ItemSyntax) : List ColumnSyntax := items.filterMap ItemSyntax.column?

/-- The names of the columns among the parts of a body. -/
def namesOf (items : List ItemSyntax) : List String := (columnsOf items).map ColumnSyntax.name

/-- The parts of a body, each with the number of columns before it, if `i` stand before all. -/
def placed (i : Nat) : List ItemSyntax → List (Nat × ItemSyntax)
  | [] => []
  | x :: xs => (i, x) :: placed (i + x.column?.toList.length) xs

namespace TableSyntax

variable (t : TableSyntax) (s : Schema) (names : List String)

/-- The primary keys that the parts declare, which is one at most in a valid definition. -/
def keys : List (List Nat) := (placed 0 t.items).flatMap fun x => x.2.keys names x.1

/-- The constraints, in the order in which they are written. -/
def constraints : List Constraint :=
  (placed 0 t.items).flatMap fun x => x.2.constraints names x.1

/-- The sequences that columns use, with the places of these columns. -/
def users : List (SequenceId × Nat) := (placed 0 t.items).flatMap fun x => x.2.users s x.1

/-- The next table of a schema, with columns looked up among the given names. -/
def tableOver (comment : String) : Table where
  id := s.tables.length
  name := t.name
  comment := comment
  columns := (columnsOf t.items).mapIdx fun i c => c.column s t.name i
  constraints := t.constraints names
  primaryKey := (t.keys names).head?
  rows := []

/-- The table that is defined, as the next one of a schema. -/
def table (comment : String) : Table := t.tableOver s (namesOf t.items) comment

/-- The schema with the table, which is a user of the sequences that its columns use. -/
def addedTo (comment : String) : Schema :=
  { s with
    tables := s.tables ++ [t.table s comment]
    sequences := s.sequences.mapIdx fun id q =>
      { q with
        users := q.users ++
          ((t.users s).filter fun user => user.1 == id).map fun user =>
            (s.tables.length, user.2) } }

/-- Whether the schema admits the table: its name is free, its columns have different names and
known types, it has one primary key at most, and what it mentions is there: among the columns up to
the part that mentions it, or among the sequences and tables of the schema. -/
structure Valid : Prop where
  free : ∀ u ∈ s.tables, s.sameName u.name t.name = false
  distinct : DistinctBy lower (namesOf t.items)
  types : ∀ c ∈ columnsOf t.items, isKnownType c.type.name = true
  key : (t.keys (namesOf t.items)).length ≤ 1
  columns : ∀ before x, before ++ [x] <+: t.items →
    ∀ n ∈ x.mentions, NamedIn (namesOf (before ++ [x])) n
  sequences : ∀ x ∈ t.items, ∀ q ∈ x.clauses.filterMap ClauseSyntax.sequence?, s.HasSequence q
  targets : ∀ x ∈ t.items, ∀ r ∈ x.clauses.filterMap ClauseSyntax.target?, s.HasTarget t.name r

end TableSyntax

end SqlCatalog
