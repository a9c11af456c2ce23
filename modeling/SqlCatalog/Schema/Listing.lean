import SqlCatalog.Schema.Names
import SqlCatalog.Text.Cells

/-!
# Listings

A listing shows a schema to a reader: each table with its columns in aligned rows, then the
sequences with their users, then the indexes.

## Main definitions

* `Table.listing` gives the lines of a table.
* `Schema.listing` is the whole text.
-/

namespace SqlCatalog

/-- The lines of a text. A line feed ends a line, together with a carriage return before it. -/
def textLines (cs : List Char) : List String :=
  match _h : cs.dropWhile (· != '\n') with
  | [] => if cs.isEmpty then [] else [String.ofList cs]
  | _ :: rest =>
    let line := cs.takeWhile (· != '\n')
    String.ofList (if line.getLast? == some '\r' then line.dropLast else line) :: textLines rest
termination_by cs.length
decreasing_by
  have hd := (List.dropWhile_suffix (· != '\n') (l := cs)).length_le
  rw [_h, List.length_cons] at hd
  omega

/-- Lines as one text, each with a line feed at its end. -/
def unlines (lines : List String) : String := String.join (lines.map (· ++ "\n"))

/-! ## Tables -/

/-- The names of columns, with commas between them. -/
def Table.columnNames (t : Table) (columns : List Nat) : String :=
  ", ".intercalate (columns.map t.columnName)

mutual

/-- The text of a check expression over the columns of a table. -/
def CheckExpr.text (t : Table) : CheckExpr → String
  | .column i => t.columnName i
  | .constant value => value.literal
  | .call name arguments => name ++ "(" ++ ", ".intercalate (CheckExpr.texts t arguments) ++ ")"
  | .compare operator lhs rhs => s!"{lhs.text t} {operator} {rhs.text t}"

/-- The texts of several check expressions. -/
def CheckExpr.texts (t : Table) : List CheckExpr → List String
  | [] => []
  | e :: es => e.text t :: CheckExpr.texts t es

end

/-- The text of a declared default. -/
def DefaultValue.text (s : Schema) : DefaultValue → String
  | null => "null"
  | literal value => value.literal
  | sequence id => s!"nextval('{s.sequenceName id}')"
  | procedure name arguments => procedureText name arguments

/-- What a column declares besides its name and type, given the texts of its default and of the
table that it refers to. -/
def Column.modifiersOver (t : Table) (c : Column) (default target : Option String) : List String :=
  (if t.primaryKey == some [c.position] then ["primary key"] else [])
    ++ (if t.canBeNull c then [] else ["not null"])
    ++ (default.map ("default " ++ ·)).toList
    ++ (target.map ("references " ++ ·)).toList
    ++ (c.onDelete.map fun a => "on delete " ++ a.text).toList

/-- What a column declares besides its name and type. -/
def Column.modifiers (s : Schema) (t : Table) (c : Column) : List String :=
  c.modifiersOver t (c.default.map (·.text s)) (c.references.map s.tableName)

/-- The line of a column, with its name and its type filled up to the given widths. -/
def Column.line (nameWidth typeWidth : Nat) (c : Column) (modifiers : List String) : String :=
  trimEnd ("    " ++ padRight c.name nameWidth ++ "  " ++ padRight c.type.text typeWidth ++ "  "
    ++ " ".intercalate modifiers)

/-- The text of what a constraint is about, for constraints that are shown. -/
def Constraint.subject (t : Table) : Constraint → String
  | notNull _ => ""
  | unique _ columns => t.columnNames columns
  | check _ expression => expression.text t

/-- The line of a constraint, given what it is about; constraints on null are shown with their
columns. -/
def Constraint.line? (subject : String) : Constraint → Option String
  | notNull _ => none
  | unique name _ => some ("  unique" ++ (name.map (" " ++ ·)).getD "" ++ " (" ++ subject ++ ")")
  | check name _ => some ("  check" ++ (name.map (" " ++ ·)).getD "" ++ " (" ++ subject ++ ")")

/-- The largest width of the given texts. -/
def widest (texts : List String) : Nat := (texts.map cellWidth).foldl max 0

/-- The columns of the primary key, if there is more than one. -/
def Table.jointKey? (t : Table) : Option (List Nat) := t.primaryKey.filter (1 < ·.length)

/-- The lines of a table: its comments, its name, its columns with their modifiers, its primary key
over more than one column and its constraints. -/
def Table.listingOver (t : Table) (modifiers : List (List String)) (key : Option String)
    (subjects : List String) : List String :=
  let nameWidth := widest (t.columns.map Column.name)
  let typeWidth := widest (t.columns.map (·.type.text))
  textLines t.comment.toList
    ++ ["table " ++ t.name]
    ++ List.zipWith (Column.line nameWidth typeWidth) t.columns modifiers
    ++ (key.map fun columns => "  primary key (" ++ columns ++ ")").toList
    ++ (List.zipWith Constraint.line? subjects t.constraints).flatMap Option.toList
    ++ (if t.rows.isEmpty then [] else [s!"  {t.rows.length} seed rows"])

/-- The lines of a table. -/
def Table.listing (s : Schema) (t : Table) : List String :=
  t.listingOver (t.columns.map (·.modifiers s t)) (t.jointKey?.map t.columnNames)
    (t.constraints.map (·.subject t))

/-! ## Sequences and indexes -/

/-- The line of a sequence, with the columns that take their default from it. -/
def Sequence.lineOver (q : Sequence) (users : List String) : String :=
  "sequence " ++ q.name
    ++ if users.isEmpty then "" else " used by " ++ ", ".intercalate users

/-- The line of a sequence. -/
def Sequence.line (s : Schema) (q : Sequence) : String :=
  q.lineOver <| q.users.map fun user =>
    s.tableName user.1 ++ "." ++ ((s.tables[user.1]?.map (·.columnName user.2)).getD "")

/-- The line of an index, with its table and its columns. -/
def Index.lineOver (i : Index) (table columns : String) : String :=
  (if i.unique then "unique " else "") ++ "index " ++ i.name ++ " on " ++ table
    ++ (i.method.map (" using " ++ ·)).getD "" ++ " (" ++ columns ++ ")"

/-- The line of an index. -/
def Index.line (s : Schema) (i : Index) : String :=
  i.lineOver (s.tableName i.table) ((s.tables[i.table]?.map (·.columnNames i.columns)).getD "")

/-! ## Schemas -/

/-- The blocks with an empty line between each two. -/
def separated : List (List String) → List String
  | [] => []
  | [block] => block
  | block :: rest => block ++ "" :: separated rest

/-- A block with an empty line before it, if there is anything in the block. -/
def setOff (block : List String) : List String := if block.isEmpty then [] else "" :: block

/-- The text of a listing: its tables, its sequences and its indexes. -/
def listingText (tables : List (List String)) (sequences indexes : List String) : String :=
  unlines (separated tables ++ setOff sequences ++ setOff indexes)

/-- The listing of a schema. -/
def Schema.listing (s : Schema) : String :=
  listingText (s.tables.map (·.listing s)) (s.sequences.map (·.line s))
    (s.indexes.map (·.line s))

end SqlCatalog
