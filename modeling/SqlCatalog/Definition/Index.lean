import SqlCatalog.Definition.Reading
import SqlCatalog.Notice
import SqlCatalog.Token.Flatten

/-!
# Reading definitions of indexes and sequences

An index definition is `CREATE INDEX` or `CREATE UNIQUE INDEX`, a name, `ON` and a table with a
list of its columns, before which `USING` can name a method. A sequence definition is
`CREATE SEQUENCE` and a name.

## Main definitions

* `IndexHead` is an index definition before its columns are looked up.
* `compileIndex`, `compileSequence` add the objects.
-/

namespace SqlCatalog

/-! ## Indexes -/

/-- An index definition whose column list was not read yet. -/
structure IndexHead where
  name : String
  unique : Bool
  table : String
  method : Option String
  columns : List Token

/-- Reads the method of an index and its columns, which look like a call. -/
def readIndexMethod : List Token → Compile ((String × List Token) × List Token)
  | t :: ts =>
    match t with
    | .call parts => (·, ts) <$> readCall "index method and columns" t parts
    | _ => violated "index method and columns" (some t)
  | [] => violated "index method and columns" none

/-- Reads the table, the method and the columns of an index, which end the statement. -/
def readIndexTarget (name : String) (unique : Bool) : List Token → Compile IndexHead
  | t :: ts =>
    match t with
    | .call parts => do
      let (table, columns) ← readCall "table and columns" t parts
      readEnd ts
      return ⟨name, unique, table, none, columns⟩
    | .identifier _ | .name _ => do
      let (table, rest) ← readName "table name" (t :: ts)
      let rest ← readKeyword "USING" rest
      let ((method, columns), rest) ← readIndexMethod rest
      readEnd rest
      return ⟨name, unique, table, some method, columns⟩
    | _ => violated "table name" (some t)
  | [] => violated "table name" none

/-- Reads an index definition up to its column list. -/
def readIndexHead (ts : List Token) : Compile IndexHead := do
  let rest ← readKeyword "CREATE" ts
  let unique := (rest.head?.map (Token.isKeyword "UNIQUE")).getD false
  let rest ← readKeyword "INDEX" (if unique then rest.tail else rest)
  let (name, rest) ← readName "index name" rest
  let rest ← readKeyword "ON" rest
  readIndexTarget name unique rest

/-- Compiles an index definition. -/
def compileIndex (statement : Statement) : Compiling Unit := do
  let s ← get
  let head ← readIndexHead (Token.flatten statement)
  let table ← fromCatalog (s.tableNamed head.table)
  let names ← readNames head.columns
  let columns ← fromCatalog (table.columnIndexes names)
  set (← fromCatalog (s.addIndex ⟨head.name, table.id, head.unique, head.method, columns⟩))

/-- The notices that compiling an index definition leaves. -/
def Schema.indexNotices (s : Schema) (statement : Statement) : List Notice :=
  (Token.listLengths statement).map .openedList ++
    match readIndexHead (Token.flatten statement), (compileIndex statement).into s with
    | .ok head, (.ok _, _) => [.compiledIndex head.name]
    | _, _ => []

/-! ## Sequences -/

/-- Reads a sequence definition, which gives a name. -/
def readSequenceDefinition (ts : List Token) : Compile String := do
  let rest ← readKeyword "CREATE" ts
  let rest ← readKeyword "SEQUENCE" rest
  let (name, rest) ← readName "sequence name" rest
  readEnd rest
  return name

/-- Compiles a sequence definition. -/
def compileSequence (statement : Statement) : Compiling SequenceId := do
  let s ← get
  let name ← readSequenceDefinition (Token.flatten statement)
  set (← fromCatalog (s.addSequence name))
  return s.sequences.length

/-- The notices that compiling a sequence definition leaves. -/
def Schema.sequenceNotices (s : Schema) (statement : Statement) : List Notice :=
  (Token.listLengths statement).map .openedList ++
    match readSequenceDefinition (Token.flatten statement), (compileSequence statement).into s with
    | .ok name, (.ok _, _) => [.compiledSequence name]
    | _, _ => []

end SqlCatalog
