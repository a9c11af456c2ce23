import SqlCatalog.Definition.Index
import SqlCatalog.Definition.SeedRow
import SqlCatalog.Definition.Table
import SqlCatalog.Schema.Discrepancy
import SqlCatalog.Schema.Listing

/-!
# Compiling scripts

The first words of a statement say what it defines. A script is compiled statement by statement:
the statements before one that is refused count, and nothing after it is looked at. A source that
cannot be cut into statements changes nothing.

## Main definitions

* `StatementKind.of` says what a statement defines.
* `compileStatement` compiles one statement, `compileScript` several, `compileSource` a source.
* `Schema.ofSource` compiles a source into an empty schema.
* `listingOf`, `reportOf` go from sources straight to a listing or a report.
-/

namespace SqlCatalog

/-! ## Kinds of statements -/

/-- What a statement defines. -/
inductive StatementKind where
  | table
  | sequence
  | index
  | seedRow
  /-- Nothing: there are no tokens but comments. -/
  | blank
deriving DecidableEq

/-- The kind of a statement, from its first two tokens that are no comments. -/
def StatementKind.of (statement : Statement) : Compile StatementKind :=
  match statement.filter Token.isSignificant with
  | [] => .ok .blank
  | first :: rest =>
    if first.isKeyword "CREATE" then
      match rest with
      | [] => violated "TABLE, SEQUENCE, INDEX or UNIQUE" none
      | second :: _ =>
        if second.isKeyword "TABLE" then .ok .table
        else if second.isKeyword "SEQUENCE" then .ok .sequence
        else if second.isKeyword "INDEX" || second.isKeyword "UNIQUE" then .ok .index
        else violated "TABLE, SEQUENCE, INDEX or UNIQUE" (some second)
    else if first.isKeyword "INSERT" then .ok .seedRow
    else .error (.unsupported ((first :: rest).take 3))

/-! ## Statements -/

/-- Compiles a statement as one of the given kind. -/
def StatementKind.compile (statement : Statement) : StatementKind → Compiling Unit
  | table => discard (compileTable statement)
  | sequence => discard (compileSequence statement)
  | index => compileIndex statement
  | seedRow => compileSeedRow statement
  | blank => return

/-- Compiles a statement. -/
def compileStatement (statement : Statement) : Compiling Unit := do
  (← StatementKind.of statement).compile statement

/-- The notices that compiling a statement leaves. -/
def Schema.notices (s : Schema) (statement : Statement) : List Notice :=
  match StatementKind.of statement with
  | .ok .table => s.tableNotices statement
  | .ok .sequence => s.sequenceNotices statement
  | .ok .index => s.indexNotices statement
  | .ok .seedRow => s.seedRowNotices statement
  | .ok .blank | .error _ => []

/-! ## Scripts -/

/-- Compiles statements up to the first that is refused. -/
def compileScript (script : List Statement) : Compiling Unit := script.forM compileStatement

/-- The notices that compiling statements leaves, up to the first that is refused. -/
def Schema.allNotices (s : Schema) : List Statement → List Notice
  | [] => []
  | statement :: rest =>
    s.notices statement ++
      match (compileStatement statement).into s with
      | (.ok _, s) => allNotices s rest
      | (.error _, _) => []

/-- Compiles a source, statement by statement. -/
def compileSource (source : String) : Compiling Unit := do
  let script ← (statements source).mapError CompileError.lex
  compileScript script

/-- The notices that compiling a source leaves. -/
def Schema.sourceNotices (s : Schema) (source : String) : List Notice :=
  match statements source with
  | .ok script => s.allNotices script
  | .error _ => []

/-- The schema of a source. -/
def Schema.ofSource (name : String) (dialect : Dialect) (source : String) : Compile Schema :=
  match (compileSource source).into (.empty name dialect) with
  | (.ok _, s) => .ok s
  | (.error e, _) => .error e

/-! ## From sources to texts -/

/-- The source name of a schema that comes from no file. -/
def unnamedSource : String := "<string>"

/-- The listing of the schema of a source, in the standard dialect. -/
def listingOf (source : String) : Except String String :=
  match Schema.ofSource unnamedSource .standard source with
  | .ok s => .ok s.listing
  | .error e => .error e.message

/-- The report of the schema of one source against that of another, in the standard dialect. -/
def reportOf (a b : String) : Except String String := do
  let mine ← (Schema.ofSource "a" .standard a).mapError CompileError.message
  let theirs ← (Schema.ofSource "b" .standard b).mapError CompileError.message
  return "\n".intercalate (mine.report theirs)

end SqlCatalog
