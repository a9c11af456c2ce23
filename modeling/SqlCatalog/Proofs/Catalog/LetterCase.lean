import SqlCatalog.Proofs.Definition.FoldedDrafts
import SqlCatalog.Proofs.Token.Recased

/-!
# The case of letters in a source

Sources that are the same but for the case of ASCII letters outside string literals, quoted names
and comments say the same. Compiling statements with their letters folded into a schema with its
letters folded does what compiling the statements into the schema does, folded. As sources that
differ in the case of letters have the same folded statements, they are accepted up to the same
statement and refused for the same reason, and leave schemas that differ in the case of letters.

## Main definitions

* `Schema.accepted` is the number of statements before the first that is refused.

## Main statements

* `carries_compileStatement_folded`: one statement.
* `compileSource_recased`: two sources.
-/

namespace SqlCatalog

open Token (foldedAll)

/-! ## Other statements -/

/-- The head of an index definition with the letters of its names folded. -/
def IndexHead.folded (head : IndexHead) : IndexHead :=
  { name := asciiLower head.name
    unique := head.unique
    table := asciiLower head.table
    method := head.method.map asciiLower
    columns := foldedAll false head.columns }

theorem readIndexMethod_folded (ts : List Token) :
    readIndexMethod (foldedAll false ts) =
      foldedRest (Prod.map asciiLower (foldedAll false)) (readIndexMethod ts) := by
  cases ts with
  | nil => rfl
  | cons t ts =>
    cases t with
    | call parts =>
      exact caseFolding.answer_map
        (readCall_folded "index method and columns" (.call parts) parts) fun _ => rfl
    | _ => rfl

theorem readIndexTarget_folded (name : String) (unique : Bool) (ts : List Token) :
    readIndexTarget (asciiLower name) unique (foldedAll false ts) =
      caseFolding.answer IndexHead.folded (readIndexTarget name unique ts) := by
  cases ts with
  | nil => rfl
  | cons t ts =>
    have htable := readName_folded (t :: ts) "table name"
    cases t with
    | call parts =>
      refine caseFolding.answer_bind (readCall_folded "table and columns" (.call parts) parts) ?_
      intro table _
      exact caseFolding.answer_bind (readEnd_folded ts) fun _ _ => rfl
    | name _ | identifier _ =>
      refine caseFolding.answer_bind htable fun table _ => ?_
      refine caseFolding.answer_bind (readKeyword_folded table.2 "USING") fun rest _ => ?_
      refine caseFolding.answer_bind (readIndexMethod_folded rest) fun method _ => ?_
      exact caseFolding.answer_bind (readEnd_folded method.2) fun _ _ => rfl
    | _ => rfl

/-- Folding commutes with reading an index definition. -/
theorem readIndexHead_folded (ts : List Token) :
    readIndexHead (foldedAll false ts) =
      caseFolding.answer IndexHead.folded (readIndexHead ts) := by
  refine caseFolding.answer_bind (readKeyword_folded ts "CREATE") fun rest _ => ?_
  have hunique : ((foldedAll false rest).head?.map (Token.isKeyword "UNIQUE")).getD false =
      (rest.head?.map (Token.isKeyword "UNIQUE")).getD false := by
    cases rest with
    | nil => rfl
    | cons t rest => exact Token.isKeyword_folded false t "UNIQUE"
  have htail : (foldedAll false rest).tail = foldedAll false rest.tail := by cases rest <;> rfl
  dsimp only
  rw [hunique, htail, ← apply_ite (foldedAll false)]
  refine caseFolding.answer_bind (readKeyword_folded _ "INDEX") fun rest _ => ?_
  refine caseFolding.answer_bind (readName_folded rest "index name") fun name _ => ?_
  refine caseFolding.answer_bind (readKeyword_folded name.2 "ON") fun rest _ => ?_
  exact readIndexTarget_folded name.1 _ rest

theorem readSequenceDefinition_folded (ts : List Token) :
    readSequenceDefinition (foldedAll false ts) =
      caseFolding.answer asciiLower (readSequenceDefinition ts) := by
  refine caseFolding.answer_bind (readKeyword_folded ts "CREATE") fun rest _ => ?_
  refine caseFolding.answer_bind (readKeyword_folded rest "SEQUENCE") fun rest _ => ?_
  refine caseFolding.answer_bind (readName_folded rest "sequence name") fun name _ => ?_
  exact caseFolding.answer_bind (readEnd_folded name.2) fun _ _ => rfl

/-- The definition of a seed row with the letters of the name of its table folded. -/
def SeedRowDefinition.folded (row : SeedRowDefinition) : SeedRowDefinition :=
  { row with table := asciiLower row.table }

theorem readSeedRow_folded (ts : List Token) :
    readSeedRow (foldedAll false ts) =
      caseFolding.answer SeedRowDefinition.folded (readSeedRow ts) := by
  refine caseFolding.answer_bind (readKeyword_folded ts "INSERT") fun rest _ => ?_
  refine caseFolding.answer_bind (readKeyword_folded rest "INTO") fun rest _ => ?_
  refine caseFolding.answer_bind (readName_folded rest "table name") fun table _ => ?_
  refine caseFolding.answer_bind (readKeyword_folded table.2 "VALUES") fun rest _ => ?_
  refine caseFolding.answer_bind (readParen_folded rest) fun inner _ => ?_
  refine caseFolding.answer_bind (readLiterals_folded inner.1) fun values _ => ?_
  exact caseFolding.answer_bind (readEnd_folded inner.2) fun _ _ => rfl

/-- The kind of a statement does not depend on letter case. -/
theorem kindOf_folded (statement : Statement) :
    StatementKind.of (foldedAll false statement) =
      caseFolding.answer id (StatementKind.of statement) := by
  have htake (ts : List Token) : (foldedAll false ts).take 3 = foldedAll false (ts.take 3) := by
    rw [Token.foldedAll_eq_map, ← List.map_take, Token.foldedAll_eq_map]
  rw [StatementKind.of, filter_isSignificant_folded, StatementKind.of]
  cases statement.filter Token.isSignificant with
  | nil => rfl
  | cons first rest =>
    dsimp only [foldedAll]
    rw [Token.isKeyword_folded, Token.isKeyword_folded]
    split
    · cases rest with
      | nil => rfl
      | cons second rest =>
        simp only [foldedAll, Token.isKeyword_folded]
        split_ifs <;> rfl
    · split
      · rfl
      · exact congrArg (fun ts => Except.error (CompileError.unsupported ts))
          (htake (first :: rest))

/-! ## Statements -/

section Statements

variable (s : Schema) (statement : Statement)

theorem carries_commit_folded (d : Draft) : caseFolding.Carries d.commit d.folded.commit s :=
  .commit rfl rfl addUser_folded (fromCatalog_folded (addTable_folded s d.table))

/-- A folded table definition does to the folded schema what the definition does to the schema. -/
theorem carries_compileTable_folded :
    caseFolding.Carries (compileTable statement) (compileTable (foldedAll false statement)) s := by
  refine .get (.read (readTable_folded s statement) ?_)
  rintro ⟨d, _ | e⟩ _
  · exact carries_commit_folded s d
  · exact .throw e

theorem carries_compileSequence_folded :
    caseFolding.Carries (compileSequence statement) (compileSequence (foldedAll false statement))
      s := by
  have hread := readSequenceDefinition_folded (Token.flatten statement)
  rw [← Token.flatten_folded] at hread
  have hlength : s.folded.sequences.length = s.sequences.length := List.length_map _
  refine .get (.read hread fun name _ => ?_)
  refine .read (fromCatalog_folded (addSequence_folded s name)) fun s' _ => ?_
  refine .bind (.set s') fun _ _ _ => ?_
  rw [show (caseFolding.schema s).sequences.length = s.sequences.length from hlength]
  exact .pure

theorem carries_compileIndex_folded :
    caseFolding.Carries (compileIndex statement) (compileIndex (foldedAll false statement)) s := by
  have hread := readIndexHead_folded (Token.flatten statement)
  rw [← Token.flatten_folded] at hread
  refine .get (.read hread fun head _ => ?_)
  refine .read (fromCatalog_folded (tableNamed_folded s head.table)) fun t _ => ?_
  refine .read (readNames_folded head.columns) fun names _ => ?_
  refine .read (fromCatalog_folded (columnIndexes_folded t names)) fun columns _ => ?_
  exact .read (fromCatalog_folded
    (addIndex_folded s ⟨head.name, t.id, head.unique, head.method, columns⟩)) fun s' _ => .set s'

theorem carries_compileSeedRow_folded :
    caseFolding.Carries (compileSeedRow statement) (compileSeedRow (foldedAll false statement))
      s := by
  have hread := readSeedRow_folded (Token.flatten statement)
  rw [← Token.flatten_folded] at hread
  refine .get (.read hread fun row _ => ?_)
  refine .read (fromCatalog_folded (tableNamed_folded s row.table)) fun t _ => ?_
  refine .read (fromCatalog_folded (addRow_folded t row.values)) fun t' _ => ?_
  show caseFolding.Carries _ (set (s.folded.modifyTable t.id fun _ => t'.folded)) s
  rw [modifyTable_folded]
  exact .set _

/-- A statement with its letters folded does the same in the folded schema. -/
theorem carries_compileStatement_folded :
    caseFolding.Carries (compileStatement statement)
      (compileStatement (foldedAll false statement)) s := by
  refine .read (kindOf_folded statement) fun kind _ => ?_
  cases kind with
  | table => exact (carries_compileTable_folded s statement).discard
  | sequence => exact (carries_compileSequence_folded s statement).discard
  | index => exact carries_compileIndex_folded s statement
  | seedRow => exact carries_compileSeedRow_folded s statement
  | blank => exact .pure

end Statements

/-! ## Scripts -/

namespace Schema

/-- How many statements are accepted before the first that is refused. -/
def accepted (s : Schema) : List Statement → Nat
  | [] => 0
  | statement :: rest =>
    match (compileStatement statement).into s with
    | (.ok _, s) => s.accepted rest + 1
    | (.error _, _) => 0

/-- How many statements of a source are accepted before the first that is refused; none if it
cannot be cut into statements. -/
def acceptedOf (s : Schema) (source : String) : Nat :=
  match statements source with
  | .ok script => s.accepted script
  | .error _ => 0

end Schema

section Scripts

variable (s : Schema) (script : List Statement)

/-- A folded script does to the folded schema what the script does to the schema. -/
theorem carries_compileScript_folded :
    caseFolding.Carries (compileScript script)
      (compileScript (script.map (foldedAll false))) s := by
  induction script generalizing s with
  | nil => exact .pure
  | cons statement rest ih =>
    exact (carries_compileStatement_folded s statement).bind fun _ s' _ => ih s'

/-- As many statements are accepted in either case. -/
theorem accepted_folded :
    s.folded.accepted (script.map (foldedAll false)) = s.accepted script := by
  induction script generalizing s with
  | nil => rfl
  | cons statement rest ih =>
    have hstatement : (compileStatement (foldedAll false statement)).into s.folded = _ :=
      carries_compileStatement_folded s statement
    rw [List.map_cons, Schema.accepted, hstatement, Schema.accepted]
    rcases (compileStatement statement).into s with ⟨e | _, s'⟩
    · rfl
    · exact congrArg (· + 1) (ih s')

end Scripts

/-! ## Sources -/

theorem mapError_folded {α : Type} (x : Compile α) :
    x.mapError CompileError.folded = caseFolding.answer id x := by
  cases x <;> rfl

/-- Sources that are the same but for the case of ASCII letters outside string literals, quoted
names and comments do the same to schemas that are the same but for the case of letters. Both are
compiled to the end, or both are refused for the same reason after as many statements, with an error
that is the same but for the case of letters; and so are the schemas that they leave. -/
theorem compileSource_recased {s s' : Schema} (hs : s'.folded = s.folded) {a b : String}
    (h : Recased a b) :
    ((compileSource b).into s').1.mapError CompileError.folded =
        ((compileSource a).into s).1.mapError CompileError.folded ∧
      ((compileSource b).into s').2.folded = ((compileSource a).into s).2.folded ∧
        s'.acceptedOf b = s.acceptedOf a := by
  have hstatements := statements_recased h
  rw [into_compileSource, into_compileSource, Schema.acceptedOf, Schema.acceptedOf]
  rcases hA : statements a with e | script <;> rcases hB : statements b with e' | script' <;>
    rw [hA, hB] at hstatements
  · obtain rfl := Except.error.inj hstatements
    exact ⟨rfl, hs, rfl⟩
  · cases hstatements
  · cases hstatements
  · -- Both scripts do what the folded script does to the folded schema, folded.
    have hscript : script.map (foldedAll false) = script'.map (foldedAll false) :=
      Except.ok.inj hstatements
    have hboth :
        (caseFolding.answer id ((compileScript script').into s').1,
          ((compileScript script').into s').2.folded) =
        (caseFolding.answer id ((compileScript script).into s).1,
          ((compileScript script).into s).2.folded) :=
      calc _ = (compileScript (script'.map (foldedAll false))).into s'.folded :=
            (carries_compileScript_folded s' script').symm
        _ = (compileScript (script.map (foldedAll false))).into s.folded := by rw [hs, hscript]
        _ = _ := carries_compileScript_folded s script
    obtain ⟨hanswer, hschema⟩ := Prod.mk.inj hboth
    refine ⟨?_, hschema, ?_⟩
    · rw [← mapError_folded, ← mapError_folded] at hanswer
      exact hanswer
    · calc s'.accepted script' = s'.folded.accepted (script'.map (foldedAll false)) :=
            (accepted_folded s' script').symm
        _ = s.folded.accepted (script.map (foldedAll false)) := by rw [hs, hscript]
        _ = s.accepted script := accepted_folded s script

/-- A sequence and a default that takes its numbers, written in two ways. Both statements of the
source are accepted. -/
theorem compileSource_recased_sequence :
    ∃ a b, a ≠ b ∧ Recased a b ∧ (Schema.empty "" .oracle).acceptedOf a = 2 ∧
      ((compileSource b).into (.empty "" .oracle)).1.mapError CompileError.folded =
          ((compileSource a).into (.empty "" .oracle)).1.mapError CompileError.folded ∧
        ((compileSource b).into (.empty "" .oracle)).2.folded =
            ((compileSource a).into (.empty "" .oracle)).2.folded ∧
          (Schema.empty "" .oracle).acceptedOf b = (Schema.empty "" .oracle).acceptedOf a := by
  have h : Recased "create sequence s; create table T (x integer default nextval('S')) -- T"
      "CREATE SEQUENCE S; Create Table t (X Integer Default NextVal('S')) -- T" := by
    rw [Recased]
    decide +kernel
  exact ⟨_, _, by decide, h, by decide +kernel, compileSource_recased rfl h⟩

end SqlCatalog
