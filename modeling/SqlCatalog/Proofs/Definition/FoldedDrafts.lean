import SqlCatalog.Proofs.Definition.Drafts
import SqlCatalog.Proofs.Definition.FoldedReaders

/-!
# Table definitions and the case of letters

The body of a table definition is read against the schema and against what was read of it before.
When the letters of both are folded, each clause changes the folded draft as it changes the draft
itself. So a whole body gives the folded draft, and is stopped at the same clause.

## Main definitions

* `Draft.folded` is a draft with the letters of its table and its notices folded.

## Main statements

* `readModifier_folded` and `readConstraint_folded`: a clause of a column and a constraint.
* `readBody_folded`: a body, clause by clause.
* `readTable_folded`: a table definition.
-/

namespace SqlCatalog

open Token (foldedAll)

/-- The notice with the letters of its names folded. -/
def Notice.folded : Notice → Notice
  | compiledTable name => compiledTable (asciiLower name)
  | compiledIndex name => compiledIndex (asciiLower name)
  | compiledSequence name => compiledSequence (asciiLower name)
  | compiledRow table => compiledRow (asciiLower table)
  | keyMismatch table column type target keyType =>
    keyMismatch (asciiLower table) (asciiLower column) type.folded (asciiLower target)
      keyType.folded
  | notice => notice

/-- The draft with the letters of its names folded. -/
def Draft.folded (d : Draft) : Draft :=
  { d with table := d.table.folded, notices := d.notices.map Notice.folded }

section Clauses

variable (s : Schema) (d : Draft)

theorem addConstraint_draft_folded (c : Constraint) :
    d.folded.withTable (d.folded.table.addConstraint c.folded) =
      (d.withTable (d.table.addConstraint c)).folded :=
  congrArg d.folded.withTable (addConstraint_folded d.table c)

/-- Folding commutes with setting the primary key, the error for a second one included. -/
theorem setPrimaryKey_folded (columns : List Nat) (clause : Token) :
    d.folded.setPrimaryKey columns (clause.folded false) =
      caseFolding.answer Draft.folded (d.setPrimaryKey columns clause) := by
  unfold Draft.setPrimaryKey
  show (if d.table.primaryKey.isSome then _ else _) = _
  split <;> rfl

/-! ## Defaults -/

theorem unwrapDefault_folded (t : Token) :
    unwrapDefault (t.folded false) = caseFolding.answer (Token.folded false) (unwrapDefault t) := by
  cases t with
  | paren inner =>
    match inner with
    | [] | [_] | _ :: _ :: _ => rfl
  | _ => rfl

theorem readSequenceName_folded (ts : List Token) :
    readSequenceName (foldedAll false ts) = caseFolding.answer id (readSequenceName ts) := by
  match ts with
  | [] => rfl
  | t :: _ :: _ => cases t <;> rfl
  | [t] =>
    cases t with
    | string raw => exact (answer_readString raw).symm
    | _ => rfl

/-- A default that is no call. -/
theorem plainDefault_folded (t : Token) :
    (if (t.folded false).isKeyword "NULL" then .ok .null
      else DefaultValue.literal <$> readLiteral "default value" (t.folded false)) =
      caseFolding.answer DefaultValue.folded
        (if t.isKeyword "NULL" then .ok .null
        else DefaultValue.literal <$> readLiteral "default value" t) := by
  rw [Token.isKeyword_folded]
  split
  · rfl
  · exact caseFolding.answer_map (readLiteral_folded "default value" t) fun _ => rfl

/-- Folding commutes with reading a default, the sequence it looks up included. -/
theorem readDefaultValue_folded (t : Token) :
    readDefaultValue s.folded (t.folded false) =
      caseFolding.answer DefaultValue.folded (readDefaultValue s t) := by
  have hplain := plainDefault_folded t
  cases t with
  | call parts =>
    refine caseFolding.answer_bind (readCall_folded "default value" (.call parts) parts) ?_
    rintro ⟨name, arguments⟩ _
    show (if sameIgnoringAsciiCase (asciiLower name) "nextval" then _ else _) =
      caseFolding.answer _ (if sameIgnoringAsciiCase name "nextval" then _ else _)
    rw [sameIgnoringAsciiCase_asciiLower]
    split
    · refine caseFolding.answer_bind (readSequenceName_folded arguments) fun sequence _ => ?_
      exact caseFolding.answer_bind (fromCatalog_folded (sequenceNamed_folded s sequence))
        fun _ _ => rfl
    · rfl
  | _ => exact hplain

theorem setDefault_folded (i : Nat) (value : DefaultValue) :
    d.folded.setDefault i value.folded = (d.setDefault i value).folded := by
  have htable := modifyColumn_folded d.table i
    (f := fun c => { c with default := some value })
    (g := fun c => { c with default := some value.folded }) fun _ => rfl
  cases value <;> exact congrArg (Draft.mk · _ _) htable

theorem readDefault_folded (i : Nat) (ts : List Token) :
    readDefault s.folded d.folded i (foldedAll false ts) =
      foldedRest Draft.folded (readDefault s d i ts) := by
  cases ts with
  | nil => rfl
  | cons t ts =>
    refine caseFolding.answer_bind (unwrapDefault_folded t) fun single _ => ?_
    refine caseFolding.answer_bind (readDefaultValue_folded s single) fun value _ => ?_
    exact congrArg (fun d => Except.ok (d, foldedAll false ts)) (setDefault_folded d i value)

/-! ## References -/

theorem readTarget_folded (t : Token) :
    readTarget (t.folded false) = caseFolding.answer asciiLower (readTarget t) := by
  cases t with
  | call parts =>
    dsimp only [readTarget, Token.folded]
    rw [callParts?_folded]
    cases Token.callParts? parts <;> rfl
  | identifier parts =>
    dsimp only [readTarget, Token.folded]
    rw [name?_identifier_folded]
    cases (Token.identifier parts).name? <;> rfl
  | _ => rfl

/-- The notices about a reference do not depend on letter case. -/
theorem keyNotices_folded (dialect : Dialect) (own : Table) (c : Column) (target : Table) :
    keyNotices dialect own.folded c.folded target.folded =
      (keyNotices dialect own c target).map Notice.folded := by
  rw [keyNotices, primaryKeyColumns_folded, keyNotices]
  match target.primaryKeyColumns with
  | [] | _ :: _ :: _ => rfl
  | [key] =>
    show (if typeFamily dialect (asciiLower key.type.name) ==
        typeFamily dialect (asciiLower c.type.name) then _ else _) =
      List.map _ (if typeFamily dialect key.type.name ==
        typeFamily dialect c.type.name then _ else _)
    rw [typeFamily_asciiLower, typeFamily_asciiLower]
    split <;> rfl

/-- A table is found under the folded name in the folded schema, the draft's own table first. -/
theorem findTable_folded (name : String) :
    d.folded.findTable s.folded (asciiLower name) =
      caseFolding.answer Table.folded (d.findTable s name) := by
  unfold Draft.findTable
  show (if s.dialect.sameName (asciiLower name) (asciiLower d.table.name) then _ else _) = _
  rw [sameName_asciiLower]
  show (if s.sameName name d.table.name then _ else _) = _
  split
  · rfl
  · exact fromCatalog_folded (tableNamed_folded s name)

/-- Folding commutes with reading a reference, its notices included. -/
theorem readReference_folded (i : Nat) (ts : List Token) :
    readReference s.folded d.folded i (foldedAll false ts) =
      foldedRest Draft.folded (readReference s d i ts) := by
  cases ts with
  | nil => rfl
  | cons t ts =>
    refine caseFolding.answer_bind (readTarget_folded t) fun name _ => ?_
    refine caseFolding.answer_bind (findTable_folded s d name) fun target _ => ?_
    have htable := modifyColumn_folded d.table i
      (f := fun c => { c with references := some target.id })
      (g := fun c => { c with references := some target.id }) fun _ => rfl
    have hcolumn : d.folded.table.columns[i]? = d.table.columns[i]?.map Column.folded :=
      List.getElem?_map
    have hnotices (notices : List Notice) :
        d.folded.notices ++ notices.map Notice.folded =
          (d.notices ++ notices).map Notice.folded := List.map_append.symm
    rw [hcolumn]
    cases d.table.columns[i]? with
    | none =>
      have hdraft := congrArg₂ (Draft.mk · d.users ·) htable (hnotices [])
      exact congrArg (fun d => Except.ok (d, foldedAll false ts)) hdraft
    | some c =>
      have hkey := keyNotices_folded s.dialect d.table c target
      have hdraft := congrArg₂ (Draft.mk · d.users ·) htable
        (hnotices (keyNotices s.dialect d.table c target))
      rw [← hkey] at hdraft
      exact congrArg (fun d => Except.ok (d, foldedAll false ts)) hdraft

/-! ## Actions -/

theorem readDeleteAction_folded (ts : List Token) :
    readDeleteAction (foldedAll false ts) = foldedRest id (readDeleteAction ts) := by
  refine caseFolding.answer_bind (readKeyword_folded ts "DELETE") fun rest _ => ?_
  match rest with
  | [] => rfl
  | [t] =>
    dsimp only [foldedAll]
    rw [Token.isKeyword_folded, Token.isKeyword_folded]
    split_ifs <;> rfl
  | t :: u :: rest =>
    dsimp only [foldedAll]
    rw [Token.isKeyword_folded, Token.isKeyword_folded, Token.isKeyword_folded,
      Token.isKeyword_folded]
    split_ifs <;> rfl

/-! ## Clauses of columns -/

theorem readModifier_folded (i : Nat) (t : Token) (ts : List Token) :
    readModifier s.folded d.folded i (t.folded false) (foldedAll false ts) =
      foldedRest Draft.folded (readModifier s d i t ts) := by
  unfold readModifier
  simp only [Token.isKeyword_folded]
  split
  · refine caseFolding.answer_bind (readKeyword_folded ts "KEY") fun rest _ => ?_
    exact caseFolding.answer_bind (setPrimaryKey_folded d [i] t) fun _ _ => rfl
  split
  · exact congrArg (fun d => Except.ok (d, foldedAll false ts))
      (addConstraint_draft_folded d (.unique none [i]))
  split
  · refine caseFolding.answer_bind (readKeyword_folded ts "NULL") fun rest _ => ?_
    exact congrArg (fun d => Except.ok (d, foldedAll false rest))
      (addConstraint_draft_folded d (.notNull i))
  split
  · rfl
  split
  · refine caseFolding.answer_bind (readParen_folded ts) fun paren _ => ?_
    refine caseFolding.answer_bind (readCheck_folded d.table paren.1) fun expression _ => ?_
    exact congrArg (fun d => Except.ok (d, foldedAll false paren.2))
      (addConstraint_draft_folded d (.check none expression))
  split
  · exact readDefault_folded s d i ts
  split
  · exact readReference_folded s d i ts
  split
  · refine caseFolding.answer_bind (readDeleteAction_folded ts) fun action _ => ?_
    have htable := modifyColumn_folded d.table i
      (f := fun c => { c with onDelete := some action.1 })
      (g := fun c => { c with onDelete := some action.1 }) fun _ => rfl
    exact congrArg (fun table => Except.ok (d.folded.withTable table, foldedAll false action.2))
      htable
  · rfl

end Clauses

/-! ## Constraints -/

/-- What reading a part of a body gives, with the letters of names folded. -/
def BodyStep.folded (step : BodyStep) : BodyStep :=
  ⟨step.draft.folded, step.next, foldedAll false step.rest⟩

section Constraints

variable (d : Draft)

/-- Folding commutes with what may stand after a constraint. -/
theorem afterConstraint_folded (ts : List Token) :
    afterConstraint d.folded (foldedAll false ts) =
      caseFolding.answer BodyStep.folded (afterConstraint d ts) := by
  cases ts with
  | nil => rfl
  | cons t ts =>
    rw [foldedAll, afterConstraint, isMark_folded_false, afterConstraint]
    split <;> rfl

theorem readConstraintName_folded (t : Token) (ts : List Token) :
    readConstraintName (t.folded false) (foldedAll false ts) =
      caseFolding.answer (Prod.map (Option.map asciiLower)
        (Prod.map (Token.folded false) (foldedAll false))) (readConstraintName t ts) := by
  unfold readConstraintName
  rw [Token.isKeyword_folded]
  split
  · refine caseFolding.answer_bind (readName_folded ts "constraint name") ?_
    rintro ⟨name, _ | ⟨kind, rest⟩⟩ _ <;> rfl
  · rfl

/-- Folding commutes with reading the body of a constraint. -/
theorem readConstraintBody_folded (name : Option String) (kind : Token) (ts : List Token) :
    readConstraintBody d.folded (name.map asciiLower) (kind.folded false) (foldedAll false ts) =
      foldedRest Draft.folded (readConstraintBody d name kind ts) := by
  unfold readConstraintBody
  simp only [Token.isKeyword_folded]
  split
  · refine caseFolding.answer_bind (readKeyword_folded ts "KEY") fun rest _ => ?_
    refine caseFolding.answer_bind (readParen_folded rest) fun paren _ => ?_
    refine caseFolding.answer_bind (readColumns_folded d.table paren.1) fun columns _ => ?_
    exact caseFolding.answer_bind (setPrimaryKey_folded d columns kind) fun _ _ => rfl
  split
  · refine caseFolding.answer_bind (readParen_folded ts) fun paren _ => ?_
    refine caseFolding.answer_bind (readColumns_folded d.table paren.1) fun columns _ => ?_
    exact congrArg (fun d => Except.ok (d, foldedAll false paren.2))
      (addConstraint_draft_folded d (.unique name columns))
  split
  · refine caseFolding.answer_bind (readParen_folded ts) fun paren _ => ?_
    refine caseFolding.answer_bind (readCheck_folded d.table paren.1) fun expression _ => ?_
    exact congrArg (fun d => Except.ok (d, foldedAll false paren.2))
      (addConstraint_draft_folded d (.check name expression))
  · rfl

theorem readConstraint_folded (t : Token) (ts : List Token) :
    readConstraint d.folded (t.folded false) (foldedAll false ts) =
      caseFolding.answer BodyStep.folded (readConstraint d t ts) := by
  refine caseFolding.answer_bind (readConstraintName_folded t ts) ?_
  rintro ⟨name, kind, rest⟩ _
  refine caseFolding.answer_bind (readConstraintBody_folded d name kind rest) fun body _ => ?_
  exact afterConstraint_folded body.1 body.2

end Constraints

/-! ## Bodies -/

section Bodies

variable (s : Schema) (d : Draft)

/-- Folding commutes with reading the name and the type of a column. -/
theorem readColumnStart_folded (name : String) (ts : List Token) :
    readColumnStart d.folded (asciiLower name) (foldedAll false ts) =
      caseFolding.answer BodyStep.folded (readColumnStart d name ts) := by
  refine caseFolding.answer_bind (readColumnType_folded ts) fun column _ => ?_
  refine caseFolding.answer_bind (fromCatalog_folded (addColumn_folded d.table name column.1))
    fun table _ => ?_
  have hlength : d.folded.table.columns.length = d.table.columns.length := List.length_map _
  rw [hlength]
  rfl

theorem readItem_folded (t : Token) (ts : List Token) :
    readItem d.folded (t.folded false) (foldedAll false ts) =
      caseFolding.answer BodyStep.folded (readItem d t ts) := by
  have hconstraint := readConstraint_folded d t ts
  cases t with
  | name n => exact readColumnStart_folded d n ts
  | identifier parts =>
    rw [Token.folded, readItem, name?_identifier_folded, readItem]
    cases (Token.identifier parts).name? with
    | none => rfl
    | some n => exact readColumnStart_folded d n ts
  | _ => exact hconstraint

/-- Folding commutes with one step through a body. -/
theorem readBodyStep_folded (place : BodyPlace) (t : Token) (ts : List Token) :
    readBodyStep s.folded d.folded place (t.folded false) (foldedAll false ts) =
      caseFolding.answer BodyStep.folded (readBodyStep s d place t ts) := by
  cases place with
  | item => exact readItem_folded d t ts
  | column i =>
    rw [readBodyStep, isMark_folded_false, readBodyStep]
    split
    · rfl
    · exact caseFolding.answer_bind (readModifier_folded s d i t ts) fun _ _ => rfl

/-- A body gives the folded draft, and is stopped by the folded error. -/
theorem readBody_folded (place : BodyPlace) (ts : List Token) :
    readBody s.folded d.folded place (foldedAll false ts) =
      (readBody s d place ts).map Draft.folded (Option.map CompileError.folded) := by
  -- The induction is on the tokens that are left, as in the definition of `readBody`.
  induction d, place, ts using readBody.induct s with
  | case1 d => rw [foldedAll, readBody, readBody]; rfl
  | case2 d i => rw [foldedAll, readBody, readBody]; rfl
  | case3 d place t ts e he =>
    rw [foldedAll, readBody_cons, readBodyStep_folded, readBody_cons, he]
    rfl
  | case4 d place t ts step hread hnext =>
    rw [foldedAll, readBody_cons, readBodyStep_folded, readBody_cons, hread]
    simp only [Transport.answer_ok, BodyStep.folded, hnext]
    rfl
  | case5 d place t ts step hread place' hnext ih =>
    rw [foldedAll, readBody_cons, readBodyStep_folded, readBody_cons, hread]
    simp only [Transport.answer_ok, BodyStep.folded, hnext]
    exact ih

end Bodies

/-! ## Tables -/

/-- Comments stay as they are written. -/
theorem leadingComment_folded (statement : Statement) :
    leadingComment (foldedAll false statement) = leadingComment statement := by
  have hcomment (t : Token) (ht : (!t.isSignificant) = true) :
      (t.folded false).text = t.text := by
    cases t with
    | comment raw => rfl
    | _ => cases ht
  have hlines : ((foldedAll false statement).takeWhile fun t => !t.isSignificant).map Token.text =
      (statement.takeWhile fun t => !t.isSignificant).map Token.text := by
    rw [Token.foldedAll_eq_map, List.takeWhile_map,
      show (fun t : Token => !t.isSignificant) ∘ Token.folded false = fun t => !t.isSignificant from
        funext fun t => congrArg not (Token.isSignificant_folded false t), List.map_map]
    exact List.map_congr_left fun t ht =>
      hcomment t (List.mem_takeWhile_imp (p := fun t : Token => !t.isSignificant) ht)
  exact congrArg (String.intercalate "\n") hlines

theorem readTableHead_folded (ts : List Token) :
    readTableHead (foldedAll false ts) = foldedRest asciiLower (readTableHead ts) := by
  refine caseFolding.answer_bind (readKeyword_folded ts "CREATE") fun rest _ => ?_
  refine caseFolding.answer_bind (readKeyword_folded rest "TABLE") fun rest _ => ?_
  cases rest with
  | nil => rfl
  | cons t rest =>
    have hname := readName_folded (t :: rest) "table name"
    cases t with
    | call parts =>
      refine caseFolding.answer_bind (readCall_folded "table name and body" (.call parts) parts) ?_
      intro head _
      exact caseFolding.answer_bind (readEnd_folded rest) fun _ _ => rfl
    | name _ | identifier _ =>
      refine caseFolding.answer_bind hname fun name _ => ?_
      refine caseFolding.answer_bind (readParen_folded name.2) fun body _ => ?_
      exact caseFolding.answer_bind (readEnd_folded body.2) fun _ _ => rfl
    | _ => rfl

/-- Folding commutes with reading a table definition: the draft, and the error it stopped at, are
folded. -/
theorem readTable_folded (s : Schema) (statement : Statement) :
    s.folded.readTable (foldedAll false statement) =
      caseFolding.answer (Prod.map Draft.folded (Option.map CompileError.folded))
        (s.readTable statement) := by
  unfold Schema.readTable
  rw [Token.flatten_folded, leadingComment_folded]
  refine caseFolding.answer_bind (readTableHead_folded _) fun head _ => ?_
  refine caseFolding.answer_bind (fromCatalog_folded (freshTable_folded s head.1)) fun t _ => ?_
  exact congrArg Except.ok
    (readBody_folded s ⟨{ t with comment := leadingComment statement }, [], []⟩ .item head.2)

end SqlCatalog
