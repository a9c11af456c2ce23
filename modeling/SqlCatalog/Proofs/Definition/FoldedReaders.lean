import SqlCatalog.Proofs.Catalog.FoldedNames

/-!
# Readers and the case of letters

What a statement says does not depend on the case of the ASCII letters in its words. A reader that
is given folded tokens gives the same as for the tokens themselves, folded: names and types in lower
case, and errors with the folded token in place of the token.

## Main definitions

* `foldedRest` folds what a reader gives together with the tokens that follow.

## Main statements

* `readName_folded`, `readNames_folded`, `readLiterals_folded`, `readColumnType_folded` and
  `readCheck_folded` are about the parts of statements.
-/

namespace SqlCatalog

open Token (foldedAll)

/-- What a reader gives, with the result changed and the tokens that follow folded. -/
abbrev foldedRest {α β : Type} (f : α → β) :
    Compile (α × List Token) → Compile (β × List Token) :=
  caseFolding.answer (Prod.map f (foldedAll false))

/-! ## Single tokens -/

section Tokens

variable (ts : List Token)

theorem readKeyword_folded (word : String) :
    readKeyword word (foldedAll false ts) =
      caseFolding.answer (foldedAll false) (readKeyword word ts) := by
  cases ts with
  | nil => rfl
  | cons t ts =>
    rw [foldedAll, readKeyword, Token.isKeyword_folded, readKeyword]
    split <;> rfl

/-- Folding commutes with reading a name, which is then read in lower case. -/
theorem readName_folded (expected : String) :
    readName expected (foldedAll false ts) = foldedRest asciiLower (readName expected ts) := by
  cases ts with
  | nil => rfl
  | cons t ts =>
    rw [foldedAll, readName, Token.name?_folded, readName]
    cases t.name? <;> rfl

theorem readParen_folded :
    readParen (foldedAll false ts) = foldedRest (foldedAll false) (readParen ts) := by
  cases ts with
  | nil => rfl
  | cons t ts => cases t <;> rfl

theorem readEnd_folded : readEnd (foldedAll false ts) = caseFolding.answer id (readEnd ts) := by
  cases ts <;> rfl

/-- Folding commutes with taking a call apart. -/
theorem callParts?_folded (parts : List Token) :
    Token.callParts? (foldedAll false parts) =
      (Token.callParts? parts).map (Prod.map asciiLower (foldedAll false)) := by
  match parts with
  | [] | [_] => rfl
  | _ :: t :: _ :: _ => cases t <;> rfl
  | [head, t] =>
    cases t with
    | paren arguments =>
      show (head.folded false).name?.map _ = _
      rw [Token.name?_folded, Option.map_map]
      show _ = (head.name?.map _).map _
      rw [Option.map_map]
      rfl
    | _ => rfl

theorem readCall_folded (expected : String) (t : Token) (parts : List Token) :
    readCall expected (t.folded false) (foldedAll false parts) =
      foldedRest asciiLower (readCall expected t parts) := by
  rw [readCall, callParts?_folded, readCall]
  cases Token.callParts? parts <;> rfl

/-- The parts of a dotted name are folded as a whole, and so is the name. -/
theorem name?_identifier_folded (parts : List Token) :
    (Token.identifier (foldedAll true parts)).name? =
      (Token.identifier parts).name?.map asciiLower :=
  Token.name?_folded false (.identifier parts)

/-- A folded token is the same word, since words are compared without regard to case. -/
theorem isWord_folded (t : Token) (word : String) :
    (t.folded false).isWord word = t.isWord word := by
  cases t with
  | keyword k => exact sameIgnoringAsciiCase_asciiLower k word
  | name n => exact sameIgnoringAsciiCase_asciiLower n word
  | identifier parts =>
    rw [Token.folded, Token.isWord, name?_identifier_folded, Token.isWord]
    cases (Token.identifier parts).name? with
    | none => rfl
    | some n => exact sameIgnoringAsciiCase_asciiLower n word
  | _ => rfl

/-- A word is folded as a whole. -/
theorem text_of_isWord {t : Token} {word : String} (h : t.isWord word = true) :
    (t.folded false).text = asciiLower t.text := by
  cases t with
  | keyword k => rfl
  | name n => rfl
  | identifier parts => exact Token.text_folded (.identifier parts)
  | _ => cases h

end Tokens

/-! ## Lists -/

theorem readMoreNames_folded (ts : List Token) :
    readMoreNames (foldedAll false ts) =
      caseFolding.answer (List.map asciiLower) (readMoreNames ts) := by
  match ts with
  | [] => rfl
  | [comma] =>
    rw [foldedAll, foldedAll, readMoreNames, isMark_folded_false, readMoreNames]
    split <;> rfl
  | comma :: t :: rest =>
    rw [foldedAll, foldedAll, readMoreNames, isMark_folded_false, Token.name?_folded,
      readMoreNames]
    split
    · cases t.name? with
      | none => rfl
      | some n => exact caseFolding.answer_map (readMoreNames_folded rest) fun _ => rfl
    · rfl

/-- Folding commutes with reading a list of names. -/
theorem readNames_folded (inner : List Token) :
    readNames (foldedAll false inner) =
      caseFolding.answer (List.map asciiLower) (readNames inner) := by
  refine caseFolding.answer_bind (readName_folded inner _) fun first _ => ?_
  exact caseFolding.answer_bind (readMoreNames_folded first.2) fun more _ => rfl

/-! ## Literals -/

/-- A string literal is read as it is written. -/
theorem answer_readString (raw : String) :
    caseFolding.answer id (readString raw) = readString raw := by
  unfold readString
  cases unquote? raw <;> rfl

/-- Folding keeps the value of a literal, whose text has no letters to fold. -/
theorem literal?_folded (t : Token) :
    literal? (t.folded false) = (literal? t).map (caseFolding.answer id) := by
  cases t with
  | integer raw =>
    rw [Token.folded, if_neg Bool.false_ne_true, literal?]
    cases readInt64? raw <;> rfl
  | string raw =>
    rw [Token.folded, if_neg Bool.false_ne_true, literal?, readString]
    cases unquote? raw <;> rfl
  | keyword k =>
    have hword := Token.isKeyword_folded false (.keyword k)
    rw [Token.folded] at hword ⊢
    rw [literal?, hword, hword, hword, literal?]
    · split_ifs <;> rfl
    all_goals exact fun _ h => nomatch h
  | _ => rfl

theorem readLiteral_folded (expected : String) (t : Token) :
    readLiteral expected (t.folded false) = caseFolding.answer id (readLiteral expected t) := by
  rw [readLiteral, literal?_folded, readLiteral]
  cases literal? t <;> rfl

/-- Folding keeps the values of a list of literals. -/
theorem readLiterals_folded (ts : List Token) :
    readLiterals (foldedAll false ts) = caseFolding.answer id (readLiterals ts) := by
  match ts with
  | [] => rfl
  | [t] =>
    rw [foldedAll, foldedAll, readLiterals, readLiterals]
    exact caseFolding.answer_bind (readLiteral_folded _ t) fun value _ => rfl
  | t :: comma :: rest =>
    rw [foldedAll, foldedAll, readLiterals, readLiterals]
    refine caseFolding.answer_bind (readLiteral_folded _ t) fun value _ => ?_
    dsimp only
    rw [isMark_folded_false]
    split
    · exact caseFolding.answer_map (readLiterals_folded rest) fun _ => rfl
    · rfl

/-! ## Column types -/

theorem readTypeLength_folded (ts : List Token) :
    readTypeLength (foldedAll false ts) = caseFolding.answer id (readTypeLength ts) := by
  match ts with
  | [] => rfl
  | t :: _ :: _ => cases t <;> rfl
  | [t] =>
    cases t with
    | integer raw =>
      rw [foldedAll, foldedAll, Token.folded, if_neg Bool.false_ne_true, readTypeLength]
      cases readUInt32? raw <;> rfl
    | _ => rfl

theorem readWord_folded (word : String) (ts : List Token) :
    readWord word (foldedAll false ts) =
      caseFolding.answer (foldedAll false) (readWord word ts) := by
  cases ts with
  | nil => rfl
  | cons t ts =>
    rw [foldedAll, readWord, isWord_folded, readWord]
    split <;> rfl

theorem readTypeHead_folded (t : Token) :
    readTypeHead (t.folded false) =
      caseFolding.answer (Prod.map asciiLower id) (readTypeHead t) := by
  cases t with
  | call parts =>
    refine caseFolding.answer_bind (readCall_folded "column type" (.call parts) parts) ?_
    intro call _
    exact caseFolding.answer_bind (readTypeLength_folded call.2) fun _ _ => rfl
  | identifier parts =>
    rw [Token.folded, readTypeHead, name?_identifier_folded, readTypeHead]
    cases (Token.identifier parts).name? <;> rfl
  | _ => rfl

/-- Two words with a space between them. -/
theorem asciiLower_spaced (a b : String) :
    asciiLower s!"{a} {b}" = s!"{asciiLower a} {asciiLower b}" := by
  simp only [asciiLower_append]
  rfl

section TypeWords

variable (name : String) (length : Option UInt32) (t : Token) (rest : List Token)

/-- A type that one more word can go on with. -/
theorem nextWord_folded (word : String) :
    (if (t.folded false).isWord word then
        .ok ((s!"{asciiLower name} {(t.folded false).text}", length), foldedAll false rest)
      else .ok ((asciiLower name, length), foldedAll false (t :: rest))) =
      foldedRest (Prod.map asciiLower id)
        (if t.isWord word then .ok ((s!"{name} {t.text}", length), rest)
        else .ok ((name, length), t :: rest)) := by
  rw [isWord_folded]
  split
  · rename_i hword
    rw [text_of_isWord hword, ← asciiLower_spaced]
    rfl
  · rfl

/-- A type that three more words can go on with. -/
theorem zoned_folded :
    (if (t.folded false).isWord "with" || (t.folded false).isWord "without" then do
        let afterTime ← readWord "time" (foldedAll false rest)
        let afterZone ← readWord "zone" afterTime
        return ((s!"{asciiLower name} {(t.folded false).text} time zone", length), afterZone)
      else .ok ((asciiLower name, length), foldedAll false (t :: rest))) =
      foldedRest (Prod.map asciiLower id)
        (if t.isWord "with" || t.isWord "without" then do
          let afterTime ← readWord "time" rest
          let afterZone ← readWord "zone" afterTime
          return ((s!"{name} {t.text} time zone", length), afterZone)
        else .ok ((name, length), t :: rest)) := by
  rw [isWord_folded, isWord_folded]
  split
  · rename_i hword
    refine caseFolding.answer_bind (readWord_folded "time" rest) fun afterTime _ => ?_
    refine caseFolding.answer_bind (readWord_folded "zone" afterTime) fun afterZone _ => ?_
    have htext : (t.folded false).text = asciiLower t.text := by
      rcases Bool.or_eq_true_iff.1 hword with hword | hword <;> exact text_of_isWord hword
    have hname : asciiLower s!"{name} {t.text} time zone" =
        s!"{asciiLower name} {asciiLower t.text} time zone" := by
      simp only [asciiLower_append]
      rfl
    rw [htext, ← hname]
    rfl
  · rfl

end TypeWords

/-- A call is recognized by its name in either case. -/
theorem filter_callParts?_folded (word : String) (parts : List Token) :
    ((Token.callParts? (foldedAll false parts)).filter fun call =>
      sameIgnoringAsciiCase call.1 word) =
      ((Token.callParts? parts).filter fun call => sameIgnoringAsciiCase call.1 word).map
        (Prod.map asciiLower (foldedAll false)) := by
  rw [callParts?_folded]
  cases Token.callParts? parts with
  | none => rfl
  | some call =>
    rw [Option.map_some, Option.filter_some, Option.filter_some]
    show (if sameIgnoringAsciiCase (asciiLower call.1) word then _ else _) = _
    rw [sameIgnoringAsciiCase_asciiLower]
    split <;> rfl

/-- Folding commutes with reading the further words of a type. -/
theorem readTypeWords_folded (type : String × Option UInt32) (ts : List Token) :
    readTypeWords (type.map asciiLower id) (foldedAll false ts) =
      foldedRest (Prod.map asciiLower id) (readTypeWords type ts) := by
  obtain ⟨name, length⟩ := type
  unfold readTypeWords
  dsimp only [Prod.map]
  rw [lower_asciiLower]
  cases ts with
  | nil =>
    dsimp only [foldedAll]
    split
    case h_5 => rfl
    all_goals contradiction
  | cons t rest =>
    rw [foldedAll]
    -- Both readers look at the same word in lower case, so one case split serves both.
    generalize lower name = word
    split
    · rename_i hts
      cases hts
      exact nextWord_folded name length t rest "precision"
    · rename_i hts
      cases hts
      cases t with
      | call parts =>
        dsimp only [Token.folded]
        rw [filter_callParts?_folded]
        cases (Token.callParts? parts).filter fun call =>
          sameIgnoringAsciiCase call.1 "varying" with
        | none => rfl
        | some call =>
          refine caseFolding.answer_bind (readTypeLength_folded call.2) fun n _ => ?_
          have hname := asciiLower_spaced name call.1
          exact congrArg (fun name => Except.ok ((name, some n), foldedAll false rest)) hname.symm
      | _ => exact nextWord_folded name length _ rest "varying"
    · rename_i hts
      cases hts
      exact zoned_folded name length t rest
    · rename_i hts
      cases hts
      exact zoned_folded name length t rest
    · rename_i hdouble hcharacter htimestamp htime
      split
      · exact (hdouble _ _ rfl rfl).elim
      · exact (hcharacter _ _ rfl rfl).elim
      · exact (htimestamp _ _ rfl rfl).elim
      · exact (htime _ _ rfl rfl).elim
      · rfl

theorem readLengthAfter_folded (length : Option UInt32) (ts : List Token) :
    readLengthAfter length (foldedAll false ts) = foldedRest id (readLengthAfter length ts) := by
  cases length with
  | some n => cases ts <;> rfl
  | none =>
    cases ts with
    | nil => rfl
    | cons t ts =>
      cases t with
      | paren arguments =>
        exact caseFolding.answer_bind (readTypeLength_folded arguments) fun _ _ => rfl
      | _ => rfl

/-- Folding commutes with reading a type: its name is in lower case, its length the same. -/
theorem readColumnType_folded (ts : List Token) :
    readColumnType (foldedAll false ts) = foldedRest ColumnType.folded (readColumnType ts) := by
  cases ts with
  | nil => rfl
  | cons t ts =>
    refine caseFolding.answer_bind (readTypeHead_folded t) fun head _ => ?_
    refine caseFolding.answer_bind (readTypeWords_folded head ts) fun words _ => ?_
    refine caseFolding.answer_bind (readLengthAfter_folded words.1.2 words.2) fun length _ => ?_
    show (if isKnownType (asciiLower words.1.1) then _ else _) = _
    rw [isKnownType_asciiLower]
    split <;> rfl

/-! ## Checks -/

section Checks

variable (table : Table)

theorem readColumns_folded (inner : List Token) :
    table.folded.readColumns (foldedAll false inner) =
      caseFolding.answer id (table.readColumns inner) := by
  refine caseFolding.answer_bind (readNames_folded inner) fun names _ => ?_
  exact fromCatalog_folded (columnIndexes_folded table names)

theorem allFolded_columns (columns : List Nat) :
    CheckExpr.allFolded (columns.map .column) = columns.map .column := by
  induction columns with
  | nil => rfl
  | cons i columns ih => rw [List.map_cons, CheckExpr.allFolded, ih, CheckExpr.folded]

theorem readOperand_folded (t : Token) :
    readOperand table.folded (t.folded false) =
      caseFolding.answer CheckExpr.folded (readOperand table t) := by
  cases t with
  | name n =>
    exact caseFolding.answer_map (fromCatalog_folded (columnIndex_folded table n)) fun _ => rfl
  | identifier parts =>
    rw [Token.folded, readOperand, name?_identifier_folded, readOperand]
    cases (Token.identifier parts).name? with
    | none => rfl
    | some n =>
      exact caseFolding.answer_map (fromCatalog_folded (columnIndex_folded table n)) fun _ => rfl
  | call parts =>
    refine caseFolding.answer_bind (readCall_folded "function call" (.call parts) parts) ?_
    intro call _
    refine caseFolding.answer_bind (readColumns_folded table call.2) fun columns _ => ?_
    exact congrArg (fun es => Except.ok (CheckExpr.call (asciiLower call.1) es))
      (allFolded_columns columns).symm
  | _ =>
    exact caseFolding.answer_map (readLiteral_folded "column, literal or function" _) fun _ => rfl

theorem readNextOperand_folded (ts : List Token) :
    readNextOperand table.folded (foldedAll false ts) =
      foldedRest CheckExpr.folded (readNextOperand table ts) := by
  cases ts with
  | nil => rfl
  | cons t ts => exact caseFolding.answer_map (readOperand_folded table t) fun _ => rfl

theorem readCheck_folded (inner : List Token) :
    readCheck table.folded (foldedAll false inner) =
      caseFolding.answer CheckExpr.folded (readCheck table inner) := by
  refine caseFolding.answer_bind (readNextOperand_folded table inner) fun lhs _ => ?_
  rcases lhs with ⟨lhs, _ | ⟨t, rest⟩⟩
  · rfl
  · cases t with
    | comparison operator =>
      refine caseFolding.answer_bind (readNextOperand_folded table rest) fun rhs _ => ?_
      rcases rhs with ⟨rhs, _ | ⟨t, rest⟩⟩ <;> rfl
    | _ => rfl

end Checks

end SqlCatalog
