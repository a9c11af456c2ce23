import SqlCatalog.Proofs.Text.LetterCase
import SqlCatalog.Proofs.Token.Borders
import SqlCatalog.Token.Flatten

/-!
# The case of letters in tokens

A token keeps what it is when the ASCII letters of its words are put into lower case. String
literals and comments are no words and stay as they are. Nesting, grouping, cutting and flattening
see no difference.

## Main definitions

* `Token.folded` is a token with the ASCII letters of its words in lower case.

## Main statements

* `text_folded`: the text of a token of which everything is folded.
* `nestFrom_folded`, `groupFrom_folded`, `splitStatements_folded` and `flatten_folded`: what becomes
  of tokens on the way to statements.
-/

namespace SqlCatalog

namespace Token

mutual

/-- The token with the ASCII letters of its words in lower case, those of literals, comments and
marks as well if `whole`. A dotted name has only words for parts, and is folded as a whole. -/
def folded (whole : Bool) : Token → Token
  | keyword k => keyword (asciiLower k)
  | name n => name (asciiLower n)
  | punctuation mark => punctuation (if whole then mark.toLower else mark)
  | string raw => string (if whole then asciiLower raw else raw)
  | integer digits => integer (if whole then asciiLower digits else digits)
  | comparison operator => comparison (if whole then asciiLower operator else operator)
  | comment raw => comment (if whole then asciiLower raw else raw)
  | identifier parts => identifier (foldedAll true parts)
  | list items => list (foldedAll whole items)
  | paren inner => paren (foldedAll whole inner)
  | call parts => call (foldedAll whole parts)

/-- The tokens with the ASCII letters of their words in lower case. -/
def foldedAll (whole : Bool) : List Token → List Token
  | [] => []
  | t :: ts => folded whole t :: foldedAll whole ts

end

theorem foldedAll_eq_map (whole : Bool) (ts : List Token) :
    foldedAll whole ts = ts.map (folded whole) := by
  induction ts with
  | nil => rfl
  | cons t ts ih => rw [foldedAll, ih, List.map_cons]

theorem foldedAll_append (whole : Bool) (ts us : List Token) :
    foldedAll whole (ts ++ us) = foldedAll whole ts ++ foldedAll whole us := by
  simp [foldedAll_eq_map]

/-! ## Tests -/

section Tests

variable (whole : Bool) (t : Token)

/-- A keyword in lower case is the same keyword, since keywords are compared without regard to case.
-/
theorem isKeyword_folded (word : String) : (t.folded whole).isKeyword word = t.isKeyword word := by
  cases t with
  | keyword k => exact sameIgnoringAsciiCase_asciiLower k word
  | _ => rfl

theorem isMark_folded (mark : Char) (hmark : mark.isAlpha = false) :
    (t.folded whole).isMark mark = t.isMark mark := by
  cases t with
  | punctuation m =>
    cases whole with
    | true => exact toLower_beq hmark m
    | false => rfl
  | _ => rfl

theorem isSignificant_folded : (t.folded whole).isSignificant = t.isSignificant := by
  cases t <;> rfl

/-- The text of a folded name is the name's text in lower case. -/
theorem nameText?_folded : (t.folded whole).nameText? = t.nameText?.map asciiLower := by
  cases t <;> rfl

theorem name?_folded : (t.folded whole).name? = t.name?.map asciiLower := by
  cases t with
  | identifier parts =>
    show (foldedAll true parts).reverse.findSome? nameText? = _
    rw [foldedAll_eq_map, ← List.map_reverse, List.findSome?_map]
    show _ = (parts.reverse.findSome? nameText?).map asciiLower
    rw [List.map_findSome?]
    exact congrArg (List.findSome? · parts.reverse) (funext (nameText?_folded true))
  | _ => rfl

end Tests

/-! ## Texts -/

mutual

/-- The text of a token that is folded as a whole. -/
theorem text_folded (t : Token) : (t.folded true).text = asciiLower t.text := by
  cases t with
  | punctuation mark =>
    show mark.toLower.toString = asciiLower mark.toString
    simp [asciiLower, Char.toString]
  | comment raw => exact trimEnd_asciiLower raw
  | identifier parts => exact textTight_folded parts
  | list items => exact textListed_folded items
  | paren inner =>
    rw [folded, text, textSpaced_folded, text, asciiLower_append, asciiLower_append]
    rfl
  | call parts => exact textTight_folded parts
  | _ => rfl

/-- The text of folded tokens, strings and comments folded too, is their text in lower case. -/
theorem textTight_folded (ts : List Token) :
    textTight (foldedAll true ts) = asciiLower (textTight ts) := by
  cases ts with
  | nil => rfl
  | cons t ts =>
    rw [foldedAll, textTight, text_folded, textTight_folded, textTight, asciiLower_append]

theorem textListed_folded (ts : List Token) :
    textListed (foldedAll true ts) = asciiLower (textListed ts) := by
  cases ts with
  | nil => rfl
  | cons t ts =>
    rw [foldedAll, textListed, text_folded, textListed_folded, textListed, asciiLower_append,
      isMark_folded true t ',' rfl]
    split <;> rfl

theorem textSpaced_folded (first : Bool) (ts : List Token) :
    textSpaced first (foldedAll true ts) = asciiLower (textSpaced first ts) := by
  cases ts with
  | nil => rfl
  | cons t ts =>
    rw [foldedAll, textSpaced, text_folded, textSpaced_folded, textSpaced, asciiLower_append,
      asciiLower_append, isMark_folded true t ',' rfl]
    split <;> rfl

end

/-! ## Flat tokens -/

mutual

theorem flattenToken_folded (whole : Bool) (t : Token) :
    flattenToken (t.folded whole) = foldedAll whole (flattenToken t) := by
  cases t with
  | list items => exact flatten_folded whole items
  | paren inner => exact congrArg (fun ts => [paren ts]) (flatten_folded whole inner)
  | call parts => exact congrArg (fun ts => [call ts]) (flatten_folded whole parts)
  | identifier parts => exact congrArg (fun ts => [identifier ts]) (flatten_folded true parts)
  | _ => rfl

/-- Folding commutes with flattening. -/
theorem flatten_folded (whole : Bool) (ts : List Token) :
    flatten (foldedAll whole ts) = foldedAll whole (flatten ts) := by
  cases ts with
  | nil => rfl
  | cons t ts =>
    rw [foldedAll, flatten, flattenToken_folded, flatten_folded, flatten, foldedAll_append]

end

end Token

open Token (folded foldedAll)

/-! ## Nesting -/

/-- Only what is folded as a whole can lose a mark. -/
theorem isMark_folded_false (t : Token) (mark : Char) :
    (t.folded false).isMark mark = t.isMark mark := by
  cases t <;> rfl

/-- Folding commutes with the nesting of parentheses, at any stage of it. -/
theorem nestFrom_folded (level : List Token) (outer : List (List Token)) (ts : List Token) :
    nestFrom (foldedAll false level) (outer.map (foldedAll false)) (foldedAll false ts) =
      (nestFrom level outer ts).map (foldedAll false) := by
  have reversed (ts : List Token) : (foldedAll false ts).reverse = foldedAll false ts.reverse := by
    rw [Token.foldedAll_eq_map, ← List.map_reverse, Token.foldedAll_eq_map]
  fun_induction nestFrom level outer ts with
  | case1 level outer hempty =>
    obtain rfl := List.isEmpty_iff.1 hempty
    exact congrArg some (reversed level)
  | case2 level outer hempty => simp [nestFrom, foldedAll, hempty]
  | case3 level outer t ts hopen ih =>
    rw [foldedAll, nestFrom_cons, isMark_folded_false, if_pos hopen]
    exact ih
  | case4 level t ts hopen hclose =>
    rw [foldedAll, nestFrom_cons, isMark_folded_false, if_neg hopen, isMark_folded_false,
      if_pos hclose]
    rfl
  | case5 level t ts hopen hclose above outer ih =>
    rw [foldedAll, nestFrom_cons, isMark_folded_false, if_neg hopen, isMark_folded_false,
      if_pos hclose, reversed]
    exact ih
  | case6 level outer t ts hopen hclose ih =>
    rw [foldedAll, nestFrom_cons, isMark_folded_false, if_neg hopen, isMark_folded_false,
      if_neg hclose]
    exact ih

theorem nest_folded (ts : List Token) :
    nest (foldedAll false ts) = (nest ts).map (foldedAll false) :=
  nestFrom_folded [] [] ts

/-! ## Grouping -/

theorem isItem_folded (t : Token) : (t.folded false).isItem = t.isItem := by
  cases t with
  | keyword k =>
    have hword := Token.isKeyword_folded false (.keyword k)
    show (_ || _ || _) = (_ || _ || _)
    rw [hword, hword, hword]
  | _ => rfl

/-- Folding keeps what is separated by commas. -/
theorem isCommaSeparated_folded (ts : List Token) :
    isCommaSeparated (foldedAll false ts) = isCommaSeparated ts := by
  fun_induction isCommaSeparated ts with
  | case1 => rfl
  | case2 item => exact isItem_folded item
  | case3 item comma rest ih =>
    rw [foldedAll, foldedAll, isCommaSeparated, isItem_folded, isMark_folded_false, ih]

theorem filter_isSignificant_folded (ts : List Token) :
    (foldedAll false ts).filter Token.isSignificant =
      foldedAll false (ts.filter Token.isSignificant) := by
  rw [Token.foldedAll_eq_map, List.filter_map, Token.foldedAll_eq_map]
  exact congrArg (List.map _ <| List.filter · ts) (funext (Token.isSignificant_folded false))

theorem asList_folded (ts : List Token) :
    asList (foldedAll false ts) = foldedAll false (asList ts) := by
  have hlevel : isListLevel (foldedAll false ts) = isListLevel ts := by
    rw [isListLevel, filter_isSignificant_folded, isCommaSeparated_folded, isListLevel,
      Token.foldedAll_eq_map, List.length_map]
  rw [asList, hlevel, asList]
  split <;> rfl

/-- The identifier that is being read, with its words folded. -/
def OpenName.folded : OpenName → OpenName
  | none => none
  | ended parts => ended (foldedAll true parts)
  | dotted parts => dotted (foldedAll true parts)

/-- Folding commutes with a step of the identifier that is being read. -/
theorem after_folded (o : OpenName) (t : Token) :
    o.folded.after (t.folded false) = (o.after t).folded := by
  cases t with
  | name n =>
    cases o with
    | dotted parts =>
      have hparts := Token.foldedAll_append true parts [.punctuation '.', .name n]
      exact congrArg OpenName.ended hparts.symm
    | _ => rfl
  | punctuation mark =>
    by_cases hdot : mark = '.'
    · subst hdot
      cases o <;> rfl
    · cases o <;> simp [OpenName.after, OpenName.folded, folded, hdot]
  | _ => cases o <;> rfl

/-- Folding commutes with what a token completes, once it does inside the token. -/
theorem emit_folded (o : OpenName) {t : Token}
    (h : groupInside (t.folded false) = (groupInside t).folded false) :
    o.folded.emit (t.folded false) = foldedAll false (o.emit t) := by
  cases t with
  | punctuation mark =>
    by_cases hdot : mark = '.'
    · subst hdot
      cases o <;> rfl
    · cases o <;> simp [OpenName.emit, OpenName.folded, groupInside, folded, foldedAll, hdot]
  | paren inner =>
    cases o with
    | none => exact congrArg (fun t => [t]) h
    | ended parts =>
      exact congrArg (fun t => [Token.call [.identifier (foldedAll true parts), t]]) h
    | dotted parts => rfl
  | _ => cases o <;> rfl

mutual

theorem groupInside_folded (t : Token) :
    groupInside (t.folded false) = (groupInside t).folded false := by
  cases t with
  | paren inner =>
    have hinner := groupFrom_folded .none inner
    show Token.paren (asList (groupFrom .none (foldedAll false inner))) = _
    rw [← show OpenName.none.folded = OpenName.none from rfl, hinner, asList_folded]
    rfl
  | _ => rfl

/-- Folding commutes with grouping, at any stage of it. -/
theorem groupFrom_folded (o : OpenName) (ts : List Token) :
    groupFrom o.folded (foldedAll false ts) = foldedAll false (groupFrom o ts) := by
  cases ts with
  | nil => cases o <;> rfl
  | cons t ts =>
    rw [foldedAll, groupFrom_cons, emit_folded o (groupInside_folded t), after_folded,
      groupFrom_folded, groupFrom_cons, Token.foldedAll_append]

end

theorem groupLevel_folded (ts : List Token) :
    groupLevel (foldedAll false ts) = foldedAll false (groupLevel ts) :=
  (congrArg asList (groupFrom_folded .none ts)).trans (asList_folded _)

/-! ## Cutting -/

/-- Folding commutes with cutting into statements, at any stage of it. -/
theorem splitStatements_folded (current : Statement) (ts : List Token) :
    splitStatements (foldedAll false current) (foldedAll false ts) =
      (splitStatements current ts).map (foldedAll false) := by
  have reversed (ts : List Token) : (foldedAll false ts).reverse = foldedAll false ts.reverse := by
    rw [Token.foldedAll_eq_map, ← List.map_reverse, Token.foldedAll_eq_map]
  induction ts generalizing current with
  | nil =>
    cases current with
    | nil => rfl
    | cons t current => exact congrArg (fun statement => [statement]) (reversed (t :: current))
  | cons t ts ih =>
    rw [foldedAll, splitStatements, isMark_folded_false, splitStatements]
    split
    · rw [reversed, List.map_cons, ← ih]
      rfl
    · exact ih (t :: current)

end SqlCatalog
