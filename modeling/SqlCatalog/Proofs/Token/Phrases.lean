import SqlCatalog.Proofs.Token.Spelling
import SqlCatalog.Token.Flatten
import SqlCatalog.Token.Grouping
import SqlCatalog.Value

/-!
# Phrases

A statement is written as phrases: a word, a name, a literal or a comma, with or without a
parenthesis of phrases after it. Written with single spaces between them and a semicolon after
each statement, phrases go through the lexer, the nesting of parentheses and the grouping of
levels, and come out as the tokens that a reader of statements expects.

## Main definitions

* `Lexeme` and `Phrase` with what they are written as, `Phrase.pieces`.
* `Phrase.tokens` are the tokens that a reader finds in place of a phrase.
* `scriptText` is the text of some statements.

## Main statements

* `nestFrom_piecesAll`, `groupFrom_nestedAll`, `flatten_groupedAll`: one for each stage.
* `statements_scriptText`: the way from the text of a script to its statements.
-/

namespace SqlCatalog

/-! ## Lexemes -/

/-- The token that the spelling of a value is read as. That of a floating-point number is not read
as one token, since no token has a point in it. -/
def Value.token (v : Value) : Token :=
  match v with
  | null => .keyword "NULL"
  | bool b => .keyword (if b then "TRUE" else "FALSE")
  | int _ | float _ => .integer v.literal
  | text _ => .string v.literal

/-- Whether the value is a floating-point number. -/
def Value.isFloat : Value → Bool
  | float _ => true
  | _ => false

/-- A word, a name, a literal or a comma, as a script spells it. -/
inductive Lexeme where
  /-- A reserved word, in upper case. -/
  | reserved (word : String)
  /-- Any other word. -/
  | word (text : String)
  /-- A name, which is written between double quotes. -/
  | name (text : String)
  | value (v : Value)
  | number (n : Nat)
  | comma

namespace Lexeme

/-- The text of a lexeme. -/
def text : Lexeme → String
  | reserved w | word w => w
  | name n => enclose '"' n
  | value v => v.literal
  | number n => toString n
  | comma => ','.toString

/-- The token that the text is read as. -/
def token : Lexeme → Token
  | reserved w => .keyword w
  | word w | name w => .name w
  | value v => v.token
  | number n => .integer (toString n)
  | comma => .punctuation ','

/-- The name that a lexeme stands for in a script, if it stands for one. -/
def name? : Lexeme → Option String
  | word w | name w => some w
  | _ => none

/-- The token of a lexeme with no parenthesis after it, when its level is grouped. -/
def grouped (l : Lexeme) : Token :=
  match l.name? with
  | some n => .identifier [.name n]
  | none => l.token

/-- The tokens of a lexeme with a parenthesis after it, when its level is grouped. -/
def apply (l : Lexeme) (inner : List Token) : List Token :=
  match l.name? with
  | some n => [.call [.identifier [.name n], .paren inner]]
  | none => [l.token, .paren inner]

/-- Whether the text is read as the token: words are what they are said to be, and no value is a
floating-point number. -/
def IsReadable : Lexeme → Prop
  | reserved w => w ∈ reservedWords
  | word w => isPlainName w = true ∧ upper w ∉ reservedWords
  | value v => v.isFloat = false
  | name _ | number _ | comma => True

/-- A word that is reserved in some letter case is read as a keyword. -/
theorem readsAs_keyword {w k : String} (hw : isPlainName w = true) (hupper : upper w = k)
    (hk : k ∈ reservedWords) : ReadsAs w (.keyword k) := by
  have hread := readsAs_wordToken hw
  rwa [wordToken, hupper, if_pos (List.contains_iff_mem.2 hk)] at hread

/-- A reserved word is read as itself. -/
theorem readsAs_reserved {w : String} (h : w ∈ reservedWords) : ReadsAs w (.keyword w) := by
  have plain : ∀ w ∈ reservedWords, isPlainName w = true ∧ upper w = w := by decide +kernel
  exact readsAs_keyword (plain w h).1 (plain w h).2 h

/-- The literal of a value is read as the value's own token. -/
theorem readsAs_value {v : Value} (hv : v.isFloat = false) : ReadsAs v.literal v.token := by
  cases v with
  | null => exact readsAs_keyword (k := "NULL") (by decide) (by decide +kernel) (by decide)
  | bool b =>
    cases b with
    | true => exact readsAs_keyword (k := "TRUE") (by decide) (by decide +kernel) (by decide)
    | false => exact readsAs_keyword (k := "FALSE") (by decide) (by decide +kernel) (by decide)
  | int n => exact readsAs_int n.toInt
  | float x => cases hv
  | text s => exact readsAs_string s

/-- A readable lexeme is read as its token. -/
theorem readsAs {l : Lexeme} (h : l.IsReadable) : ReadsAs l.text l.token := by
  cases l with
  | reserved w => exact readsAs_reserved h
  | word w =>
    have hread := readsAs_wordToken h.1
    rwa [wordToken, if_neg (by simpa using h.2)] at hread
  | name n => exact readsAs_name n
  | number n => exact readsAs_nat n
  | comma => exact readsAs_mark (c := ',') (by decide)
  | value v => exact readsAs_value h

/-- A lexeme that is a name has that name as its token. -/
theorem token_of_name? {l : Lexeme} {n : String} (h : l.name? = some n) : l.token = .name n := by
  cases l with
  | word w | name w => rw [token, Option.some.inj h]
  | _ => cases h

end Lexeme

/-- Whether a token is a keyword, a literal or a comma, which no stage of grouping changes. -/
def Token.IsAtom : Token → Prop
  | keyword _ | string _ | integer _ => True
  | punctuation m => m = ','
  | _ => False

/-- A lexeme that is no name stands alone: nothing behind it is glued to it. -/
theorem Lexeme.isAtom_of_name? {l : Lexeme} (h : l.name? = none) : l.token.IsAtom := by
  cases l with
  | word w | name w => cases h
  | value v => cases v <;> trivial
  | comma => rfl
  | _ => trivial

/-! ## Phrases -/

/-- A lexeme, with or without a parenthesis after it. -/
inductive Phrase where
  | plain (l : Lexeme)
  | applied (l : Lexeme) (inner : List Phrase)

namespace Phrase

mutual

/-- The texts that a phrase is written as, with the tokens that they are read as. -/
def pieces : Phrase → List (String × Token)
  | plain l => [(l.text, l.token)]
  | applied l inner =>
    (l.text, l.token) :: ('('.toString, .punctuation '(') ::
      (piecesAll inner ++ [(')'.toString, .punctuation ')')])

/-- The texts and tokens of some phrases. -/
def piecesAll : List Phrase → List (String × Token)
  | [] => []
  | p :: ps => pieces p ++ piecesAll ps

end

mutual

/-- The tokens of a phrase, nested by parentheses. -/
def nested : Phrase → List Token
  | plain l => [l.token]
  | applied l inner => [l.token, .paren (nestedAll inner)]

/-- The nested tokens of some phrases. -/
def nestedAll : List Phrase → List Token
  | [] => []
  | p :: ps => nested p ++ nestedAll ps

end

mutual

/-- The tokens of a phrase when every level is grouped. -/
def grouped : Phrase → List Token
  | plain l => [l.grouped]
  | applied l inner => l.apply (asList (groupedAll inner))

/-- The grouped tokens of some phrases. -/
def groupedAll : List Phrase → List Token
  | [] => []
  | p :: ps => grouped p ++ groupedAll ps

end

mutual

/-- The tokens that a reader of statements finds in place of a phrase. -/
def tokens : Phrase → List Token
  | plain l => [l.grouped]
  | applied l inner => l.apply (tokensAll inner)

/-- The tokens that a reader of statements finds in place of some phrases. -/
def tokensAll : List Phrase → List Token
  | [] => []
  | p :: ps => tokens p ++ tokensAll ps

end

mutual

/-- Whether every lexeme of a phrase is readable. -/
def IsReadable : Phrase → Prop
  | plain l => l.IsReadable
  | applied l inner => l.IsReadable ∧ AllReadable inner

/-- Whether every lexeme of some phrases is readable. -/
def AllReadable : List Phrase → Prop
  | [] => True
  | p :: ps => IsReadable p ∧ AllReadable ps

end

@[simp] theorem tokensAll_append (ps qs : List Phrase) :
    tokensAll (ps ++ qs) = tokensAll ps ++ tokensAll qs := by
  induction ps with
  | nil => rfl
  | cons p ps ih => rw [List.cons_append, tokensAll, tokensAll, ih, List.append_assoc]

/-- A list of phrases is readable when each of its phrases is. -/
theorem allReadable_iff {ps : List Phrase} : AllReadable ps ↔ ∀ p ∈ ps, p.IsReadable := by
  induction ps with
  | nil => simp [AllReadable]
  | cons p ps ih => rw [AllReadable, ih, List.forall_mem_cons]

/-! ### Lexing -/

mutual

/-- Each piece of a readable phrase is read as its token. -/
theorem readsAs_pieces (p : Phrase) (h : p.IsReadable) : ∀ q ∈ p.pieces, ReadsAs q.1 q.2 := by
  cases p with
  | plain l => simpa [pieces] using Lexeme.readsAs h
  | applied l inner =>
    rw [IsReadable] at h
    have hinner := readsAs_piecesAll inner h.2
    have hopen := readsAs_mark (c := '(') (by decide)
    have hclose := readsAs_mark (c := ')') (by decide)
    intro q hq
    rw [pieces, List.mem_cons, List.mem_cons, List.mem_append, List.mem_singleton] at hq
    rcases hq with rfl | rfl | hq | rfl
    · exact Lexeme.readsAs h.1
    · exact hopen
    · exact hinner q hq
    · exact hclose

/-- Every piece of readable phrases is read as its token. -/
theorem readsAs_piecesAll (ps : List Phrase) (h : AllReadable ps) :
    ∀ q ∈ piecesAll ps, ReadsAs q.1 q.2 := by
  cases ps with
  | nil => simp [piecesAll]
  | cons p ps =>
    rw [AllReadable] at h
    have hp := readsAs_pieces p h.1
    have hps := readsAs_piecesAll ps h.2
    intro q hq
    rw [piecesAll, List.mem_append] at hq
    exact hq.elim (hp q) (hps q)

end

/-! ### Nesting -/

/-- No lexeme is read as a mark other than the comma. -/
theorem isMark_token (l : Lexeme) {c : Char} (hc : c ≠ ',') : l.token.isMark c = false := by
  cases l with
  | comma => simpa [Lexeme.token, Token.isMark] using hc.symm
  | value v => cases v <;> rfl
  | _ => rfl

section Nesting

variable (level : List Token) (outer : List (List Token)) (rest : List Token)

theorem nestFrom_token (l : Lexeme) :
    nestFrom level outer (l.token :: rest) = nestFrom (l.token :: level) outer rest := by
  simp [nestFrom, isMark_token]

theorem nestFrom_open :
    nestFrom level outer (.punctuation '(' :: rest) = nestFrom [] (level :: outer) rest := rfl

theorem nestFrom_close (above : List Token) :
    nestFrom level (above :: outer) (.punctuation ')' :: rest) =
      nestFrom (.paren level.reverse :: above) outer rest := rfl

end Nesting

mutual

/-- Nesting the pieces of a phrase puts its nested tokens on the open level and leaves the levels
outside alone. -/
theorem nestFrom_pieces (p : Phrase) (level : List Token) (outer : List (List Token))
    (rest : List Token) :
    nestFrom level outer (p.pieces.map Prod.snd ++ rest) =
      nestFrom (p.nested.reverse ++ level) outer rest := by
  cases p with
  | plain l => exact nestFrom_token level outer rest l
  | applied l inner =>
    have hinner := nestFrom_piecesAll inner [] ((l.token :: level) :: outer)
      (.punctuation ')' :: rest)
    rw [nestFrom_close, List.append_nil, List.reverse_reverse] at hinner
    simp only [pieces, nested, List.map_cons, List.map_append, List.map_nil, List.cons_append,
      List.append_assoc, List.nil_append]
    rw [nestFrom_token, nestFrom_open, hinner]
    rfl

/-- The parentheses of phrases are closed where they are said to be. -/
theorem nestFrom_piecesAll (ps : List Phrase) (level : List Token) (outer : List (List Token))
    (rest : List Token) :
    nestFrom level outer ((piecesAll ps).map Prod.snd ++ rest) =
      nestFrom ((nestedAll ps).reverse ++ level) outer rest := by
  cases ps with
  | nil => rfl
  | cons p ps =>
    rw [piecesAll, nestedAll, List.map_append, List.append_assoc, nestFrom_pieces p,
      nestFrom_piecesAll ps, List.reverse_append, List.append_assoc]

end

/-! ### Grouping -/

/-- Whether the tokens do not go on with an identifier or a call that stands before them. -/
def Closes (ts : List Token) : Prop :=
  ∀ t ∈ ts.head?, (∀ inner, t ≠ .paren inner) ∧ t ≠ .punctuation '.'

/-- What follows closes a name when it begins with neither a parenthesis nor a dot. -/
theorem closes_cons {t : Token} {ts : List Token} :
    Closes (t :: ts) ↔ (∀ inner, t ≠ .paren inner) ∧ t ≠ .punctuation '.' := by
  simp [Closes]

theorem closes_of_isAtom {t : Token} (h : t.IsAtom) (ts : List Token) : Closes (t :: ts) := by
  rw [closes_cons]
  cases t with
  | punctuation m =>
    obtain rfl : m = ',' := h
    exact ⟨by simp, by simp⟩
  | keyword | string | integer => exact ⟨by simp, by simp⟩
  | _ => cases h

theorem closes_token (l : Lexeme) (ts : List Token) : Closes (l.token :: ts) := by
  cases hl : l.name? with
  | some n =>
    rw [Lexeme.token_of_name? hl, closes_cons]
    exact ⟨by simp, by simp⟩
  | none => exact closes_of_isAtom (Lexeme.isAtom_of_name? hl) ts

/-- Further phrases do not reopen a name that what stands behind them closes. -/
theorem closes_nestedAll (ps : List Phrase) {rest : List Token} (hrest : Closes rest) :
    Closes (nestedAll ps ++ rest) := by
  cases ps with
  | nil => exact hrest
  | cons p ps => cases p <;> exact closes_token _ _

/-- A name stays open, since a dot or a parenthesis may follow it. -/
theorem groupFrom_name (n : String) (ts : List Token) :
    groupFrom .none (.name n :: ts) = groupFrom (.ended [.name n]) ts := by
  rw [groupFrom]

theorem groupFrom_atom {t : Token} (h : t.IsAtom) (ts : List Token) :
    groupFrom .none (t :: ts) = t :: groupFrom .none ts := by
  cases t with
  | keyword | string | integer | punctuation => simp [groupFrom, groupInside]
  | _ => cases h

/-- A parenthesis behind no name is a list or a group by what it holds. -/
theorem groupFrom_paren (inner ts : List Token) :
    groupFrom .none (.paren inner :: ts) =
      .paren (asList (groupFrom .none inner)) :: groupFrom .none ts := by
  simp [groupFrom, groupInside]

/-- A parenthesis behind a name makes a call. -/
theorem groupFrom_call (parts inner ts : List Token) :
    groupFrom (.ended parts) (.paren inner :: ts) =
      .call [.identifier parts, .paren (asList (groupFrom .none inner))] :: groupFrom .none ts := by
  simp [groupFrom, groupInside]

/-- An identifier ends before tokens that do not go on with it. -/
theorem groupFrom_ended {parts ts : List Token} (h : Closes ts) :
    groupFrom (.ended parts) ts = .identifier parts :: groupFrom .none ts := by
  cases ts with
  | nil => rw [groupFrom, groupFrom]
  | cons t ts =>
    obtain ⟨hparen, hdot⟩ := closes_cons.1 h
    cases t with
    | paren inner => exact absurd rfl (hparen inner)
    | punctuation m =>
      have hm : m = '.' → False := by simpa using hdot
      simp [groupFrom, groupInside]
    | _ => simp [groupFrom, groupInside]

mutual

/-- Before anything that closes a name, a phrase is grouped by itself. -/
theorem groupFrom_nested (p : Phrase) (rest : List Token) (hrest : Closes rest) :
    groupFrom .none (p.nested ++ rest) = p.grouped ++ groupFrom .none rest := by
  cases p with
  | plain l =>
    show groupFrom .none (l.token :: rest) = l.grouped :: groupFrom .none rest
    cases hl : l.name? with
    | some n =>
      rw [Lexeme.grouped, hl, Lexeme.token_of_name? hl, groupFrom_name, groupFrom_ended hrest]
    | none => rw [Lexeme.grouped, hl, groupFrom_atom (Lexeme.isAtom_of_name? hl)]
  | applied l inner =>
    have hinner := groupFrom_nestedAll inner [] (by simp [Closes])
    rw [groupFrom, List.append_nil, List.append_nil] at hinner
    show groupFrom .none (l.token :: .paren (nestedAll inner) :: rest) =
      l.apply (asList (groupedAll inner)) ++ groupFrom .none rest
    cases hl : l.name? with
    | some n =>
      rw [Lexeme.apply, hl, Lexeme.token_of_name? hl, groupFrom_name, groupFrom_call, hinner]
      rfl
    | none =>
      rw [Lexeme.apply, hl, groupFrom_atom (Lexeme.isAtom_of_name? hl), groupFrom_paren, hinner]
      rfl

/-- Each level of phrases is grouped as it is said to be. -/
theorem groupFrom_nestedAll (ps : List Phrase) (rest : List Token) (hrest : Closes rest) :
    groupFrom .none (nestedAll ps ++ rest) = groupedAll ps ++ groupFrom .none rest := by
  cases ps with
  | nil => rfl
  | cons p ps =>
    rw [nestedAll, groupedAll, List.append_assoc, groupFrom_nested p _ (closes_nestedAll ps hrest),
      groupFrom_nestedAll ps rest hrest, List.append_assoc]

end

/-! ### Flattening -/

theorem flatten_append (ts us : List Token) :
    Token.flatten (ts ++ us) = Token.flatten ts ++ Token.flatten us := by
  induction ts with
  | nil => rfl
  | cons t ts ih => rw [List.cons_append, Token.flatten, Token.flatten, ih, List.append_assoc]

/-- It makes no difference to a reader whether a level was made a list. -/
theorem flatten_asList (ts : List Token) : Token.flatten (asList ts) = Token.flatten ts := by
  unfold asList
  split
  · rw [Token.flatten, Token.flattenToken, Token.flatten, List.append_nil]
  · rfl

theorem flattenToken_atom {t : Token} (h : t.IsAtom) : Token.flattenToken t = [t] := by
  cases t with
  | keyword | string | integer | punctuation => rw [Token.flattenToken] <;> simp
  | _ => cases h

mutual

/-- Flattening a grouped phrase gives its own tokens back. -/
theorem flatten_grouped (p : Phrase) : Token.flatten p.grouped = p.tokens := by
  cases p with
  | plain l =>
    show Token.flattenToken l.grouped ++ [] = [l.grouped]
    cases hl : l.name? with
    | some n => simp [Lexeme.grouped, hl, Token.flattenToken, Token.flatten]
    | none =>
      rw [Lexeme.grouped, hl, flattenToken_atom (Lexeme.isAtom_of_name? hl), List.append_nil]
  | applied l inner =>
    have hinner := flatten_groupedAll inner
    rw [grouped, tokens]
    cases hl : l.name? with
    | some n =>
      simp [Lexeme.apply, hl, Token.flattenToken, Token.flatten, flatten_asList, hinner]
    | none =>
      have hatom := flattenToken_atom (Lexeme.isAtom_of_name? hl)
      simp [Lexeme.apply, hl, Token.flattenToken, Token.flatten, flatten_asList, hinner, hatom]

/-- Without lists and comments, grouped phrases are the tokens that a reader finds. -/
theorem flatten_groupedAll (ps : List Phrase) : Token.flatten (groupedAll ps) = tokensAll ps := by
  cases ps with
  | nil => rfl
  | cons p ps =>
    rw [groupedAll, tokensAll, flatten_append, flatten_grouped p, flatten_groupedAll ps]

end

/-! ### No semicolons -/

theorem isMark_grouped (l : Lexeme) : l.grouped.isMark ';' = false := by
  cases hl : l.name? with
  | some n =>
    rw [Lexeme.grouped, hl]
    rfl
  | none => rw [Lexeme.grouped, hl, isMark_token l (by decide)]

theorem isMark_apply (l : Lexeme) (inner : List Token) :
    ∀ t ∈ l.apply inner, t.isMark ';' = false := by
  cases hl : l.name? with
  | some n => simp [Lexeme.apply, hl, Token.isMark]
  | none =>
    have htoken : l.token.isMark ';' = false := isMark_token l (by decide)
    have hparen : (Token.paren inner).isMark ';' = false := rfl
    simp [Lexeme.apply, hl, htoken, hparen]

/-- Phrases leave no semicolon at their level. -/
theorem isMark_groupedAll (ps : List Phrase) : ∀ t ∈ groupedAll ps, t.isMark ';' = false := by
  induction ps with
  | nil => simp [groupedAll]
  | cons p ps ih =>
    intro t ht
    rw [groupedAll, List.mem_append] at ht
    rcases ht with ht | ht
    · cases p with
      | plain l =>
        obtain rfl : t = l.grouped := by simpa [grouped] using ht
        exact isMark_grouped l
      | applied l inner => exact isMark_apply l _ t ht
    · exact ih t ht

end Phrase

/-! ## Scripts -/

open Phrase

/-- The texts of some statements, a semicolon after each, with the tokens that they are read as. -/
def scriptPieces (script : List (List Phrase)) : List (String × Token) :=
  script.flatMap fun ps => piecesAll ps ++ [(';'.toString, .punctuation ';')]

/-- The text of some statements. -/
def scriptText (script : List (List Phrase)) : String :=
  " ".intercalate ((scriptPieces script).map Prod.fst)

/-- Each piece of a script of readable phrases is read as its token. -/
theorem readsAs_scriptPieces {script : List (List Phrase)} (h : ∀ ps ∈ script, AllReadable ps) :
    ∀ q ∈ scriptPieces script, ReadsAs q.1 q.2 := by
  intro q hq
  obtain ⟨ps, hps, hq⟩ := List.mem_flatMap.1 hq
  rw [List.mem_append, List.mem_singleton] at hq
  rcases hq with hq | rfl
  · exact readsAs_piecesAll ps (h ps hps) q hq
  · exact readsAs_mark (c := ';') (by decide)

/-- The parentheses of a script are balanced. -/
theorem nest_scriptPieces (script : List (List Phrase)) :
    nest ((scriptPieces script).map Prod.snd) =
      some (script.flatMap fun ps => nestedAll ps ++ [.punctuation ';']) := by
  -- The tokens before a statement stay on the level, so the induction is for any of them.
  have level (above : List Token) :
      nestFrom above [] ((scriptPieces script).map Prod.snd) =
        some (above.reverse ++ script.flatMap fun ps => nestedAll ps ++ [.punctuation ';']) := by
    induction script generalizing above with
    | nil => simp [scriptPieces, nestFrom]
    | cons ps script ih =>
      have hsemicolon (rest : List Token) : nestFrom ((nestedAll ps).reverse ++ above) []
          (.punctuation ';' :: rest) =
            nestFrom (.punctuation ';' :: ((nestedAll ps).reverse ++ above)) [] rest := rfl
      rw [scriptPieces, List.flatMap_cons, ← scriptPieces, List.map_append, List.map_append,
        List.append_assoc, nestFrom_piecesAll, List.map_singleton, List.singleton_append,
        hsemicolon, ih]
      simp
  exact level []

/-- The outermost level of a script is grouped statement by statement. -/
theorem groupFrom_script (script : List (List Phrase)) :
    groupFrom .none (script.flatMap fun ps => nestedAll ps ++ [.punctuation ';']) =
      script.flatMap fun ps => groupedAll ps ++ [.punctuation ';'] := by
  induction script with
  | nil => rw [List.flatMap_nil, groupFrom, List.flatMap_nil]
  | cons ps script ih =>
    have hcloses (rest : List Token) : Closes (.punctuation ';' :: rest) := by
      rw [closes_cons]
      exact ⟨by simp, by simp⟩
    have hsemicolon (rest : List Token) : groupFrom .none (.punctuation ';' :: rest) =
        .punctuation ';' :: groupFrom .none rest := by
      simp [groupFrom, groupInside]
    rw [List.flatMap_cons, List.append_assoc, List.singleton_append,
      groupFrom_nestedAll ps _ (hcloses _), hsemicolon, ih]
    simp

/-- A level with a semicolon is no list. -/
theorem asList_of_semicolon {ts : List Token} (h : Token.punctuation ';' ∈ ts) :
    asList ts = ts := by
  have separated (ts : List Token) (hts : isCommaSeparated ts = true) :
      ∀ t ∈ ts, t.isItem = true ∨ t.isMark ',' = true := by
    fun_induction isCommaSeparated ts with
    | case1 => simp
    | case2 item => simpa using .inl hts
    | case3 item comma rest ih =>
      simp only [Bool.and_eq_true] at hts
      simp only [List.forall_mem_cons]
      exact ⟨.inl hts.1.1, .inr hts.1.2, ih hts.2⟩
  have hnot : isListLevel ts = false := by
    rw [isListLevel, Bool.and_eq_false_iff]
    refine .inr (Bool.eq_false_iff.2 fun hts => ?_)
    have hmem : Token.punctuation ';' ∈ ts.filter Token.isSignificant :=
      List.mem_filter.2 ⟨h, rfl⟩
    exact absurd (separated _ hts _ hmem) (by decide)
  rw [asList, hnot]
  rfl

/-- Up to the next semicolon the tokens only move to the statement that is being read. -/
theorem splitStatements_append {ts : List Token} (h : ∀ t ∈ ts, t.isMark ';' = false)
    (current rest : List Token) :
    splitStatements current (ts ++ rest) = splitStatements (ts.reverse ++ current) rest := by
  induction ts generalizing current with
  | nil => rfl
  | cons t ts ih =>
    obtain ⟨ht, hts⟩ := List.forall_mem_cons.1 h
    simp [splitStatements, ht, ih hts]

/-- A semicolon ends the statement before it. -/
theorem splitStatements_closed_append {ts : List Token} (h : ∀ t ∈ ts, t.isMark ';' = false)
    (rest : List Token) :
    splitStatements [] (ts ++ .punctuation ';' :: rest) = ts :: splitStatements [] rest := by
  have hcut (current : List Token) : splitStatements current (.punctuation ';' :: rest) =
      current.reverse :: splitStatements [] rest := rfl
  rw [splitStatements_append h, hcut, List.append_nil, List.reverse_reverse]

/-- Cutting a script at its semicolons gives its statements. -/
theorem splitStatements_script (script : List (List Phrase)) :
    splitStatements [] (script.flatMap fun ps => groupedAll ps ++ [.punctuation ';']) =
      script.map groupedAll := by
  induction script with
  | nil => rfl
  | cons ps script ih =>
    rw [List.flatMap_cons, List.append_assoc, List.singleton_append,
      splitStatements_closed_append (isMark_groupedAll ps), ih]
    rfl

/-- The statements of a source whose tokens are those of a script. -/
theorem statements_of_scriptPieces {source : String} {script : List (List Phrase)}
    (h : tokenize source = .ok ((scriptPieces script).map Prod.snd)) :
    statements source = .ok (script.map groupedAll) := by
  have hgroup : groupLevel (script.flatMap fun ps => nestedAll ps ++ [.punctuation ';']) =
      script.flatMap fun ps => groupedAll ps ++ [.punctuation ';'] := by
    rw [groupLevel, groupFrom_script]
    cases script with
    | nil => rfl
    | cons ps script => exact asList_of_semicolon (by simp)
  simp only [statements, h, bind, Except.bind, nest_scriptPieces, hgroup, splitStatements_script]

/-- The statements of a script are read back from its text. -/
theorem statements_scriptText {script : List (List Phrase)} (h : ∀ ps ∈ script, AllReadable ps) :
    statements (scriptText script) = .ok (script.map groupedAll) :=
  statements_of_scriptPieces (tokenize_joined (readsAs_scriptPieces h))

end SqlCatalog
