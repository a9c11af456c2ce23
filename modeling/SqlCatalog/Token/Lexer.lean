import SqlCatalog.Text.Letters
import SqlCatalog.Text.Printable
import SqlCatalog.Token.Basic

/-!
# Reading tokens from a source

White space separates tokens and is dropped; comments are tokens. Every fault is a fault of the
token that starts at some character, so a fault is reported with the position of that character,
counted in characters from zero.

## Main definitions

* `reservedWords` are the words that are no names.
* `scanToken` reads one token from a character and what follows it.
* `scan` reads tokens up to the end or the first fault, `tokenize` gives either.

## Main statements

* `length_rest_le_of_scanToken`: a token takes at least its first character, so `scan` ends.
-/

namespace SqlCatalog

/-- The words that are read as keywords, in upper case. -/
def reservedWords : List String :=
  ["ALTER", "AND", "CASCADE", "CHECK", "CONSTRAINT", "CREATE", "DEFAULT", "DELETE", "DROP",
    "FALSE", "INDEX", "INSERT", "INTO", "IS", "KEY", "NOT", "NULL", "ON", "OR", "PRIMARY",
    "REFERENCES", "SELECT", "SEQUENCE", "SET", "TABLE", "TRUE", "UNIQUE", "UPDATE", "USING",
    "VALUES"]

/-! ## Faults -/

/-- What is wrong with the token that starts at some character. -/
inductive LexFault where
  /-- No token starts with this character. -/
  | unexpected (c : Char)
  /-- A string literal without an end. -/
  | openString
  /-- A quoted name without an end. -/
  | openName
  /-- A block comment without an end. -/
  | openComment
deriving DecidableEq

/-- Why a source has no tokens or no statements. -/
inductive LexError where
  /-- The token that starts `offset` characters after the beginning is at fault. -/
  | fault (cause : LexFault) (offset : Nat)
  /-- A parenthesis is closed but not open, or open to the end. -/
  | unbalanced
deriving DecidableEq

/-- The wording of an error. -/
def LexError.message : LexError → String
  | fault (.unexpected c) n => s!"Unexpected character {quoteChar c} at offset {n}"
  | fault .openString n => s!"Unterminated string literal starting at offset {n}"
  | fault .openName n => s!"Unterminated quoted identifier starting at offset {n}"
  | fault .openComment n => s!"Unterminated block comment starting at offset {n}"
  | unbalanced => "Unbalanced parenthesis"

/-! ## The parts of the source that end at a delimiter -/

/-- Whether a word goes on with `c`. -/
def isWordChar (c : Char) : Bool := isAlphanumeric c || c == '_' || c == '$'

/-- A line with the line feed that ends it, and what follows. -/
def takeLine : List Char → List Char × List Char
  | [] => ([], [])
  | '\n' :: cs => (['\n'], cs)
  | c :: cs => let r := takeLine cs; (c :: r.1, r.2)

/-- The rest of a block comment with its delimiter, and what follows. -/
def takeComment : List Char → Option (List Char × List Char)
  | [] => none
  | '*' :: '/' :: cs => some (['*', '/'], cs)
  | c :: cs => (takeComment cs).map fun r => (c :: r.1, r.2)

/-- The rest of a quoted name without its delimiter, two quotes being one, and what follows. -/
def takeName : List Char → Option (List Char × List Char)
  | [] => none
  | '"' :: '"' :: cs => (takeName cs).map fun r => ('"' :: r.1, r.2)
  | c :: cs => if c == '"' then some ([], cs) else (takeName cs).map fun r => (c :: r.1, r.2)

/-- The rest of a string literal as it is written, with its delimiter, and what follows. -/
def takeString : List Char → Option (List Char × List Char)
  | [] => none
  | '\'' :: '\'' :: cs => (takeString cs).map fun r => ('\'' :: '\'' :: r.1, r.2)
  | c :: cs => if c == '\'' then some (['\''], cs) else (takeString cs).map fun r => (c :: r.1, r.2)

/-! ## Tokens -/

/-- A word is a keyword if it is reserved, in any letter case, and a name otherwise. -/
def wordToken (word : String) : Token :=
  if reservedWords.contains (upper word) then .keyword (upper word) else .name word

/-- Reads a comparison operator that starts with `c`. -/
def scanComparison (c : Char) (cs : List Char) : Except LexFault (Token × List Char) :=
  match c, cs with
  | '<', '=' :: rest => .ok (.comparison "<=", rest)
  | '>', '=' :: rest => .ok (.comparison ">=", rest)
  | '!', '=' :: rest => .ok (.comparison "!=", rest)
  | '<', '>' :: rest => .ok (.comparison "<>", rest)
  | '!', _ => .error (.unexpected '!')
  | c, cs => .ok (.comparison c.toString, cs)

/-- Reads a token that starts with a letter, a digit or an underscore. -/
def scanWord (c : Char) (cs : List Char) : Except LexFault (Token × List Char) :=
  if c.isDigit then
    .ok (.integer (String.ofList (c :: cs.takeWhile Char.isDigit)), cs.dropWhile Char.isDigit)
  else if isAlphabetic c || c == '_' then
    .ok (wordToken (String.ofList (c :: cs.takeWhile isWordChar)), cs.dropWhile isWordChar)
  else .error (.unexpected c)

/-- Reads a token that starts with a minus sign: a comment to the end of the line or a number. -/
def scanMinus (cs : List Char) : Except LexFault (Token × List Char) :=
  match cs with
  | '-' :: rest =>
    let r := takeLine rest
    .ok (.comment (String.ofList ('-' :: '-' :: r.1)), r.2)
  | c :: _ =>
    if c.isDigit then
      .ok (.integer (String.ofList ('-' :: cs.takeWhile Char.isDigit)), cs.dropWhile Char.isDigit)
    else .error (.unexpected '-')
  | [] => .error (.unexpected '-')

/-- Reads the token that starts with `c` and goes on in `cs`, and gives what follows it. -/
def scanToken (c : Char) (cs : List Char) : Except LexFault (Token × List Char) :=
  if c == '-' then scanMinus cs
  else if c == '/' then
    match cs with
    | '*' :: rest =>
      match takeComment rest with
      | some r => .ok (.comment (String.ofList ('/' :: '*' :: r.1)), r.2)
      | none => .error .openComment
    | _ => .error (.unexpected '/')
  else if ['(', ')', ',', ';', '.'].contains c then .ok (.punctuation c, cs)
  else if ['=', '<', '>', '!'].contains c then scanComparison c cs
  else if c == '"' then
    match takeName cs with
    | some r => .ok (.name (String.ofList r.1), r.2)
    | none => .error .openName
  else if c == '\'' then
    match takeString cs with
    | some r => .ok (.string (String.ofList ('\'' :: r.1)), r.2)
    | none => .error .openString
  else scanWord c cs

/-! ## Every token takes at least one character -/

/-- What is left after a line comment is no longer than what it was read from. -/
theorem length_takeLine_le (cs : List Char) : (takeLine cs).2.length ≤ cs.length := by
  fun_induction takeLine cs with
  | case1 => simp
  | case2 cs => simp
  | case3 c cs _ r ih => exact Nat.le_succ_of_le ih

theorem length_takeComment_le {cs : List Char} {r : List Char × List Char}
    (h : takeComment cs = some r) : r.2.length ≤ cs.length := by
  fun_induction takeComment cs generalizing r with
  | case1 => simp at h
  | case2 cs => simp only [Option.some.injEq] at h; subst h; simp; omega
  | case3 c cs _ ih =>
    obtain ⟨u, hu, rfl⟩ := Option.map_eq_some_iff.1 h
    exact Nat.le_succ_of_le (ih (r := u) hu)

theorem length_takeName_le {cs : List Char} {r : List Char × List Char}
    (h : takeName cs = some r) : r.2.length ≤ cs.length := by
  fun_induction takeName cs generalizing r with
  | case1 => simp at h
  | case2 cs ih =>
    obtain ⟨u, hu, rfl⟩ := Option.map_eq_some_iff.1 h
    exact Nat.le_succ_of_le (Nat.le_succ_of_le (ih (r := u) hu))
  | case3 c cs => simp only [Option.some.injEq] at h; subst h; simp
  | case4 c cs _ _ ih =>
    obtain ⟨u, hu, rfl⟩ := Option.map_eq_some_iff.1 h
    exact Nat.le_succ_of_le (ih (r := u) hu)

theorem length_takeString_le {cs : List Char} {r : List Char × List Char}
    (h : takeString cs = some r) : r.2.length ≤ cs.length := by
  fun_induction takeString cs generalizing r with
  | case1 => simp at h
  | case2 cs ih =>
    obtain ⟨u, hu, rfl⟩ := Option.map_eq_some_iff.1 h
    exact Nat.le_succ_of_le (Nat.le_succ_of_le (ih (r := u) hu))
  | case3 c cs => simp only [Option.some.injEq] at h; subst h; simp
  | case4 c cs _ _ ih =>
    obtain ⟨u, hu, rfl⟩ := Option.map_eq_some_iff.1 h
    exact Nat.le_succ_of_le (ih (r := u) hu)

theorem length_rest_le_of_scanComparison {c : Char} {cs rest : List Char} {t : Token}
    (h : scanComparison c cs = .ok (t, rest)) : rest.length ≤ cs.length := by
  unfold scanComparison at h
  split at h <;> simp at h <;> obtain ⟨-, rfl⟩ := h <;> simp

theorem length_rest_le_of_scanWord {c : Char} {cs rest : List Char} {t : Token}
    (h : scanWord c cs = .ok (t, rest)) : rest.length ≤ cs.length := by
  unfold scanWord at h
  split at h
  · simp at h
    obtain ⟨-, rfl⟩ := h
    exact (List.dropWhile_suffix _).length_le
  · split at h
    · simp at h
      obtain ⟨-, rfl⟩ := h
      exact (List.dropWhile_suffix _).length_le
    · simp at h

theorem length_rest_le_of_scanMinus {cs rest : List Char} {t : Token}
    (h : scanMinus cs = .ok (t, rest)) : rest.length ≤ cs.length := by
  unfold scanMinus at h
  split at h
  · simp at h
    obtain ⟨-, rfl⟩ := h
    exact Nat.le_succ_of_le (length_takeLine_le _)
  · split at h
    · simp at h
      obtain ⟨-, rfl⟩ := h
      exact (List.dropWhile_suffix _).length_le
    · simp at h
  · simp at h

/-- Whatever the first character begins, the token takes nothing back, so the lexer ends. -/
theorem length_rest_le_of_scanToken {c : Char} {cs rest : List Char} {t : Token}
    (h : scanToken c cs = .ok (t, rest)) : rest.length ≤ cs.length := by
  unfold scanToken at h
  split at h
  · exact length_rest_le_of_scanMinus h
  split at h
  · split at h
    · split at h
      · rename_i hr
        simp at h
        obtain ⟨-, rfl⟩ := h
        exact Nat.le_succ_of_le (length_takeComment_le hr)
      · simp at h
    · simp at h
  split at h
  · simp at h
    obtain ⟨-, rfl⟩ := h
    exact Nat.le_refl _
  split at h
  · exact length_rest_le_of_scanComparison h
  split at h
  · split at h
    · rename_i hr
      simp at h
      obtain ⟨-, rfl⟩ := h
      exact length_takeName_le hr
    · simp at h
  split at h
  · split at h
    · rename_i hr
      simp at h
      obtain ⟨-, rfl⟩ := h
      exact length_takeString_le hr
    · simp at h
  · exact length_rest_le_of_scanWord h

/-! ## Sources -/

/-- The tokens up to the end of `cs` or to the first fault, and the fault with the characters
from which no token could be read. -/
def scan (cs : List Char) : List Token × Option (LexFault × List Char) :=
  match _hb : cs.dropWhile isBlank with
  | [] => ([], none)
  | c :: after =>
    match _ht : scanToken c after with
    | .error cause => ([], some (cause, c :: after))
    | .ok (t, rest) => let r := scan rest; (t :: r.1, r.2)
termination_by cs.length
decreasing_by
  all_goals
    have hd := (List.dropWhile_suffix isBlank (l := cs)).length_le
    have hr := length_rest_le_of_scanToken _ht
    rw [_hb, List.length_cons] at hd
    omega

/-- The tokens of a source up to its end or its first error, and that error. -/
def scanSource (source : String) : List Token × Option LexError :=
  let cs := source.toList
  let r := scan cs
  (r.1, r.2.map fun f => .fault f.1 (cs.length - f.2.length))

/-- The tokens of a source. -/
def tokenize (source : String) : Except LexError (List Token) :=
  match scanSource source with
  | (ts, none) => .ok ts
  | (_, some e) => .error e

end SqlCatalog
