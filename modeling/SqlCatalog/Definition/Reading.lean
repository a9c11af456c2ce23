import SqlCatalog.Schema.Names
import SqlCatalog.Token.Grouping

/-!
# Reading statements

A statement is read from its flat tokens, from left to right. Each reader takes what it reads
off the front and gives the rest, or says what it expected and what it found instead.

## Main definitions

* `CompileError` says why a statement is refused.
* `Compile` reads, `Compiling` changes a schema.
* `readKeyword`, `readName`, `readParen`, `readEnd` read one token or the end.
* `Token.isWord` tests for a word, reserved or not.

## Main statements

* `length_of_readKeyword` and its kin: what is left is shorter by the token that was read.
-/

namespace SqlCatalog

/-- The kinds of literals that can be malformed. -/
inductive LiteralKind where
  | string
  | integer
  | typeLength
deriving DecidableEq

/-- The words for a kind of literal. -/
def LiteralKind.text : LiteralKind → String
  | string => "string"
  | integer => "integer"
  | typeLength => "type length"

/-- Why a statement or a source is refused. -/
inductive CompileError where
  /-- Something else stands where `expected` should, or nothing does. -/
  | violated (expected : String) (got : Option Token)
  | invalidLiteral (kind : LiteralKind) (text : String)
  /-- No kind of statement begins with these tokens. -/
  | unsupported (beginning : List Token)
  | lex (cause : LexError)
  | catalog (cause : CatalogError)

/-- The wording of an error. -/
def CompileError.message : CompileError → String
  | violated expected got =>
    let found := match got with
      | some t => t.kind ++ " " ++ t.text
      | none => "end of statement"
    s!"Violated expectation: expected {expected}, got {found}"
  | invalidLiteral kind text => s!"Invalid {kind.text} literal: {text}"
  | unsupported beginning =>
    "Unsupported statement: " ++ " ".intercalate (beginning.map Token.text)
  | lex cause => s!"Lex error: {cause.message}"
  | catalog cause => cause.message

/-- What reading a statement gives. -/
abbrev Compile := Except CompileError

/-- Refuses what stands in the place of something expected. -/
def violated {α : Type} (expected : String) (got : Option Token) : Compile α :=
  .error (.violated expected got)

/-- The answer of a look-up as an answer of a reader. -/
def fromCatalog {α : Type} : Except CatalogError α → Compile α
  | .ok a => .ok a
  | .error e => .error (.catalog e)

/-- Compiling into a schema that changes on the way. What was changed before a refusal stays. -/
abbrev Compiling := ExceptT CompileError (StateM Schema)

/-- What compiling into a schema gives, and the schema afterwards. -/
def Compiling.into {α : Type} (c : Compiling α) (s : Schema) : Except CompileError α × Schema :=
  c.run.run s

/-- A reader that goes on after another succeeds when both do. -/
theorem bind_eq_ok {α β : Type} {x : Compile α} {f : α → Compile β} {b : β} :
    (x >>= f) = .ok b ↔ ∃ a, x = .ok a ∧ f a = .ok b := by
  cases x <;> simp [bind, Except.bind]

/-- A mapped reading succeeds exactly with the image of what the reading gives. -/
theorem map_eq_ok {ε α β : Type} {f : α → β} {x : Except ε α} {b : β} :
    f <$> x = .ok b ↔ ∃ a, x = .ok a ∧ f a = b := by
  cases x <;> simp [Functor.map, Except.map]

/-- Passing an error of the catalog on changes nothing in a success. -/
theorem fromCatalog_eq_ok {α : Type} {x : Except CatalogError α} {a : α} :
    fromCatalog x = .ok a ↔ x = .ok a := by
  cases x <;> simp [fromCatalog]

/-! ## Single tokens -/

/-- Reads the given keyword. -/
def readKeyword (word : String) : List Token → Compile (List Token)
  | [] => violated word none
  | t :: ts => if t.isKeyword word then .ok ts else violated word (some t)

/-- Reads a name. -/
def readName (expected : String) : List Token → Compile (String × List Token)
  | [] => violated expected none
  | t :: ts =>
    match t.name? with
    | some n => .ok (n, ts)
    | none => violated expected (some t)

/-- Reads a parenthesis and gives what stands inside it. -/
def readParen : List Token → Compile (List Token × List Token)
  | .paren inner :: ts => .ok (inner, ts)
  | ts => violated "parenthesis" ts.head?

/-- Accepts the end of the statement only. -/
def readEnd : List Token → Compile Unit
  | [] => .ok ()
  | t :: _ => violated "end of statement" (some t)

/-- The name and the arguments of a call token. -/
def readCall (expected : String) (t : Token) (parts : List Token) :
    Compile (String × List Token) :=
  match Token.callParts? parts with
  | some call => .ok call
  | none => violated expected (some t)

/-- Whether the token is the given word, reserved or not, in any letter case. -/
def Token.isWord (word : String) : Token → Bool
  | .keyword k => sameIgnoringAsciiCase k word
  | .name n => sameIgnoringAsciiCase n word
  | t@(.identifier _) =>
    match t.name? with
    | some n => sameIgnoringAsciiCase n word
    | none => false
  | _ => false

/-! ## Lists of names -/

/-- Reads the names that follow the first one, each after a comma. -/
def readMoreNames : List Token → Compile (List String)
  | [] => .ok []
  | comma :: ts =>
    if comma.isMark ',' then
      match ts with
      | [] => violated "identifier" none
      | t :: rest =>
        match t.name? with
        | some n => (n :: ·) <$> readMoreNames rest
        | none => violated "identifier" (some t)
    else violated "',' or ')'" (some comma)

/-- Reads names with commas between them that fill a parenthesis. -/
def readNames (inner : List Token) : Compile (List String) := do
  let (first, rest) ← readName "identifier or list" inner
  let more ← readMoreNames rest
  return first :: more

/-! ## What is left is shorter -/

/-- A keyword takes one token. -/
theorem length_of_readKeyword {word : String} {ts rest : List Token}
    (h : readKeyword word ts = .ok rest) : rest.length < ts.length := by
  unfold readKeyword at h
  split at h
  · simp [violated] at h
  · split at h
    · simp only [Except.ok.injEq] at h
      simp [h]
    · simp [violated] at h

theorem length_of_readName {expected n : String} {ts rest : List Token}
    (h : readName expected ts = .ok (n, rest)) : rest.length < ts.length := by
  unfold readName at h
  split at h
  · simp [violated] at h
  · split at h
    · simp only [Except.ok.injEq, Prod.mk.injEq] at h
      simp [h.2]
    · simp [violated] at h

/-- A parenthesized group is one token, however much it holds. -/
theorem length_of_readParen {inner ts rest : List Token}
    (h : readParen ts = .ok (inner, rest)) : rest.length < ts.length := by
  unfold readParen at h
  split at h
  · simp only [Except.ok.injEq, Prod.mk.injEq] at h
    simp [h.2]
  · simp [violated] at h

end SqlCatalog
