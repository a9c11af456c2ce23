import SqlCatalog.Token.Lexer

/-!
# Statements of a source

The tokens of a source are nested by its parentheses, then each level is grouped: names with dots
between them become one identifier, an identifier with the parenthesis after it becomes a call,
and a level that is nothing but items with commas between them becomes a list. At last the
outermost level is cut at its semicolons.

Only a name that directly follows a dot goes on with an identifier. A dot after which anything
else stands ends the identifier, and what stands there is left as it is, a parenthesis ungrouped.

## Main definitions

* `nest` nests tokens by parentheses.
* `groupFrom` groups the tokens of a level, `asList` makes a list of a level that is one.
* `statements` is the whole way from a source to its statements.
-/

namespace SqlCatalog

/-! ## Nesting -/

/-- Nests `ts`, where `level` are the tokens of the current level and `outer` those of the levels
around it, all last first. -/
def nestFrom (level : List Token) (outer : List (List Token)) : List Token → Option (List Token)
  | [] => if outer.isEmpty then some level.reverse else none
  | t :: ts =>
    if t.isMark '(' then nestFrom [] (level :: outer) ts
    else if t.isMark ')' then
      match outer with
      | [] => none
      | above :: rest => nestFrom (.paren level.reverse :: above) rest ts
    else nestFrom (t :: level) outer ts

/-- Nests tokens by parentheses; `none` if these are not balanced. -/
def nest (ts : List Token) : Option (List Token) := nestFrom [] [] ts

/-! ## Lists -/

/-- Whether the token can be an item of a list. -/
def Token.isItem : Token → Bool
  | .identifier _ | .integer _ | .string _ | .call _ => true
  | t => t.isKeyword "NULL" || t.isKeyword "TRUE" || t.isKeyword "FALSE"

/-- Whether the tokens are items with commas between them, one item at least. -/
def isCommaSeparated : List Token → Bool
  | [] => false
  | [item] => item.isItem
  | item :: comma :: rest => item.isItem && comma.isMark ',' && isCommaSeparated rest

/-- Whether a level is a list of two items or more, comments apart. -/
def isListLevel (ts : List Token) : Bool :=
  let significant := ts.filter Token.isSignificant
  3 ≤ significant.length && isCommaSeparated significant

/-- A level that is a list, as one token. -/
def asList (ts : List Token) : List Token := if isListLevel ts then [.list ts] else ts

/-! ## Names and calls -/

/-- The part of an identifier that was read, when the next token may go on with it. -/
inductive OpenName where
  | none
  /-- Names with dots between them. -/
  | ended (parts : List Token)
  /-- Names with dots between them, and a dot after them. -/
  | dotted (parts : List Token)

mutual

/-- Groups what stands inside a parenthesis; any other token stays as it is. -/
def groupInside : Token → Token
  | .paren inner => .paren (asList (groupFrom .none inner))
  | t => t

/-- Groups the tokens of a level, where the first argument is the identifier that is being read. -/
def groupFrom : OpenName → List Token → List Token
  | .none, [] => []
  | .ended parts, [] => [.identifier parts]
  | .dotted parts, [] => [.identifier parts, .punctuation '.']
  | .none, t :: ts =>
    match t with
    | .name n => groupFrom (.ended [.name n]) ts
    | _ => groupInside t :: groupFrom .none ts
  | .ended parts, t :: ts =>
    match t with
    | .name n => .identifier parts :: groupFrom (.ended [.name n]) ts
    | .paren _ => .call [.identifier parts, groupInside t] :: groupFrom .none ts
    | .punctuation '.' => groupFrom (.dotted parts) ts
    | _ => .identifier parts :: t :: groupFrom .none ts
  | .dotted parts, t :: ts =>
    match t with
    | .name n => groupFrom (.ended (parts ++ [.punctuation '.', .name n])) ts
    | _ => .identifier parts :: .punctuation '.' :: t :: groupFrom .none ts

end

/-- The grouped tokens of a level. -/
def groupLevel (ts : List Token) : List Token := asList (groupFrom .none ts)

/-! ## Statements -/

/-- Cuts tokens at the semicolons. What follows the last semicolon counts if it is not empty. -/
def splitStatements (current : Statement) : List Token → List Statement
  | [] => if current.isEmpty then [] else [current.reverse]
  | t :: ts =>
    if t.isMark ';' then current.reverse :: splitStatements [] ts
    else splitStatements (t :: current) ts

/-- The statements of a source. -/
def statements (source : String) : Except LexError (List Statement) := do
  let flat ← tokenize source
  match nest flat with
  | some nested => .ok (splitStatements [] (groupLevel nested))
  | none => .error .unbalanced

end SqlCatalog
