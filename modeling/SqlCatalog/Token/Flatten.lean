import SqlCatalog.Token.Basic

/-!
# Flat token lists

A statement is read without its comments, and without the lists that grouping made: the items and
commas of a list take its place. Parentheses, calls and identifiers stay, flattened inside.

## Main definitions

* `flatten` drops comments and opens lists at every depth.
* `listLengths` are the lengths of the lists that are opened, in the order of their beginnings.
-/

namespace SqlCatalog

namespace Token

mutual

/-- What a token leaves when lists are opened and comments dropped. -/
def flattenToken : Token → List Token
  | comment _ => []
  | list items => flatten items
  | paren inner => [paren (flatten inner)]
  | call parts => [call (flatten parts)]
  | identifier parts => [identifier (flatten parts)]
  | t => [t]

/-- The tokens without comments and with every list replaced by its items and commas. -/
def flatten : List Token → List Token
  | [] => []
  | t :: ts => flattenToken t ++ flatten ts

end

mutual

/-- The lengths of the lists in a token. -/
def listLengthsToken : Token → List Nat
  | list items => items.length :: listLengths items
  | paren inner | call inner | identifier inner => listLengths inner
  | _ => []

/-- The lengths of the lists in tokens, an outer list before those inside it. -/
def listLengths : List Token → List Nat
  | [] => []
  | t :: ts => listLengthsToken t ++ listLengths ts

end

end Token

end SqlCatalog
