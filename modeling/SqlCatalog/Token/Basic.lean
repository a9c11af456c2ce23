import SqlCatalog.Text.Blank
import SqlCatalog.Text.Casing

/-!
# Tokens

A token is a word, a mark or a literal of the source, or a group of tokens that belong together:
the parts of a dotted name, a list separated by commas, what stands between parentheses, or a
name applied to arguments. The delimiters of a parenthesis are not among its tokens.

## Main definitions

* `Token`, with the word for its kind and its text.
* `Token.name?` is the name a token stands for.
* `Token.beq` decides whether two tokens are the same.
* `Statement` is the tokens of one statement.
-/

namespace SqlCatalog

/-- A token of the source or a group of them. -/
inductive Token where
  /-- A reserved word, in upper case when it was read from a source. -/
  | keyword (word : String)
  | punctuation (mark : Char)
  /-- A name without its quotes. -/
  | name (text : String)
  /-- A string literal with its quotes. -/
  | string (raw : String)
  | integer (digits : String)
  | comparison (operator : String)
  /-- Names with dots between them. -/
  | identifier (parts : List Token)
  /-- Items with commas between them. -/
  | list (items : List Token)
  | paren (inner : List Token)
  /-- A name and the parenthesis after it. -/
  | call (parts : List Token)
  /-- A comment with its delimiters. -/
  | comment (raw : String)

/-- The tokens of one statement, without the semicolon that ends it. -/
abbrev Statement := List Token

namespace Token

/-- The reserved word, in the letter case in which the lexer gives it. -/
def reserved (word : String) : Token := keyword (upper word)

/-- The word for the kind of a token. -/
def kind : Token → String
  | keyword _ => "keyword"
  | punctuation _ => "punctuation"
  | name _ => "name"
  | string _ => "string"
  | integer _ => "integer"
  | comparison _ => "comparison"
  | identifier _ => "identifier"
  | list _ => "identifier list"
  | paren _ => "parenthesis"
  | call _ => "function"
  | comment _ => "comment"

/-- Whether the token is the reserved word `word`, in any letter case. -/
def isKeyword (word : String) : Token → Bool
  | keyword k => sameIgnoringAsciiCase k word
  | _ => false

/-- Whether the token is the mark `mark`. -/
def isMark (mark : Char) : Token → Bool
  | punctuation m => m == mark
  | _ => false

/-- Whether the token says anything, that is, is no comment. -/
def isSignificant : Token → Bool
  | comment _ => false
  | _ => true

/-- The text of a token that is a name. -/
def nameText? : Token → Option String
  | name n => some n
  | _ => none

/-- The name a token stands for: its own, or the last one of a dotted name. -/
def name? : Token → Option String
  | name n => some n
  | identifier parts => parts.reverse.findSome? nameText?
  | _ => none

/-! ## Equality -/

mutual

/-- Whether two tokens are of the same kind, with the same text or the same tokens inside. -/
def beq : Token → Token → Bool
  | keyword a, keyword b => a == b
  | punctuation a, punctuation b => a == b
  | name a, name b => a == b
  | string a, string b => a == b
  | integer a, integer b => a == b
  | comparison a, comparison b => a == b
  | identifier as, identifier bs => beqAll as bs
  | list as, list bs => beqAll as bs
  | paren as, paren bs => beqAll as bs
  | call as, call bs => beqAll as bs
  | comment a, comment b => a == b
  | _, _ => false

/-- Whether tokens are the same one by one. -/
def beqAll : List Token → List Token → Bool
  | [], [] => true
  | a :: as, b :: bs => beq a b && beqAll as bs
  | _, _ => false

end

mutual

/-- The comparison of two tokens decides whether they are equal. -/
theorem beq_iff (a b : Token) : a.beq b = true ↔ a = b := by
  cases a with
  | identifier as | list as | paren as | call as => cases b <;> simp [beq, beqAll_iff as]
  | _ => cases b <;> simp [beq]

/-- The comparison of two lists of tokens decides whether they are equal. -/
theorem beqAll_iff (as bs : List Token) : beqAll as bs = true ↔ as = bs := by
  cases as with
  | nil => cases bs <;> simp [beqAll]
  | cons a as =>
    cases bs with
    | nil => simp [beqAll]
    | cons b bs => rw [beqAll, Bool.and_eq_true, beq_iff a, beqAll_iff as, List.cons.injEq]

end

instance : DecidableEq Token := fun a b => decidable_of_iff _ (beq_iff a b)

/-! ## Text -/

mutual

/-- The text of a token. -/
def text : Token → String
  | keyword s | name s | string s | integer s | comparison s => s
  | punctuation mark => mark.toString
  | comment s => trimEnd s
  | identifier parts | call parts => textTight parts
  | list items => textListed items
  | paren inner => "(" ++ textSpaced true inner ++ ")"

/-- The texts of tokens with nothing between them. -/
def textTight : List Token → String
  | [] => ""
  | t :: ts => text t ++ textTight ts

/-- The texts of tokens with a space after each comma. -/
def textListed : List Token → String
  | [] => ""
  | t :: ts => (if isMark ',' t then ", " else text t) ++ textListed ts

/-- The texts of tokens with a space before each but commas and the first of a parenthesis. -/
def textSpaced (first : Bool) : List Token → String
  | [] => ""
  | t :: ts => (if first || isMark ',' t then "" else " ") ++ text t ++ textSpaced false ts

end

/-- The name of a call and its arguments. -/
def callParts? : List Token → Option (String × List Token)
  | [head, paren arguments] => head.name?.map (·, arguments)
  | _ => none

end Token

end SqlCatalog
