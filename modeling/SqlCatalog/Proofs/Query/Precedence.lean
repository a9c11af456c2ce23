import SqlCatalog.Proofs.Query.QueryTrees

/-!
# Reading conditions by precedence

The trees of a condition are first read as operands with what joins them: between two operands
stands an operator or a comma, and a test for null comes after one. Then the weakest operators are
looked for first. What stands between `or` is an alternative, between `and` a part of it, and a part
is one test of operands, which are sums of what is left; `+`, `-` and `||` associate to the left.
What stands between parentheses is a selection, a sum, several sums, or a condition again.

No word is reserved here. Names and operators are told apart by where they stand: where an operand
is due every word is one, and an operator is read only behind an operand. So a column can be called
`and` or `select`; a server that reserves such words wants them between quotes.

## Main definitions

* `Term` and `Condition` are what is read.
* `Item` is an operand or what joins two, and `readItems` reads the items of trees.
* `readDisjunction`, `readConjunction`, `readTest` and `readSum` are the levels of precedence.
* `Fragment.read` reads a condition from a fragment.
-/

namespace SqlCatalog

/-! ## Terms and conditions -/

/-- A term as it is read. -/
inductive Term where
  | reference (r : Reference)
  | slot (s : Slot)
  | star
  | call (name : String) (arguments : List Term)
  /-- A selection stands for what is written between its parentheses. -/
  | selection (trees : List QueryTree)
  | row (items : List Term)
  | binary (operator : Operator) (lhs rhs : Term)

/-- A condition as it is read. -/
inductive Condition where
  | null (negated : Bool) (operand : Term)
  | test (operator : Operator) (lhs rhs : Term)
  | all (parts : List Condition)
  | any (parts : List Condition)

/-- What stands between parentheses: an item alone is that item. -/
def Term.ofItems : List Term → Term
  | [t] => t
  | ts => .row ts

/-! ## Items -/

/-- An operand, of which the place where it stands tells whether it is a term or a condition. -/
structure Operand where
  term : Option Term
  condition : Option Condition

/-- An operand, or what stands between two or after one. -/
inductive Item where
  | operand (x : Operand)
  | joint (o : Operator)
  | nullTest (negated : Bool)
  | comma

/-- Whether the operator binds two terms to a term. -/
def Operator.isSum : Operator → Bool
  | plus | minus | concat => true
  | _ => false

namespace Item

/-- Whether the item is the given operator. -/
def isJoint (o : Operator) : Item → Bool
  | joint p => p == o
  | _ => false

/-- Whether the item is a comma. -/
def isComma : Item → Bool
  | comma => true
  | _ => false

/-- Whether the item belongs to a sum. -/
def isSummand : Item → Bool
  | operand _ => true
  | joint o => o.isSum
  | _ => false

end Item

/-! ## Levels of precedence -/

/-- A sum, of which the operands so far are the term. -/
def readSumFrom (t : Term) : List Item → Option Term
  | [] => some t
  | .joint o :: .operand x :: items => do readSumFrom (.binary o t (← x.term)) items
  | _ => none

/-- A sum. -/
def readSum : List Item → Option Term
  | .operand x :: items => do readSumFrom (← x.term) items
  | _ => none

/-- Sums with commas between them, if there are any. -/
def readList (items : List Item) : Option (List Term) :=
  if items.isEmpty then some [] else (items.splitOnP Item.isComma).mapM readSum

/-- A test of one operand or two, or a condition between parentheses. -/
def readTest (items : List Item) : Option Condition :=
  match items.takeWhile Item.isSummand, items.dropWhile Item.isSummand with
  | [.operand x], [] => x.condition
  | before, .joint o :: after => do return .test o (← readSum before) (← readSum after)
  | before, [.nullTest negated] => do return .null negated (← readSum before)
  | _, _ => none

/-- Tests with `and` between them. -/
def readConjunction (items : List Item) : Option Condition :=
  .all <$> (items.splitOnP (Item.isJoint .and)).mapM readTest

/-- Conjunctions with `or` between them. -/
def readDisjunction (items : List Item) : Option Condition :=
  .any <$> (items.splitOnP (Item.isJoint .or)).mapM readConjunction

/-! ## Reading items -/

namespace Operand

/-- An operand that is a term. -/
def ofTerm (t : Term) : Operand := ⟨some t, none⟩

/-- What stands between parentheses, where `items` are its items if it has any. -/
def ofGroup (inner : List QueryTree) (items : Option (List Item)) : Operand where
  term := if isSelection inner then some (.selection inner)
    else Term.ofItems <$> items.bind readList
  condition := items.bind readDisjunction

end Operand

/-- The name that a token is. -/
def QueryToken.name? : QueryToken → Option String
  | .word text => some text
  | .quoted name => some name
  | _ => none

/-- A leaf that is an operand alone. -/
def QueryToken.operand? : QueryToken → Option Operand
  | .place slot => some (.ofTerm (.slot slot))
  | .symbol "*" => some (.ofTerm .star)
  | t => (fun n => .ofTerm (.reference (.bare n))) <$> t.name?

/-- A leaf, or what stands between parentheses with its items, if it has any. -/
inductive Part where
  | leaf (t : QueryToken)
  | group (inner : List QueryTree) (items : Option (List Item))

mutual

/-- The items of parts of which the first begins an operand. -/
def readItems : List Part → Option (List Item)
  | [] => some []
  -- No operator follows a word here, so that a word before parentheses is a function.
  | .leaf (.word f) :: .group _ items :: rest => do
    let arguments ← items.bind readList
    (.operand (.ofTerm (.call f arguments)) :: ·) <$> readJoints rest
  | .leaf t :: .leaf (.symbol ".") :: .leaf u :: rest => do
    let reference := Reference.qualified (← t.name?) (← u.name?)
    (.operand (.ofTerm (.reference reference)) :: ·) <$> readJoints rest
  | .leaf t :: rest => do
    let x ← t.operand?
    (.operand x :: ·) <$> readJoints rest
  | .group inner items :: rest => (.operand (.ofGroup inner items) :: ·) <$> readJoints rest

/-- The items of parts that go on after an operand. -/
def readJoints : List Part → Option (List Item)
  | [] => some []
  | .leaf (.symbol ",") :: rest => (.comma :: ·) <$> readItems rest
  | .leaf (.word "not") :: .leaf (.word "in") :: rest => (.joint .notIn :: ·) <$> readItems rest
  | .leaf (.word "is") :: .leaf (.word "not") :: .leaf (.word "null") :: rest =>
    (.nullTest true :: ·) <$> readJoints rest
  | .leaf (.word "is") :: .leaf (.word "null") :: rest => (.nullTest false :: ·) <$> readJoints rest
  | .leaf (.word text) :: rest | .leaf (.symbol text) :: rest => do
    let o ← Operator.ofText? text
    (.joint o :: ·) <$> readItems rest
  | _ => none

end

mutual

/-- A tree as a part, the items between parentheses being read. -/
def QueryTree.part : QueryTree → Part
  | .leaf t => .leaf t
  | .group inner => .group inner (readItems (QueryTree.parts inner))

/-- Trees as parts. -/
def QueryTree.parts : List QueryTree → List Part
  | [] => []
  | t :: ts => t.part :: QueryTree.parts ts

end

/-- Reads a condition from a fragment that the speller wrote. -/
def Fragment.read (f : Fragment) (g : Speller) : Option Condition := do
  readDisjunction (← readItems (QueryTree.parts (← f.trees g)))

example :
    let word (text : String) := QueryTree.leaf (.word text)
    let symbol (text : String) := QueryTree.leaf (.symbol text)
    let x := Term.reference (.bare "x")
    let y := Term.reference (.bare "y")
    (readItems (QueryTree.parts [word "x", word "is", word "null", word "or", word "x", symbol "-",
      word "y", symbol "-", word "x", symbol "<", word "y", word "and", word "x", symbol "=",
      word "y"])).bind readDisjunction =
        some (.any [.all [.null false x],
          .all [.test .lt (.binary .minus (.binary .minus x y) x) y, .test .eq x y]]) := by
  rfl

end SqlCatalog
