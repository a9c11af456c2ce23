import SqlCatalog.Query.Error

/-!
# Fragments of SQL

A fragment is a text in which places are kept for arguments, and the arguments in the order of
their places. An argument is a value or a parameter; before a fragment is run, its parameters are
replaced by the values that are bound to their names. The places are spelled one after the other
by a speller, which keeps count of them.

## Main definitions

* `Argument`, `Binding`, `Bindings`.
* `Fragment` with `append`, `join`, `inParens`, `bind` and `values`.
* `Speller` keeps count of the places, and `Fragment.pushArgument` adds those of an argument.
* `Spelling` is what is written with a speller at hand, and `Argument.render` spells an argument.
-/

namespace SqlCatalog

/-! ## Arguments and bindings -/

/-- What stands at a place of a fragment. -/
inductive Argument where
  | value (v : Value)
  | parameter (p : Parameter)
deriving DecidableEq

/-- The number of places of an argument. -/
def Argument.places : Argument → Nat
  | value _ => 1
  | parameter p => p.count.getD 1

/-- Whether two arguments are equal, floating-point numbers being compared as numbers. -/
def Argument.agrees : Argument → Argument → Bool
  | value v, value w => v.agrees w
  | parameter p, parameter q => p == q
  | _, _ => false

/-- What a parameter stands for. -/
inductive Binding where
  | one (v : Value)
  | many (vs : List Value)
deriving DecidableEq

/-- What parameters stand for, by name; of two bindings of a name the later one counts. -/
abbrev Bindings := List (String × Binding)

/-- What the parameter `name` stands for. -/
def Bindings.get? (bs : Bindings) (name : String) : Option Binding := List.lookup name bs.reverse

/-- The values of a parameter. -/
def Parameter.resolve (bs : Bindings) (p : Parameter) : Except QueryError (List Value) :=
  match bs.get? p.name with
  | none => .error (.unboundParameter p.name)
  | some binding =>
    match p.count, binding with
    | none, .one v => .ok [v]
    | some n, .many vs =>
      if vs.length == n then .ok vs else .error (.parameterCount p.name n vs.length)
    | _, _ => .error (.wrongShape p.name)

/-- The values of an argument. -/
def Argument.resolve (bs : Bindings) : Argument → Except QueryError (List Value)
  | value v => .ok [v]
  | parameter p => p.resolve bs

/-! ## Places -/

/-- How places are spelled, and how many were spelled before. -/
structure Speller where
  placeholder : Placeholder
  used : Nat
deriving DecidableEq

namespace Speller

/-- The speller that has not spelled any place yet. -/
def fresh (p : Placeholder) : Speller := ⟨p, 0⟩

/-- The spelling of the next place. -/
def next (g : Speller) : String := g.placeholder.spell (g.used + 1)

/-- The speller when `n` more places were spelled. -/
def after (g : Speller) (n : Nat) : Speller := { g with used := g.used + n }

/-- The spellings of the next `n` places. -/
def places (g : Speller) (n : Nat) : List String := (List.range n).map fun i => (g.after i).next

end Speller

/-- What is written with a speller at hand: it leaves the speller after the places that it
spelled. -/
abbrev Spelling (α : Type) := StateM Speller α

/-! ## Fragments -/

/-- A text of SQL and its arguments, in the order of their places in the text. -/
structure Fragment where
  text : String
  arguments : List Argument
deriving DecidableEq

namespace Fragment

/-- The fragment without text. -/
def empty : Fragment := ⟨"", []⟩

/-- A fragment without arguments. -/
def ofText (s : String) : Fragment := ⟨s, []⟩

/-- Adds a text at the end. -/
def pushText (f : Fragment) (s : String) : Fragment := { f with text := f.text ++ s }

/-- One fragment after the other. -/
def append (f g : Fragment) : Fragment := ⟨f.text ++ g.text, f.arguments ++ g.arguments⟩

/-- The fragments one after the other. -/
def concat : List Fragment → Fragment
  | [] => empty
  | f :: fs => f.append (concat fs)

/-- Adds an argument at the end, its places being the next ones of a speller. -/
def pushArgument (f : Fragment) (g : Speller) (a : Argument) : Fragment where
  text := f.text ++ ", ".intercalate (g.places a.places)
  arguments := f.arguments ++ [a]

/-- The fragments one after the other, with a text between each two. -/
def join (separator : String) : List Fragment → Fragment
  | [] => empty
  | [f] => f
  | f :: fs => (f.pushText separator).append (join separator fs)

/-- The fragment between parentheses. -/
def inParens (f : Fragment) : Fragment := ((ofText "(").append f).pushText ")"

/-- The fragment between parentheses, if it needs them. -/
def inParensIf (needed : Bool) (f : Fragment) : Fragment := if needed then f.inParens else f

/-- The fragment with values in the places of its parameters. -/
def bind (f : Fragment) (bs : Bindings) : Except QueryError Fragment := do
  let values ← f.arguments.mapM (Argument.resolve bs)
  return ⟨f.text, values.flatten.map .value⟩

/-- The values of a fragment that has no parameters any more. -/
def values (f : Fragment) : Except QueryError (List Value) :=
  f.arguments.mapM fun
    | .value v => .ok v
    | .parameter p => .error (.unboundParameter p.name)

/-- Whether two fragments are equal, floating-point numbers being compared as numbers. -/
def agrees (f g : Fragment) : Bool :=
  f.text == g.text && f.arguments.length == g.arguments.length &&
    (f.arguments.zip g.arguments).all fun p => p.1.agrees p.2

end Fragment

/-- Spells the places of an argument. -/
def Argument.render (a : Argument) : Spelling Fragment := do
  let g ← get
  set (g.after a.places)
  return Fragment.empty.pushArgument g a

end SqlCatalog
