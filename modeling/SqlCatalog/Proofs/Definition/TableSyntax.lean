import Mathlib.Data.List.Forall2
import SqlCatalog.Definition.Table

/-!
# The grammar of table definitions

What a table definition says is a name with columns and constraints, in the order in which they are
written. Which flat tokens it is written as is given production by production, without regard to how
these are read: a name is a name token or the last part of a dotted one, a keyword stands in any
letter case, and what has arguments is a call or, where both are read, a parenthesis of its own.

## Main definitions

* `CheckSyntax`, `DefaultSyntax`, `ClauseSyntax`, `ColumnSyntax`, `ConstraintSyntax`, `ItemSyntax`
  and `TableSyntax` are what the parts of a table definition say.
* `TableSyntax.Spelled`, built from a relation for each of these, says which tokens a table
  definition is written as.
-/

namespace SqlCatalog

/-! ## What a table definition says -/

/-- An operand of a check. -/
inductive OperandSyntax where
  | column (name : String)
  | literal (value : Value)
  /-- A function of columns. -/
  | call (name : String) (columns : List String)

/-- A comparison of two operands. -/
structure CheckSyntax where
  lhs : OperandSyntax
  operator : String
  rhs : OperandSyntax

/-- The default of a column. -/
inductive DefaultSyntax where
  | null
  | literal (value : Value)
  /-- The next number of a sequence. -/
  | next (sequence : String)
  /-- Any other call. -/
  | procedure (name : String) (arguments : List Token)

/-- A clause of a column. -/
inductive ClauseSyntax where
  | primaryKey
  | unique
  | notNull
  | null
  | check (check : CheckSyntax)
  | default (value : DefaultSyntax)
  | references (table : String)
  | onDelete (action : DeleteAction)

/-- A column with its clauses, in their order. -/
structure ColumnSyntax where
  name : String
  type : ColumnType
  clauses : List ClauseSyntax

/-- What a constraint of a table demands. -/
inductive RuleSyntax where
  | primaryKey (columns : List String)
  | unique (columns : List String)
  | check (check : CheckSyntax)

/-- A constraint of a table, with or without a name. -/
structure ConstraintSyntax where
  name : Option String
  rule : RuleSyntax

/-- A part of the body of a table definition. -/
inductive ItemSyntax where
  | column (column : ColumnSyntax)
  | constraint (constraint : ConstraintSyntax)

/-- A table definition. -/
structure TableSyntax where
  name : String
  items : List ItemSyntax

/-! ## How it is written -/

/-- The tokens are the given keywords. -/
def SpellsWords (words : List String) (ts : List Token) : Prop :=
  List.Forall₂ (fun word t => t.isKeyword word = true) words ts

/-- The tokens are the given names with commas between them. -/
inductive SpellsNames : List String → List Token → Prop
  | one {n : String} {t : Token} (h : t.name? = some n) : SpellsNames [n] [t]
  | cons {n : String} {ns : List String} {t comma : Token} {ts : List Token}
      (h : t.name? = some n) (hcomma : comma.isMark ',' = true) (hrest : SpellsNames ns ts) :
      SpellsNames (n :: ns) (t :: comma :: ts)

/-! ### Checks -/

/-- The token is the given operand. -/
inductive OperandSyntax.Spelled : OperandSyntax → Token → Prop
  | column {n : String} {t : Token} (h : t.name? = some n) : Spelled (.column n) t
  | literal {v : Value} {t : Token} (h : literal? t = some (.ok v)) : Spelled (.literal v) t
  | call {n : String} {columns : List String} {parts arguments : List Token}
      (hcall : Token.callParts? parts = some (n, arguments))
      (hcolumns : SpellsNames columns arguments) : Spelled (.call n columns) (.call parts)

/-- The tokens are the given check. -/
inductive CheckSyntax.Spelled : CheckSyntax → List Token → Prop
  | mk {c : CheckSyntax} {t u : Token} (hlhs : c.lhs.Spelled t) (hrhs : c.rhs.Spelled u) :
      Spelled c [t, .comparison c.operator, u]

/-! ### Types -/

/-- The token is the first word of a type, with its length if it is written as a call. -/
inductive SpellsTypeHead : ColumnType → Token → Prop
  | word {a : String} {t : Token} (h : t.name? = some a) : SpellsTypeHead ⟨a, none⟩ t
  | call {a raw : String} {n : UInt32} {parts : List Token}
      (hcall : Token.callParts? parts = some (a, [.integer raw])) (hn : readUInt32? raw = some n) :
      SpellsTypeHead ⟨a, some n⟩ (.call parts)

/-- The tokens are the words of a type: one, two or four of them. -/
inductive SpellsTypeWords : ColumnType → List Token → Prop
  | one {type : ColumnType} {t : Token} (h : SpellsTypeHead type t) : SpellsTypeWords type [t]
  | double {a : String} {length : Option UInt32} {t u : Token} (h : SpellsTypeHead ⟨a, length⟩ t)
      (ha : lower a = "double") (hu : u.isWord "precision" = true) :
      SpellsTypeWords ⟨s!"{a} {u.text}", length⟩ [t, u]
  | varying {a : String} {length : Option UInt32} {t u : Token} (h : SpellsTypeHead ⟨a, length⟩ t)
      (ha : lower a = "character") (hu : u.isWord "varying" = true) :
      SpellsTypeWords ⟨s!"{a} {u.text}", length⟩ [t, u]
  /-- The length of the second word replaces that of the first one. -/
  | varyingCall {a b raw : String} {length : Option UInt32} {n : UInt32} {t : Token}
      {parts : List Token} (h : SpellsTypeHead ⟨a, length⟩ t) (ha : lower a = "character")
      (hcall : Token.callParts? parts = some (b, [.integer raw]))
      (hb : sameIgnoringAsciiCase b "varying" = true) (hn : readUInt32? raw = some n) :
      SpellsTypeWords ⟨s!"{a} {b}", some n⟩ [t, .call parts]
  | zone {a : String} {length : Option UInt32} {t u v w : Token} (h : SpellsTypeHead ⟨a, length⟩ t)
      (ha : lower a = "timestamp" ∨ lower a = "time")
      (hu : u.isWord "with" = true ∨ u.isWord "without" = true) (hv : v.isWord "time" = true)
      (hw : w.isWord "zone" = true) :
      SpellsTypeWords ⟨s!"{a} {u.text} time zone", length⟩ [t, u, v, w]

/-- The tokens are the given type, whose length may stand in a parenthesis after its words. -/
inductive ColumnType.Spelled : ColumnType → List Token → Prop
  | words {type : ColumnType} {ts : List Token} (h : SpellsTypeWords type ts) : Spelled type ts
  | length {a raw : String} {n : UInt32} {ts : List Token} (h : SpellsTypeWords ⟨a, none⟩ ts)
      (hn : readUInt32? raw = some n) : Spelled ⟨a, some n⟩ (ts ++ [.paren [.integer raw]])

/-! ### Columns -/

/-- The token is the given default. -/
inductive DefaultSyntax.Spelled : DefaultSyntax → Token → Prop
  | null {t : Token} (h : t.isKeyword "NULL" = true) : Spelled .null t
  | literal {v : Value} {t : Token} (hnull : t.isKeyword "NULL" = false)
      (h : literal? t = some (.ok v)) : Spelled (.literal v) t
  | next {f raw sequence : String} {parts : List Token}
      (hcall : Token.callParts? parts = some (f, [.string raw]))
      (hf : sameIgnoringAsciiCase f "nextval" = true) (hraw : unquote? raw = some sequence) :
      Spelled (.next sequence) (.call parts)
  | procedure {f : String} {parts arguments : List Token}
      (hcall : Token.callParts? parts = some (f, arguments))
      (hf : sameIgnoringAsciiCase f "nextval" = false) :
      Spelled (.procedure f arguments) (.call parts)

/-- The token refers to the table with the given name; what stands in a parenthesis after the name
does not count. -/
inductive SpellsTarget : String → Token → Prop
  | name {n : String} {t : Token} (h : t.name? = some n) : SpellsTarget n t
  | call {n : String} {parts arguments : List Token}
      (hcall : Token.callParts? parts = some (n, arguments)) : SpellsTarget n (.call parts)

/-- The keywords of an action. -/
def DeleteAction.words : DeleteAction → List String
  | cascade => ["CASCADE"]
  | setNull => ["SET", "NULL"]
  | setDefault => ["SET", "DEFAULT"]

/-- The tokens are the given clause. -/
inductive ClauseSyntax.Spelled : ClauseSyntax → List Token → Prop
  | primaryKey {ts : List Token} (h : SpellsWords ["PRIMARY", "KEY"] ts) : Spelled .primaryKey ts
  | unique {ts : List Token} (h : SpellsWords ["UNIQUE"] ts) : Spelled .unique ts
  | notNull {ts : List Token} (h : SpellsWords ["NOT", "NULL"] ts) : Spelled .notNull ts
  | null {ts : List Token} (h : SpellsWords ["NULL"] ts) : Spelled .null ts
  | check {c : CheckSyntax} {k : Token} {inner : List Token} (hk : k.isKeyword "CHECK" = true)
      (hc : c.Spelled inner) : Spelled (.check c) [k, .paren inner]
  | default {v : DefaultSyntax} {k t : Token} (hk : k.isKeyword "DEFAULT" = true)
      (hv : v.Spelled t) : Spelled (.default v) [k, t]
  | defaultInside {v : DefaultSyntax} {k t : Token} (hk : k.isKeyword "DEFAULT" = true)
      (hv : v.Spelled t) : Spelled (.default v) [k, .paren [t]]
  | references {n : String} {k t : Token} (hk : k.isKeyword "REFERENCES" = true)
      (ht : SpellsTarget n t) : Spelled (.references n) [k, t]
  | onDelete {action : DeleteAction} {ts : List Token}
      (h : SpellsWords ("ON" :: "DELETE" :: action.words) ts) : Spelled (.onDelete action) ts

/-- The tokens are the given clauses, one after the other. -/
inductive SpellsClauses : List ClauseSyntax → List Token → Prop
  | nil : SpellsClauses [] []
  | cons {c : ClauseSyntax} {cs : List ClauseSyntax} {ts us : List Token} (h : c.Spelled ts)
      (hrest : SpellsClauses cs us) : SpellsClauses (c :: cs) (ts ++ us)

/-! ### Tables -/

/-- The tokens are what a constraint demands. -/
inductive RuleSyntax.Spelled : RuleSyntax → List Token → Prop
  | primaryKey {columns : List String} {ts inner : List Token}
      (h : SpellsWords ["PRIMARY", "KEY"] ts) (hcolumns : SpellsNames columns inner) :
      Spelled (.primaryKey columns) (ts ++ [.paren inner])
  | unique {columns : List String} {k : Token} {inner : List Token}
      (hk : k.isKeyword "UNIQUE" = true) (hcolumns : SpellsNames columns inner) :
      Spelled (.unique columns) [k, .paren inner]
  | check {c : CheckSyntax} {k : Token} {inner : List Token} (hk : k.isKeyword "CHECK" = true)
      (hc : c.Spelled inner) : Spelled (.check c) [k, .paren inner]

/-- The tokens give a constraint its name, or there are none. -/
inductive SpellsConstraintName : Option String → List Token → Prop
  | none : SpellsConstraintName none []
  | some {n : String} {k t : Token} (hk : k.isKeyword "CONSTRAINT" = true) (h : t.name? = some n) :
      SpellsConstraintName (some n) [k, t]

/-- The tokens are the given part of a body. -/
inductive ItemSyntax.Spelled : ItemSyntax → List Token → Prop
  | column {c : ColumnSyntax} {t : Token} {ts us : List Token} (hname : t.name? = some c.name)
      (htype : c.type.Spelled ts) (hclauses : SpellsClauses c.clauses us) :
      Spelled (.column c) (t :: (ts ++ us))
  | constraint {c : ConstraintSyntax} {ts us : List Token} (hname : SpellsConstraintName c.name ts)
      (hrule : c.rule.Spelled us) : Spelled (.constraint c) (ts ++ us)

/-- The tokens are the given parts with commas between them, one part at least. -/
inductive SpellsItems : List ItemSyntax → List Token → Prop
  | one {x : ItemSyntax} {ts : List Token} (h : x.Spelled ts) : SpellsItems [x] ts
  | cons {x : ItemSyntax} {xs : List ItemSyntax} {ts us : List Token} {comma : Token}
      (h : x.Spelled ts) (hcomma : comma.isMark ',' = true) (hrest : SpellsItems xs us) :
      SpellsItems (x :: xs) (ts ++ comma :: us)

/-- The tokens are the given table definition: two keywords, the name and the body, which is the
argument of a call or a parenthesis of its own. -/
inductive TableSyntax.Spelled : TableSyntax → List Token → Prop
  | call {t : TableSyntax} {ts parts body : List Token} (h : SpellsWords ["CREATE", "TABLE"] ts)
      (hcall : Token.callParts? parts = some (t.name, body)) (hbody : SpellsItems t.items body) :
      Spelled t (ts ++ [.call parts])
  | paren {t : TableSyntax} {ts body : List Token} {name : Token}
      (h : SpellsWords ["CREATE", "TABLE"] ts) (hname : name.name? = some t.name)
      (hbody : SpellsItems t.items body) : Spelled t (ts ++ [name, .paren body])

end SqlCatalog
