import SqlCatalog.Query.Expression

/-!
# Errors of queries

A query is refused when it is built, when its parameters are given values, or when the server
that runs it refuses it.

## Main definitions

* `QueryError`, with its wording `QueryError.message`.
-/

namespace SqlCatalog

/-- Why a query is refused. -/
inductive QueryError where
  /-- A selected column belongs to no table of the source. -/
  | notInSource (table column : String)
  /-- A column of another table stands among those of `owner`. -/
  | notOfTable (table column owner : String)
  /-- The columns that need values and have none. -/
  | notEnoughValues (columns : List String)
  | emptyColumnMap
  | unboundParameter (name : String)
  | parameterCount (name : String) (expected got : Nat)
  /-- A list was given for a single value, or a value for a list. -/
  | wrongShape (name : String)
  /-- A join of the given kind lacks its condition, or a cross join has one. -/
  | joinCondition (kind : Option JoinKind)
  | execution (cause : String)
  | catalog (cause : CatalogError)

/-- The name of a kind of join, that of the cross join being `none`. -/
def joinName : Option JoinKind → String
  | some .plain => "Default"
  | some .inner => "Inner"
  | some .leftOuter => "LeftOuter"
  | some .rightOuter => "RightOuter"
  | some .fullOuter => "FullOuter"
  | none => "Cross"

/-- The wording of an error. -/
def QueryError.message : QueryError → String
  | notInSource table column => s!"Table mismatch: {table}.{column} is not in the from clause"
  | notOfTable table column owner =>
    s!"Table mismatch: {table}.{column} does not belong to {owner}"
  | notEnoughValues columns => "Not enough values: missing " ++ ", ".intercalate columns
  | emptyColumnMap => "Empty column map"
  | unboundParameter name => s!"Unbound parameter: {name}"
  | parameterCount name expected got => s!"Parameter {name} expects {expected} values, got {got}"
  | wrongShape name => s!"Parameter {name} bound with the wrong number of values"
  | joinCondition kind =>
    s!"{joinName kind} join " ++
      if kind.isSome then "requires an on condition" else "takes no on condition"
  | execution cause => s!"Execution failed: {cause}"
  | catalog cause => cause.message

end SqlCatalog
