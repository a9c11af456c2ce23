import SqlCatalog.Schema.Names

/-!
# Indexes, declared or implied

A primary key and a unique constraint bring an index with them, whose name is the server's own
affair. To compare the indexes of two schemas, each is named by what it does: its table, whether
it is unique, and its columns.

## Main definitions

* `PseudoIndex` is a declared or implied index with such a name.
* `Schema.pseudoIndexes` lists the declared ones, then those each table implies.
-/

namespace SqlCatalog

/-- An index of a table, declared or implied. -/
structure PseudoIndex where
  name : String
  table : Table
  unique : Bool
  columns : List Nat

/-- The index over the given columns, named by what it does. -/
def PseudoIndex.of (t : Table) (columns : List Nat) (unique : Bool) : PseudoIndex where
  name :=
    t.name ++ (if unique then "-unique" else "")
      ++ ":(" ++ ",".intercalate (columns.map t.columnName) ++ ")"
  table := t
  unique := unique
  columns := columns

/-- The indexes that a table implies: its primary key, then its unique constraints. -/
def Table.impliedIndexes (t : Table) : List PseudoIndex :=
  (t.primaryKey.toList ++ t.uniques).map fun columns => .of t columns true

/-- The declared indexes, then the implied ones table by table. -/
def Schema.pseudoIndexes (s : Schema) : List PseudoIndex :=
  (s.indexes.filterMap fun i => s.tables[i.table]?.map fun t => .of t i.columns i.unique)
    ++ s.tables.flatMap Table.impliedIndexes

end SqlCatalog
