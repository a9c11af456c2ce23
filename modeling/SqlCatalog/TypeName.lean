import SqlCatalog.Text.Blank
import SqlCatalog.Dialect

/-!
# Names of column types

Servers spell the same storage type differently, so two declared types are compared by the
family each belongs to in a dialect. A name that no family lists is a family of its own.

## Main definitions

* `knownTypes` are the names that a column may be declared with, and `isKnownType` tests one.
* `typeFamilies` lists, for a dialect, each family with its spellings.
* `typeFamily` is the family of a declared type.
* `ColumnType` is a declared type with its length.
-/

namespace SqlCatalog

/-- The type names that some supported server accepts. -/
def knownTypes : List String :=
  ["int", "int2", "int4", "int8", "integer", "smallint", "bigint",
    "serial", "serial2", "serial4", "serial8", "smallserial", "bigserial",
    "number", "decimal", "numeric", "real", "float", "float4", "float8",
    "double", "binary_double",
    "varchar", "varchar2", "nvarchar2", "char", "nchar", "character", "text",
    "clob", "nclob",
    "timestamp", "timestamptz", "datetime", "date", "time", "interval",
    "boolean", "bool",
    "bytea", "blob", "raw",
    "uuid", "json", "jsonb", "xml",
    "inet", "cidr", "macaddr", "money", "bit", "varbit", "oid", "timetz",
    "double precision", "character varying",
    "timestamp with time zone", "timestamp without time zone",
    "time with time zone", "time without time zone"]

/-- Whether a column may be declared with this type name, in any letter case. -/
def isKnownType (name : String) : Bool := knownTypes.contains (lower name)

/-- The families of types of a dialect, each with its spellings. -/
def typeFamilies : Dialect → List (String × List String)
  | .postgres =>
    [("integer", ["int", "int4", "integer", "serial", "serial4"]),
      ("bigint", ["bigint", "int8", "bigserial", "serial8"]),
      ("smallint", ["smallint", "int2", "smallserial", "serial2"]),
      ("float", ["real", "float4"]),
      ("double", ["double precision", "float8"]),
      ("decimal", ["decimal", "numeric"]),
      ("varchar", ["varchar", "character varying"]),
      ("char", ["char", "character"]),
      ("timestamp", ["timestamp", "timestamptz", "timestamp with time zone",
        "timestamp without time zone"]),
      ("time", ["time", "timetz", "time with time zone", "time without time zone"]),
      ("boolean", ["boolean", "bool"]),
      ("binary", ["bytea"])]
  | .oracle =>
    [("integer", ["integer", "int", "number"]),
      ("varchar", ["varchar", "varchar2", "nvarchar2"]),
      ("char", ["char", "nchar"]),
      ("text", ["clob", "nclob"]),
      ("binary", ["blob", "raw"]),
      ("double", ["float", "binary_double"])]
  | .sqlite =>
    [("integer", ["int", "integer"]),
      ("float", ["real", "float"]),
      ("text", ["text", "clob"]),
      ("timestamp", ["timestamp", "datetime"]),
      ("boolean", ["boolean", "bool"]),
      ("binary", ["blob"])]

/-- The text of a type before its arguments, in lower case and without white space around it. -/
def bareTypeName (name : String) : String :=
  trim (String.ofList ((lower name).toList.takeWhile (· != '(')))

/-- The family that lists the name `bare`, or the name itself. -/
def familyOf (d : Dialect) (bare : String) : String :=
  match (typeFamilies d).find? fun family => family.2.contains bare with
  | some family => family.1
  | none => bare

/-- The family of a declared type. -/
def typeFamily (d : Dialect) (name : String) : String := familyOf d (bareTypeName name)

/-- A declared type: its name as it was written, and a length. -/
structure ColumnType where
  name : String
  length : Option UInt32
deriving DecidableEq

/-- The declared type as it is written. -/
def ColumnType.text (t : ColumnType) : String :=
  match t.length with
  | some n => t.name ++ "(" ++ toString n.toNat ++ ")"
  | none => t.name

end SqlCatalog
