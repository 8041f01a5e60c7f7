import RowGraph.Fragment.Basic
import RowGraph.Text.Quoted

/-!
# Dialects of SQL

Everything in which database engines differ: quotes around names, placeholders, literals, the form
of a few functions and operators, names of types, paging, and how an insertion returns its key.

Main statements: `escapeWildcards_append`, and `closingQuote_ne` keeps string quotes apart from the
quotes of names.

Modelled: one function for each of `quote_name`, `quote_table`, `param_placeholder`,
`format_literal`, `coalesce`, `modulo`, `count_distinct`, `concat`, `sql_type_name`, `cast`,
`escape_wildcards`, `like_escape_clause`, `limit_clause`, `table_reference` and
`insert_returning_id`, with the cases in which an engine has its own; and `dialect_by_name`
(`ofName?`).

Left out: dialects that a caller adds.
-/

namespace RowGraph

/-- A database engine's dialect. -/
inductive Dialect
  | sqlite
  | postgresql
  | sqlServer
  | mySql
  | oracle
deriving DecidableEq, Repr

namespace Dialect

/-- The name of a dialect. -/
def name : Dialect → String
  | .sqlite => "sqlite"
  | .postgresql => "postgresql"
  | .sqlServer => "sqlserver"
  | .mySql => "mysql"
  | .oracle => "oracle"

/-- The dialect with this name or common short name, in any case. -/
def ofName? (name : String) : Option Dialect :=
  match Text.lowerCase name with
  | "sqlite" => some .sqlite
  | "postgres" | "postgresql" | "pg" => some .postgresql
  | "sqlserver" | "mssql" => some .sqlServer
  | "mysql" | "mariadb" => some .mySql
  | "oracle" => some .oracle
  | _ => none

/-! ## Names -/

/-- The quote before a name. -/
def openingQuote : Dialect → Char
  | .sqlServer => '['
  | .mySql => '\x60'
  | _ => '"'

/-- The quote after a name. -/
def closingQuote : Dialect → Char
  | .sqlServer => ']'
  | .mySql => '\x60'
  | _ => '"'

/-- A name of a table, column or alias in quotes. -/
def quoteName (d : Dialect) (name : String) : String :=
  Text.enclosed d.openingQuote d.closingQuote name

/-- A table's name in quotes, with its schema. Without schemas the schema becomes the beginning of
the name. -/
def quoteTable (d : Dialect) : (schema : Option String) → (table : String) → String
  | none, table => d.quoteName table
  | some schema, table =>
    match d with
    | .sqlite => d.quoteName (schema ++ "_" ++ table)
    | _ => d.quoteName schema ++ "." ++ d.quoteName table

/-- A table and its alias as they stand in a list of sources. -/
def tableReference (d : Dialect) (quotedTable : String) : (aliasName : Option String) → String
  | some aliasName => quotedTable ++ " " ++ d.quoteName aliasName
  | none => quotedTable

/-- The placeholder of the parameter with this index, counted from zero. -/
def placeholder : Dialect → Nat → String
  | .postgresql, index => "$" ++ Nat.repr (index + 1)
  | .oracle, index => ":" ++ Nat.repr index
  | _, index => "@" ++ Nat.repr index

/-! ## Literals -/

/-- A predicate that always holds. -/
def trueLiteral : Dialect → String
  | .postgresql => "true"
  | _ => "(1=1)"

/-- A predicate that never holds. -/
def falseLiteral : Dialect → String
  | .postgresql => "false"
  | _ => "(1=0)"

/-- A truth value as a column stores it. -/
def boolLiteral : Dialect → Bool → String
  | .postgresql, b => if b then "true" else "false"
  | _, b => if b then "1" else "0"

/-- Bytes as a literal. -/
def bytesLiteral (d : Dialect) (bytes : List UInt8) : String :=
  let hex := Text.hexOfBytes bytes
  match d with
  | .sqlServer => "0x" ++ hex
  | .postgresql => "'\\x" ++ hex ++ "'::bytea"
  | .oracle => "HEXTORAW('" ++ hex ++ "')"
  | _ => "X'" ++ hex ++ "'"

/-- A value as a literal inside a statement. -/
def literal (d : Dialect) : Value → String
  | .null => "NULL"
  | .bool b => d.boolLiteral b
  | .int i => Text.ofInt i.toInt
  | .float x => FloatStyle.plain.render x
  | .text s => Text.stringLiteral s
  | .bytes b => d.bytesLiteral b
  | .date date => Text.stringLiteral date.text
  | .dateTime t => Text.stringLiteral t.text
  | .uuid u => Text.stringLiteral u.text

/-! ## Patterns -/

/-- The character that takes the meaning from a wildcard. -/
def wildcardEscape : Char := '^'

/-- A character of a pattern that stands for itself. -/
def escapeWildcard (c : Char) : List Char :=
  if c = wildcardEscape || c = '%' || c = '_' then [wildcardEscape, c] else [c]

/-- The text as a pattern that matches itself alone. -/
def escapeWildcards (s : String) : String :=
  .ofList (s.toList.flatMap escapeWildcard)

/-- What follows a pattern made by `escapeWildcards`. -/
def escapeClause : String := " ESCAPE '^'"

/-! ## Functions and operators -/

/-- The first of the arguments that is not null. -/
def coalesce (_ : Dialect) (args : List Fragment) : Fragment := .call "COALESCE" args

/-- The remainder of a division. -/
def modulo (d : Dialect) (left right : Fragment) : Fragment :=
  match d with
  | .oracle => .call "MOD" [left, right]
  | _ => .operation left "%" right

/-- The count of different values. -/
def countDistinct (_ : Dialect) (f : Fragment) : Fragment :=
  .call "COUNT" [f.wrap "DISTINCT " ""]

/-- The texts one after the other. -/
def concat (d : Dialect) (args : List Fragment) : Fragment :=
  match d with
  | .sqlServer | .mySql => .call "CONCAT" args
  | _ => (Fragment.join " || " args).parenthesized

/-- The text in small letters. -/
def lower (_ : Dialect) (f : Fragment) : Fragment := .call "LOWER" [f]

/-- The text in capital letters. -/
def upper (_ : Dialect) (f : Fragment) : Fragment := .call "UPPER" [f]

/-- The name of a type in a conversion. -/
def typeName (d : Dialect) (t : ColumnType) : String :=
  match d with
  | .sqlite => match t with
    | .bool => "BOOLEAN"
    | .int => "INTEGER"
    | .bigInt => "BIGINT"
    | .float => "DOUBLE PRECISION"
    | .text => "VARCHAR(8000)"
    | .bytes => "BLOB"
    | .date => "DATE"
    | .dateTime => "TIMESTAMP"
    | .uuid => "CHAR(36)"
  | .postgresql => match t with
    | .bool => "BOOLEAN"
    | .int => "INTEGER"
    | .bigInt => "BIGINT"
    | .float => "DOUBLE PRECISION"
    | .text => "TEXT"
    | .bytes => "BYTEA"
    | .date => "DATE"
    | .dateTime => "TIMESTAMP"
    | .uuid => "UUID"
  | .sqlServer => match t with
    | .bool => "BIT"
    | .int => "INT"
    | .bigInt => "BIGINT"
    | .float => "FLOAT"
    | .text => "NVARCHAR(MAX)"
    | .bytes => "VARBINARY(MAX)"
    | .date => "DATE"
    | .dateTime => "DATETIME2"
    | .uuid => "UNIQUEIDENTIFIER"
  | .mySql => match t with
    | .bool => "UNSIGNED"
    | .int | .bigInt => "SIGNED"
    | .float => "DECIMAL(38,6)"
    | .text | .uuid => "CHAR"
    | .bytes => "BINARY"
    | .date => "DATE"
    | .dateTime => "DATETIME"
  | .oracle => match t with
    | .bool => "NUMBER(1)"
    | .int => "NUMBER(10)"
    | .bigInt => "NUMBER(19)"
    | .float => "BINARY_DOUBLE"
    | .text => "VARCHAR2(4000)"
    | .bytes => "BLOB"
    | .date => "DATE"
    | .dateTime => "TIMESTAMP"
    | .uuid => "VARCHAR2(36)"

/-- A conversion to a type. -/
def cast (d : Dialect) (f : Fragment) (t : ColumnType) : Fragment :=
  f.wrap "CAST(" (" AS " ++ d.typeName t ++ ")")

/-! ## Paging and generated keys -/

/-- Rows to skip and to return, for the engines that say both in two phrases. -/
def fetchClause (offset rows : Option Nat) : String :=
  "OFFSET " ++ Nat.repr (offset.getD 0) ++ " ROWS" ++
    match rows with
    | some rows => " FETCH NEXT " ++ Nat.repr rows ++ " ROWS ONLY"
    | none => ""

/-- The clause for rows to skip and rows to return, if there are any to say. Where a page needs an
order and the query has none, the first column orders it. -/
def pageClause (d : Dialect) (offset rows : Option Nat) (ordered : Bool) : Option String :=
  match d, offset, rows with
  | _, none, none => none
  | .sqlServer, offset, rows =>
    some ((if ordered then "" else "ORDER BY 1 ") ++ fetchClause offset rows)
  | .oracle, offset, rows => some (fetchClause offset rows)
  | _, none, some rows => some ("LIMIT " ++ Nat.repr rows)
  | .mySql, some offset, some rows =>
    some ("LIMIT " ++ Nat.repr offset ++ ", " ++ Nat.repr rows)
  | .mySql, some offset, none =>
    some ("LIMIT " ++ Nat.repr offset ++ ", " ++ Nat.repr (UInt64.size - 1))
  | _, some offset, some rows =>
    some ("LIMIT " ++ Nat.repr rows ++ " OFFSET " ++ Nat.repr offset)
  | .postgresql, some offset, none => some ("OFFSET " ++ Nat.repr offset)
  | .sqlite, some offset, none => some ("LIMIT -1 OFFSET " ++ Nat.repr offset)

/-- An insertion that yields the key the engine generates. -/
def insertReturningKey (d : Dialect) (insertion quotedKey : String) : String :=
  match d with
  | .sqlite => insertion ++ "; SELECT last_insert_rowid()"
  | .postgresql => insertion ++ " RETURNING " ++ quotedKey
  | .sqlServer => insertion ++ "; SELECT SCOPE_IDENTITY()"
  | .mySql => insertion ++ "; SELECT LAST_INSERT_ID()"
  | .oracle => insertion ++ " RETURNING " ++ quotedKey ++ " INTO :new_id"

/-! ## Laws -/

/-- No dialect closes a name with the quote of a string. -/
theorem closingQuote_ne (d : Dialect) : d.closingQuote ≠ '\'' := by
  cases d <;> decide

theorem escapeWildcards_append (s t : String) :
    escapeWildcards (s ++ t) = escapeWildcards s ++ escapeWildcards t := by
  simp [escapeWildcards]

/-- There is a paging clause exactly when there is something to say. -/
theorem pageClause_eq_none_iff {d : Dialect} {offset rows : Option Nat} {ordered : Bool} :
    d.pageClause offset rows ordered = none ↔ offset = none ∧ rows = none := by
  cases d <;> cases offset <;> cases rows <;> simp [pageClause]

end Dialect

end RowGraph
