import RowGraph.Fragment.Basic
import RowGraph.Entity.Basic

/-!
# Expressions

Predicates, keys, orders and items of a projection are trees over columns and values. An expression
knows nothing of SQL. Some constructors have a meaning only in one place, such as `ordered` at the
top of an order item; `Compiler` refuses them elsewhere.

A captured value is not part of the expression: it is read from its source when the expression is
compiled. What a source answers may depend on all that was read before, so `Readings` maps the
history of reads and a source to a value.

Modelled: `Expr` with its operators, `Marker` (constructors of `Expr`), `LikeKind`, `AggregateFn`,
`InSource` (`Membership`) and `Captured` (`captured`).

Left out: the typed handles of columns and the overloaded operators, which build these trees.
-/

namespace RowGraph

/-- A column by its entity and the name of its field or column. -/
structure ColumnRef where
  entity : EntityType
  field : String
deriving DecidableEq, Repr

/-- A comparison of two values. -/
inductive Comparison
  | eq
  | ne
  | lt
  | le
  | gt
  | ge
deriving DecidableEq, Repr

/-- What connects two conditions. -/
inductive Connective
  | and
  | or
deriving DecidableEq, Repr

/-- An operation on numbers. -/
inductive Arithmetic
  | add
  | sub
  | mul
  | div
  | mod
deriving DecidableEq, Repr

/-- Where the searched text stands. -/
inductive LikeKind
  | startsWith
  | endsWith
  | contains
deriving DecidableEq, Repr

/-- A function of a group of rows. -/
inductive Aggregate
  | count
  | countDistinct
  | min
  | max
  | sum
  | avg
deriving DecidableEq, Repr

/-- How a column is tied to an alias. -/
inductive QualifierKind
  /-- The alias has to be one of the query's. -/
  | table
  /-- The alias may come from a join written by hand. -/
  | join
deriving DecidableEq, Repr

/-- What a value is looked for in. -/
inductive Membership
  /-- A list; a missing list holds nothing. -/
  | values (list : Option (List Value))
  | subQuery (query : Fragment)
deriving DecidableEq

/-- An expression. -/
inductive Expr
  | column (c : ColumnRef)
  | literal (v : Value)
  /-- A value read from a source when the expression is compiled. -/
  | captured (source : Nat)
  | not (e : Expr)
  | negate (e : Expr)
  | compare (op : Comparison) (left right : Expr)
  | connect (op : Connective) (left right : Expr)
  | compute (op : Arithmetic) (left right : Expr)
  | coalesce (args : List Expr)
  | function (name : String) (args : List Expr)
  | like (kind : LikeKind) (e pattern : Expr)
  | isIn (e : Expr) (source : Membership)
  /-- Whether an embedded query has rows, or has none. -/
  | existence (negated : Bool) (query : Fragment)
  | aggregate (f : Aggregate) (arg : Expr)
  /-- An aggregate without argument: all rows. -/
  | aggregateAll (f : Aggregate)
  /-- An item of a projection under a name. -/
  | aliased (e : Expr) (aliasName : String)
  /-- SQL as it stands. -/
  | custom (sql : String)
  /-- A column of the source with an alias. -/
  | qualified (c : ColumnRef) (aliasName : String) (kind : QualifierKind)
  /-- An order item with a direction. -/
  | ordered (e : Expr) (descending : Bool)
  /-- The end of one group of columns in a projection. -/
  | endOfTuple
  /-- Every column of an entity. -/
  | allFields (entity : EntityType) (aliasName : Option String)
  | cast (e : Expr) (type : ColumnType)
deriving Inhabited

/-- What a source of captured values answers, after these sources have been read. -/
abbrev Readings := (before : List Nat) → (source : Nat) → Value

namespace Comparison

/-- The operator. -/
def operator : Comparison → String
  | .eq => "="
  | .ne => "<>"
  | .lt => "<"
  | .le => "<="
  | .gt => ">"
  | .ge => ">="

/-- The test that takes the place of a comparison with null, for the comparisons that have one. -/
def nullTest? : Comparison → Option String
  | .eq => some " IS NULL)"
  | .ne => some " IS NOT NULL)"
  | _ => none

end Comparison

/-- The operator. -/
def Connective.operator : Connective → String
  | .and => "AND"
  | .or => "OR"

/-- The operator, where dialects agree on it. -/
def Arithmetic.operator : Arithmetic → String
  | .add => "+"
  | .sub => "-"
  | .mul => "*"
  | .div => "/"
  | .mod => "%"

/-- The name in messages. -/
def LikeKind.name : LikeKind → String
  | .startsWith => "StartsWith"
  | .endsWith => "EndsWith"
  | .contains => "Contains"

/-- The pattern for an escaped text. -/
def LikeKind.pattern (escaped : String) : LikeKind → String
  | .startsWith => escaped ++ "%"
  | .endsWith => "%" ++ escaped
  | .contains => "%" ++ escaped ++ "%"

/-- The name of the function. -/
def Aggregate.name : Aggregate → String
  | .count => "COUNT"
  | .countDistinct => "COUNT DISTINCT"
  | .min => "MIN"
  | .max => "MAX"
  | .sum => "SUM"
  | .avg => "AVG"

namespace Expr

/-- The value is missing. -/
def isNull (e : Expr) : Expr := .compare .eq e (.literal .null)

/-- The value is there. -/
def isNotNull (e : Expr) : Expr := .compare .ne e (.literal .null)

/-- The texts one after the other. -/
def concat (args : List Expr) : Expr := .function "concat" args

/-- The text in small letters. -/
def lower (e : Expr) : Expr := .function "lower" [e]

/-- The text in capital letters. -/
def upper (e : Expr) : Expr := .function "upper" [e]

end Expr

end RowGraph
