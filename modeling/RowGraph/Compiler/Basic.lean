import RowGraph.Dialect.Function
import RowGraph.Expr
import RowGraph.Scope

/-!
# What expressions are compiled with

The clause that an expression is compiled for, the ways in which it can be refused, and the
compiler: a dialect, the sources of the query and the readings of captured values.

Modelled: of `ExprTranslator` all but the walk over the tree: `Position`, the context (`Ctx`),
`literal`, `column_fragment` (`columnText`), `resolve_column` (`resolve`), `rebinds`
(`isBoundTwice`), `qualified`, `function`, `like`, `aggregate`, and `TranslateError`
(`CompileError`).
-/

namespace RowGraph

/-- The clause that an expression is compiled for. -/
inductive Position
  /-- A condition on rows or on a join. -/
  | predicate
  | projection
  | orderItem
  | groupKey
  | having
deriving DecidableEq, Repr

namespace Position

/-- The name in messages. -/
def name : Position → String
  | .predicate => "Predicate"
  | .projection => "Projection"
  | .orderItem => "OrderItem"
  | .groupKey => "GroupKey"
  | .having => "Having"

/-- Whether a function of a group of rows has a meaning there. -/
def allowsAggregates : Position → Bool
  | .projection | .having | .orderItem => true
  | .predicate | .groupKey => false

/-- Whether the whole expression is a condition. -/
def isCondition : Position → Bool
  | .predicate | .having => true
  | .projection | .orderItem | .groupKey => false

end Position

/-- Why an expression cannot be compiled. -/
inductive CompileError
  | unresolvedColumn (column : ColumnRef) (why : AliasError)
  | unknownField (column : ColumnRef) (entity : String)
  | unresolvedQualifier (column : ColumnRef) (aliasName : String) (why : AliasError)
  | unknownQualifiedField (column : ColumnRef) (aliasName entity : String)
  | unresolvedFields (why : AliasError)
  | shortCoalesce
  | unmappedFunction (name : String) (dialect : Dialect)
  | unknownPattern (kind : LikeKind)
  | membershipInArithmetic
  | existenceInArithmetic
  | misplacedAlias
  | misplacedTupleEnd
  | misplacedFields (entity : EntityType)
  | misplacedOrder (descending : Bool)
  | forbiddenAggregate (f : Aggregate) (position : Position)
  | nestedAggregate (f : Aggregate)
  | missingArgument (f : Aggregate)
  | emptyProjection
deriving DecidableEq

namespace CompileError

/-- A column as messages name it. -/
def columnName (c : ColumnRef) : String := c.entity.name ++ "." ++ c.field

/-- A column under an alias as messages name it. -/
def qualifiedName (c : ColumnRef) (aliasName : String) : String :=
  columnName c ++ " via '" ++ aliasName ++ "'"

/-- The part of the expression that cannot be compiled. -/
def construct : CompileError → String
  | .unresolvedColumn c _ | .unknownField c _ => columnName c
  | .unresolvedQualifier c aliasName _ | .unknownQualifiedField c aliasName _ =>
    qualifiedName c aliasName
  | .unresolvedFields _ => "AllFields"
  | .shortCoalesce => "Coalesce"
  | .unmappedFunction name _ => name ++ "()"
  | .unknownPattern kind => kind.name
  | .membershipInArithmetic => "In"
  | .existenceInArithmetic => "Exists"
  | .misplacedAlias => "As"
  | .misplacedTupleEnd => "EOT"
  | .misplacedFields entity => "AllFields<" ++ entity.name ++ ">"
  | .misplacedOrder descending => if descending then "Desc" else "Asc"
  | .forbiddenAggregate f _ | .nestedAggregate f | .missingArgument f => f.name
  | .emptyProjection => "Select"

/-- Why it cannot be. -/
def reason : CompileError → String
  | .unresolvedColumn _ why | .unresolvedQualifier _ _ why | .unresolvedFields why => why.message
  | .unknownField _ entity | .unknownQualifiedField _ _ entity =>
    "no such field on entity '" ++ entity ++ "'"
  | .shortCoalesce => "needs a value and at least one fallback"
  | .unmappedFunction _ dialect => "no mapping for dialect '" ++ dialect.name ++ "'"
  | .unknownPattern _ => "pattern must be a text value"
  | .membershipInArithmetic | .existenceInArithmetic =>
    "cannot be used inside an arithmetic expression"
  | .misplacedAlias => "only allowed at the top of a projection item"
  | .misplacedTupleEnd | .misplacedFields _ => "only allowed as a projection item"
  | .misplacedOrder _ => "only allowed at the top of an order item"
  | .forbiddenAggregate _ position =>
    "aggregates are not allowed in " ++ position.name ++ " position"
  | .nestedAggregate _ => "aggregates cannot be nested"
  | .missingArgument _ => "needs an argument"
  | .emptyProjection => "projection has no columns"

/-- The wording of the error. -/
def message (e : CompileError) : String :=
  "Unsupported expression '" ++ e.construct ++ "': " ++ e.reason

end CompileError

/-- A computation that may refuse an expression and that remembers which captured values it read,
also when it refuses. -/
abbrev Compilation := ExceptT CompileError (StateM (List Nat))

/-- The outcome of a compilation that has read nothing before. -/
def Compilation.outcome {α : Type} (x : Compilation α) : Except CompileError α :=
  (x.run.run []).1

/-- What the parts of an expression are compiled with. -/
structure Context where
  position : Position
  /-- The part is used as a condition. -/
  isCondition : Bool
  inArithmetic : Bool
  inAggregate : Bool
deriving DecidableEq, Repr

namespace Context

/-- The context of a whole expression. -/
def top (position : Position) : Context := ⟨position, position.isCondition, false, false⟩

/-- The context of a part used as a value. -/
def value (x : Context) : Context := { x with isCondition := false }

/-- The context of a part used as a condition. -/
def condition (x : Context) : Context := { x with isCondition := true }

/-- The context of an operand of an arithmetic operation. -/
def arithmetic (x : Context) : Context := { x with isCondition := false, inArithmetic := true }

/-- The context of an argument of an aggregate. -/
def aggregate (x : Context) : Context := { x with isCondition := false, inAggregate := true }

end Context

/-- A dialect, the sources of a query, and for a join's condition the source that it adds. -/
structure Compiler where
  catalog : Catalog
  dialect : Dialect
  scope : Scope
  target : Option Source
  readings : Readings

namespace Compiler

/-- The value of a source at this moment. -/
def read (t : Compiler) (source : Nat) : Compilation Value := do
  let before ← get
  set (before ++ [source])
  return t.readings before source

/-- The value of an expression that is one, read once. -/
def value? (t : Compiler) : Expr → Compilation (Option Value)
  | .literal v => return some v
  | .captured source => return some (← t.read source)
  | _ => return none

/-- A value. A truth value that is used as a condition becomes a condition. -/
def literal (t : Compiler) (x : Context) : Value → Fragment
  | .bool b =>
    if x.isCondition then
      .sql (if b then t.dialect.trueLiteral else t.dialect.falseLiteral)
    else .param (.bool b)
  | v => .param v

/-- A column. One of truth values that is used as a condition is compared with true. -/
def columnText (t : Compiler) (x : Context) (sql : String) (field : Field) : Fragment :=
  if x.isCondition && field.type == .bool then
    .sql ("(" ++ sql ++ " = " ++ t.dialect.boolLiteral true ++ ")")
  else .sql sql

/-- Whether another source is one of the join target's entity. -/
def isBoundTwice (t : Compiler) (target : Source) : Bool :=
  t.scope.sources.any fun b =>
    b.entity == target.entity && b.token t.catalog != target.token t.catalog

/-- The source of a column that names only its entity. The target of a join comes first, as long as
no other source is one of its entity. -/
def sourceOf (t : Compiler) (entity : EntityType) : Except AliasError Source :=
  match t.target with
  | some target =>
    if target.entity = entity && !t.isBoundTwice target then .ok target
    else t.scope.forEntity entity
  | none => t.scope.forEntity entity

/-- The source and the field of a column. -/
def resolve (t : Compiler) (c : ColumnRef) : Except CompileError (Source × Field) :=
  match t.sourceOf c.entity with
  | .error why => .error (.unresolvedColumn c why)
  | .ok source =>
    match (t.catalog.entity source.entity).field? c.field with
    | some field => .ok (source, field)
    | none => .error (.unknownField c (t.catalog.entity source.entity).name)

/-- A column by its entity alone. -/
def column (t : Compiler) (x : Context) (c : ColumnRef) : Except CompileError Fragment :=
  (t.resolve c).map fun (source, field) =>
    t.columnText x (source.qualify t.catalog t.dialect field.column) field

/-- A column of the source with an alias. Where the alias may come from a join written by hand, one
that the query does not know is taken as it is. -/
def qualified (t : Compiler) (x : Context) (c : ColumnRef) (aliasName : String)
    (kind : QualifierKind) : Except CompileError Fragment :=
  match (t.catalog.entity c.entity).field? c.field with
  | none => .error (.unknownQualifiedField c aliasName (t.catalog.entity c.entity).name)
  | some field =>
    let under (qualifier : String) :=
      t.columnText x (qualifier ++ "." ++ t.dialect.quoteName field.column) field
    match t.scope.byAlias t.catalog aliasName, kind with
    | .ok source, _ => .ok (under (source.qualifier t.catalog t.dialect))
    | .error _, .join => .ok (under (t.dialect.quoteName aliasName))
    | .error why, .table => .error (.unresolvedQualifier c aliasName why)

/-- A function with its compiled arguments. A few functions are the dialect's own. -/
def function (t : Compiler) (name : String) (args : List Fragment) :
    Except CompileError Fragment :=
  match Text.lowerCase name, args with
  | "concat", args => .ok (t.dialect.concat args)
  | "coalesce", a :: b :: rest => .ok (t.dialect.coalesce (a :: b :: rest))
  | "lower", [a] => .ok (t.dialect.lower a)
  | "upper", [a] => .ok (t.dialect.upper a)
  | _, args =>
    match t.dialect.function? name with
    | some f => .ok (.call f.sqlName (f.rule.apply args))
    | none => .error (.unmappedFunction name t.dialect)

/-- A search for a text. -/
def like (kind : LikeKind) (f : Fragment) (text : String) : Fragment :=
  f.wrap "(" " LIKE " ++
    .param (.text (kind.pattern (Dialect.escapeWildcards text))) ++
    .sql (Dialect.escapeClause ++ ")")

/-- A value looked for in a list or in the rows of an embedded query. An empty list holds none. -/
def membership (t : Compiler) (f : Fragment) : Membership → Fragment
  | .values none | .values (some []) => .sql t.dialect.falseLiteral
  | .values (some list) => f.wrap "(" " IN (" ++ .join "," (list.map .param) ++ .sql "))"
  | .subQuery query => f.wrap "(" " IN (" ++ .nested query ++ .sql "))"

/-- An arithmetic operation on compiled operands. -/
def compute (t : Compiler) (op : Arithmetic) (left right : Fragment) : Fragment :=
  match op with
  | .mod => t.dialect.modulo left right
  | op => .operation left op.operator right

/-- Whether an aggregate may stand here. -/
def checkAggregate (x : Context) (f : Aggregate) : Except CompileError Unit :=
  if !x.position.allowsAggregates then .error (.forbiddenAggregate f x.position)
  else if x.inAggregate then .error (.nestedAggregate f)
  else .ok ()

/-- An aggregate of a compiled argument. -/
def aggregateOf (t : Compiler) (f : Aggregate) (arg : Fragment) : Fragment :=
  match f with
  | .countDistinct => t.dialect.countDistinct arg
  | f => .call f.name [arg]

/-- An aggregate of all rows. -/
def aggregateAll (x : Context) (f : Aggregate) : Except CompileError Fragment := do
  checkAggregate x f
  match f with
  | .count => .ok (.sql "COUNT(*)")
  | f => .error (.missingArgument f)

end Compiler

end RowGraph
