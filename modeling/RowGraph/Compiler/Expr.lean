import RowGraph.Compiler.Basic

/-!
# Compiling expressions

An expression becomes a fragment, or it is refused as a whole. Every operation stands in parentheses
of its own. A comparison with null becomes a test for null. An alias is only allowed at the top of
an item of a projection, a direction at the top of an order item.

Modelled: `translate` (`compile`), `visit` with `operand`, `binary` and `marker` (`part`), and
`aliased`.
-/

namespace RowGraph.Compiler

mutual

/-- The fragment of a part of an expression. -/
def part (t : Compiler) (x : Context) : Expr → Compilation Fragment
  | .column c => t.column x c
  | .literal v => return t.literal x v
  | .captured source => return t.literal x (← t.read source)
  | .not e => return (← t.part x.condition e).wrap "(NOT " ")"
  | .negate e => return (← t.part x.arithmetic e).wrap "(-" ")"
  | .connect op left right => do
    let l ← t.part x.condition left
    let r ← t.part x.condition right
    return .operation l op.operator r
  | .compute op left right => do
    let l ← t.part x.arithmetic left
    let r ← t.part x.arithmetic right
    return t.compute op l r
  | .compare op left right => do
    let leftValue ← t.value? left
    let rightValue ← t.value? right
    match op.nullTest?, leftValue, rightValue with
    | some test, some v, some .null => return (t.literal x.value v).wrap "(" test
    | some test, none, some .null => return (← t.part x.value left).wrap "(" test
    | some test, some .null, some v => return (t.literal x.value v).wrap "(" test
    | some test, some .null, none => return (← t.part x.value right).wrap "(" test
    | _, _, _ => do
      let l ← match leftValue with
        | some v => pure (t.literal x.value v)
        | none => t.part x.value left
      let r ← match rightValue with
        | some v => pure (t.literal x.value v)
        | none => t.part x.value right
      return .operation l op.operator r
  | .coalesce args => do
    if args.length < 2 then throw .shortCoalesce
    return t.dialect.coalesce (← t.parts x.value args)
  | .function name args => do
    t.function name (← t.parts x.value args)
  | .like kind e pattern => do
    match ← t.value? pattern with
    | some (.text text) => return like kind (← t.part x.value e) text
    | _ => throw (.unknownPattern kind)
  | .isIn e source => do
    if x.inArithmetic then throw .membershipInArithmetic
    return t.membership (← t.part x.value e) source
  | .existence negated query => do
    if x.inArithmetic then throw .existenceInArithmetic
    return (Fragment.nested query).wrap (if negated then "NOT EXISTS (" else "EXISTS (") ")"
  | .aggregate f arg => do
    checkAggregate x f
    return t.aggregateOf f (← t.part x.aggregate arg)
  | .aggregateAll f => aggregateAll x f
  | .aliased _ _ => throw .misplacedAlias
  | .custom sql => return .sql sql
  | .qualified c aliasName kind => t.qualified x c aliasName kind
  | .ordered _ descending => throw (.misplacedOrder descending)
  | .endOfTuple => throw .misplacedTupleEnd
  | .allFields entity _ => throw (.misplacedFields entity)
  | .cast e type => return t.dialect.cast (← t.part x.value e) type

/-- The fragments of several parts in order. -/
def parts (t : Compiler) (x : Context) : List Expr → Compilation (List Fragment)
  | [] => return []
  | e :: rest => do
    let f ← t.part x e
    return f :: (← t.parts x rest)

end

/-- An item of a projection under a name. -/
def aliased (t : Compiler) (x : Context) (e : Expr) (aliasName : String) :
    Compilation Fragment := do
  return (← t.part x e) ++ .sql (" AS " ++ t.dialect.quoteName aliasName)

/-- The fragment of an expression in a clause. -/
def compile (t : Compiler) (position : Position) (e : Expr) : Compilation Fragment :=
  let x := Context.top position
  match position, e with
  | .orderItem, .ordered item descending => do
    let f ← t.part x item
    return if descending then f ++ .sql " DESC" else f
  | .projection, .aliased item aliasName => t.aliased x item aliasName
  | _, e => t.part x e

end RowGraph.Compiler
