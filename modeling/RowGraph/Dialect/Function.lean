import RowGraph.Dialect.Basic

/-!
# Functions under portable names

A function is called by a portable name in any case. Each dialect has its own name for it, and in
two cases its own way to write the arguments.

Main statement: `function?_name`, a function is found under its own name.

Modelled: `get_function_mapping` (`function?`) with `FunctionMapping`, the mappings that all
dialects have in common and their own, and the rewriting of arguments (`ArgumentRule`).
-/

namespace RowGraph

/-- What happens to the arguments of a function. -/
inductive ArgumentRule
  /-- They stay as they are. -/
  | keep
  /-- The last one alone stays, moved up so that rounding takes it to the next integer. -/
  | shiftLast
  /-- Each one has its blanks at the end cut off. -/
  | trimEnds
deriving DecidableEq, Repr

/-- The arguments after the rule. -/
def ArgumentRule.apply : ArgumentRule → List Fragment → List Fragment
  | .keep, args => args
  | .shiftLast, args =>
    match args.getLast? with
    | some last => [last ++ Fragment.sql " + 0.4999999"]
    | none => []
  | .trimEnds, args => args.map fun a => .call "RTRIM" [a]

/-- A function of a dialect: its portable name, its name there, and the rule for its arguments. -/
structure FunctionMapping where
  name : String
  sqlName : String
  rule : ArgumentRule
deriving DecidableEq, Repr

namespace Dialect

/-- The functions that have one name in most dialects. -/
def commonFunctions : List FunctionMapping :=
  [⟨"upper", "UPPER", .keep⟩, ⟨"lower", "LOWER", .keep⟩, ⟨"length", "LENGTH", .keep⟩,
    ⟨"trim", "TRIM", .keep⟩, ⟨"ltrim", "LTRIM", .keep⟩, ⟨"rtrim", "RTRIM", .keep⟩,
    ⟨"replace", "REPLACE", .keep⟩, ⟨"substring", "SUBSTRING", .keep⟩, ⟨"abs", "ABS", .keep⟩,
    ⟨"round", "ROUND", .keep⟩, ⟨"floor", "FLOOR", .keep⟩, ⟨"ceiling", "CEILING", .keep⟩,
    ⟨"nullif", "NULLIF", .keep⟩]

/-- The functions that a dialect writes in a way of its own. -/
def ownFunctions : Dialect → List FunctionMapping
  | .sqlite => [⟨"substring", "SUBSTR", .keep⟩, ⟨"ceiling", "ROUND", .shiftLast⟩]
  | .postgresql => [⟨"ceiling", "CEIL", .keep⟩]
  | .sqlServer => [⟨"length", "LEN", .keep⟩, ⟨"trim", "LTRIM", .trimEnds⟩]
  | .mySql => [⟨"length", "CHAR_LENGTH", .keep⟩]
  | .oracle => [⟨"substring", "SUBSTR", .keep⟩, ⟨"ceiling", "CEIL", .keep⟩]

/-- The function with this portable name, written in any case. -/
def function? (d : Dialect) (name : String) : Option FunctionMapping :=
  (d.ownFunctions ++ commonFunctions).find? fun f => f.name == Text.lowerCase name

theorem function?_name {d : Dialect} {name : String} {f : FunctionMapping}
    (h : d.function? name = some f) : f.name = Text.lowerCase name := by
  simpa using List.find?_some h

end Dialect

end RowGraph
