import RowGraph.Expr
import RowGraph.Fragment.Grouping

/-!
# Chains of conditions

Conditions are combined in the order in which they are added. Each one is a group in parentheses of
its own; where the connective changes, everything before becomes one group, so a chain is read from
left to right and a later condition never binds tighter than it stands.

Main statements: `literals_push` (the literals stay in order).

Modelled: `FilterChain` with `push`.
-/

namespace RowGraph

/-- The fragment as one group in parentheses. -/
def Fragment.grouped (f : Fragment) : Fragment :=
  if f.isParenthesized then f else f.parenthesized

@[simp] theorem Fragment.literals_grouped (f : Fragment) : f.grouped.literals = f.literals := by
  unfold grouped
  split <;> simp [parenthesized]

/-- The connective between two conditions. -/
def Connective.separator (op : Connective) : String := " " ++ op.operator ++ " "

/-- Conditions combined in order, how many they are, and the connective of the last one. -/
structure FilterChain where
  fragment : Option Fragment
  count : Nat
  last : Option Connective
deriving DecidableEq

namespace FilterChain

/-- No condition. -/
def empty : FilterChain := ⟨none, 0, none⟩

/-- The chain with one more condition. -/
def push (chain : FilterChain) (condition : Fragment) (op : Connective) : FilterChain :=
  { fragment := some <|
      match chain.fragment with
      | none => condition.grouped
      | some before =>
        (if chain.count > 1 && chain.last ≠ some op then before.parenthesized else before) ++
          .textThen op.separator condition.grouped
    count := chain.count + 1
    last := some op }

/-- The literals of a chain in order. -/
def literals (chain : FilterChain) : List Value := (chain.fragment.map Fragment.literals).getD []

/-- A condition adds its literals at the end. -/
theorem literals_push (chain : FilterChain) (condition : Fragment) (op : Connective) :
    (chain.push condition op).literals = chain.literals ++ condition.literals := by
  cases h : chain.fragment with
  | none => simp [literals, push, h]
  | some before =>
    simp only [literals, push, h, Option.map_some, Option.getD_some, Fragment.literals_append,
      Fragment.literals_textThen, Fragment.literals_grouped]
    split <;> simp [Fragment.parenthesized]

end FilterChain

end RowGraph
