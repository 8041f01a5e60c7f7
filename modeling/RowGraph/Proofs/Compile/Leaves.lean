import RowGraph.Expr

/-!
# Leaves of expressions

A leaf is a part of an expression without parts of its own. Where a leaf stands is said by the way
to it: which part is taken at each level, counted from the left. So two leaves that look the same
are told apart, and each can be replaced by itself.

* `Expr.mapLeaves`: the expression with other leaves.
* `mapLeaves_id`: it stays the same if the leaves do.
-/

namespace RowGraph.Expr

/-- The way to a part: which part is taken, level after level. The pattern of a search is its second
part. -/
abbrev Path := List Nat

namespace Path

/-- What is said about an expression by the ways to its parts, about one of its parts. -/
def below {α : Type} (i : Nat) (f : Path → α) : Path → α := fun p => f (i :: p)

@[simp] theorem below_const {α : Type} (i : Nat) (a : α) : below i (fun _ => a) = fun _ => a := rfl

end Path

mutual

/-- The expression with other leaves, each one made from where it stands and what it is. -/
def mapLeaves (f : Path → Expr → Expr) (e : Expr) : Expr :=
  match e with
  | .not e => .not (e.mapLeaves (Path.below 0 f))
  | .negate e => .negate (e.mapLeaves (Path.below 0 f))
  | .compare op left right =>
    .compare op (left.mapLeaves (Path.below 0 f)) (right.mapLeaves (Path.below 1 f))
  | .connect op left right =>
    .connect op (left.mapLeaves (Path.below 0 f)) (right.mapLeaves (Path.below 1 f))
  | .compute op left right =>
    .compute op (left.mapLeaves (Path.below 0 f)) (right.mapLeaves (Path.below 1 f))
  | .coalesce args => .coalesce (mapLeavesFrom f 0 args)
  | .function name args => .function name (mapLeavesFrom f 0 args)
  | .like kind e pattern =>
    .like kind (e.mapLeaves (Path.below 0 f)) (pattern.mapLeaves (Path.below 1 f))
  | .isIn e source => .isIn (e.mapLeaves (Path.below 0 f)) source
  | .aggregate g arg => .aggregate g (arg.mapLeaves (Path.below 0 f))
  | .aliased e aliasName => .aliased (e.mapLeaves (Path.below 0 f)) aliasName
  | .ordered e descending => .ordered (e.mapLeaves (Path.below 0 f)) descending
  | .cast e type => .cast (e.mapLeaves (Path.below 0 f)) type
  | .column _ | .literal _ | .captured _ | .existence _ _ | .aggregateAll _ | .custom _
  | .qualified _ _ _ | .endOfTuple | .allFields _ _ => f [] e

/-- Several parts with other leaves, the first of them the `i`th. -/
def mapLeavesFrom (f : Path → Expr → Expr) (i : Nat) : List Expr → List Expr
  | [] => []
  | e :: rest => e.mapLeaves (Path.below i f) :: mapLeavesFrom f (i + 1) rest

end

@[simp] theorem length_mapLeavesFrom (f : Path → Expr → Expr) (i : Nat) (es : List Expr) :
    (mapLeavesFrom f i es).length = es.length := by
  induction es generalizing i with
  | nil => rfl
  | cons e rest ih => rw [mapLeavesFrom, List.length_cons, List.length_cons, ih]

mutual

/-- Leaves that stay leave the expression as it is. -/
theorem mapLeaves_id : ∀ e : Expr, e.mapLeaves (fun _ leaf => leaf) = e
  | .not e | .negate e | .isIn e _ | .aggregate _ e | .aliased e _ | .ordered e _ | .cast e _ => by
    rw [mapLeaves, Path.below_const, mapLeaves_id e]
  | .compare _ left right | .connect _ left right | .compute _ left right | .like _ left right => by
    rw [mapLeaves, Path.below_const, Path.below_const, mapLeaves_id left, mapLeaves_id right]
  | .coalesce args | .function _ args => by
    rw [mapLeaves, mapLeavesFrom_id 0 args]
  | .column _ | .literal _ | .captured _ | .existence _ _ | .aggregateAll _ | .custom _
  | .qualified _ _ _ | .endOfTuple | .allFields _ _ => by
    rw [mapLeaves]

theorem mapLeavesFrom_id (i : Nat) : ∀ es : List Expr, mapLeavesFrom (fun _ leaf => leaf) i es = es
  | [] => by rw [mapLeavesFrom]
  | e :: rest => by
    rw [mapLeavesFrom, Path.below_const, mapLeaves_id e, mapLeavesFrom_id (i + 1) rest]

end

end RowGraph.Expr
