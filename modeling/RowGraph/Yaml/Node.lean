import RowGraph.Yaml.Scalar

/-!
# Documents in YAML

A document is a tree of scalars, sequences and mappings. A value with an anchor has a number, and
the places where it is repeated name that number, so that a value may contain itself. When several
values have one number, it stands for the last of them that begins.

Main statement: `find?_eq_none_iff` (a number stands for a value when some value has it).
-/

namespace RowGraph.Yaml

/-- A value in a document, with the number of its anchor if it has one. -/
inductive Node
  | scalar (anchor : Option Nat) (s : Scalar)
  | sequence (anchor : Option Nat) (items : List Node)
  | mapping (anchor : Option Nat) (members : List (Node × Node))
  /-- The value of an anchor. -/
  | repeated (anchor : Nat)
deriving Inhabited

namespace Node

/-- What stands where nothing is written. -/
def nothing : Node := .scalar none .nothing

/-- The number of the value's anchor. -/
def anchor? : Node → Option Nat
  | .scalar anchor _ | .sequence anchor _ | .mapping anchor _ => anchor
  | .repeated _ => none

mutual

/-- All values in a value, in the order in which they begin. -/
def parts : Node → List Node
  | .sequence anchor items => .sequence anchor items :: partsOfItems items
  | .mapping anchor members => .mapping anchor members :: partsOfMembers members
  | node => [node]

def partsOfItems : List Node → List Node
  | [] => []
  | item :: rest => item.parts ++ partsOfItems rest

def partsOfMembers : List (Node × Node) → List Node
  | [] => []
  | (key, value) :: rest => key.parts ++ value.parts ++ partsOfMembers rest

end

/-- The value that a number stands for. -/
def find? (root : Node) (anchor : Nat) : Option Node :=
  root.parts.reverse.find? (·.anchor? == some anchor)

/-- The scalar that a value of a document is or repeats. -/
def scalarIn? (root : Node) : Node → Option Scalar
  | .scalar _ s => some s
  | .repeated anchor =>
    match root.find? anchor with
    | some (.scalar _ s) => some s
    | _ => none
  | _ => none

/-! ## Laws -/

/-- A number stands for a value when some value has it. -/
theorem find?_eq_none_iff (root : Node) (anchor : Nat) :
    root.find? anchor = none ↔ ∀ node ∈ root.parts, node.anchor? ≠ some anchor := by
  simp [find?]

end Node

end RowGraph.Yaml
