import RowGraph.Query.Basic

/-!
# Join conditions from foreign keys

A source can be joined along a foreign key between it and a source that is there already, in either
direction. The first source that has a foreign key to or from the new one gives the condition; a key
that the new one holds comes before a key that it is the target of.

Modelled: `fk_to` (`joiningField?`) and `infer_join_condition` (`inferCondition?`).
-/

namespace RowGraph

/-- The field by which an entity is joined to another one: of its foreign keys to that one the first
owning one, else the first; where it has none, the field named by convention. -/
def Entity.joiningField? (e target : Entity) : Option Field :=
  let explicit := e.fields.filter (·.pointsAt target.type)
  explicit.find? (·.hasKeyKind .owning) <|> explicit.head? <|>
    e.fields.find? fun f => Text.sameName f.name (target.name ++ "Id")

namespace Source

/-- The condition that two columns are equal. -/
def equation (left right : String) : Fragment := .sql ("(" ++ left ++ " = " ++ right ++ ")")

/-- The condition along a foreign key of the new source to one that is there. -/
def keyToExisting? (c : Catalog) (d : Dialect) (existing new : Source) : Option Fragment := do
  let parent := c.entity existing.entity
  let child := c.entity new.entity
  let foreign ← child.joiningField? parent
  let key ← parent.keyField?
  return equation (new.qualify c d foreign.column) (existing.qualify c d key.column)

/-- The condition along a foreign key of a source that is there to the new one. -/
def keyFromExisting? (c : Catalog) (d : Dialect) (existing new : Source) : Option Fragment := do
  let parent := c.entity new.entity
  let child := c.entity existing.entity
  let foreign ← child.joiningField? parent
  let key ← parent.keyField?
  return equation (new.qualify c d key.column) (existing.qualify c d foreign.column)

/-- The condition that links a new source to the first of these that it has a key in common with. -/
def inferCondition? (c : Catalog) (d : Dialect) (existing : List Source) (new : Source) :
    Option Fragment :=
  existing.findSome? fun s => s.keyToExisting? c d new <|> s.keyFromExisting? c d new

end Source

end RowGraph
