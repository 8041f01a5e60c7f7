import RowGraph.Entity.Basic

/-!
# Which side of a reference holds the key

A reference between two entities is kept by a foreign key on one of the two sides. A reference to
several rows is always kept by the child. A reference to one row is kept by the parent when it says
so, or when the parent has a field that points at the child; otherwise by the child.

An entity that refers to itself keeps a reference on the parent's side only when a field says so by
its kind or by its name.

Main statement: `resolve_via`, an explicit field of the child decides alone.

Modelled: `resolve_reference` (`resolve`), `self_reference_field` (`ownKeyTo?`) and
`child_reference_field` (`keyTo?`).
-/

namespace RowGraph

/-- The field that keeps a reference, on the side that has it. -/
inductive Link (parent child : Entity)
  /-- This field of the child holds the parent's key. -/
  | childHoldsKey (field : Fin child.fields.length)
  /-- This field of the parent holds the child's key. -/
  | parentHoldsKey (field : Fin parent.fields.length)
deriving DecidableEq

namespace Entity

/-- The field of `e` that by convention holds the key of an entity: its name followed by `Id`. -/
def conventionalKey? (e : Entity) (target : String) : Option (Fin e.fields.length) :=
  e.fields.findFinIdx? fun f => Text.sameName f.name (target ++ "Id")

/-- The field of `child` that holds the key of `parent`: the first owning foreign key, else the
first foreign key, else the field named by convention. -/
def keyTo? (child parent : Entity) : Option (Fin child.fields.length) :=
  child.fields.findFinIdx? (fun f => f.pointsAt parent.type && f.hasKeyKind .owning) <|>
    child.fields.findFinIdx? (·.pointsAt parent.type) <|>
    child.conventionalKey? parent.name

/-- The field of `parent` that holds the key of the one `child` of a reference. -/
def ownKeyTo? (parent : Entity) (reference : String) (child : Entity) :
    Option (Fin parent.fields.length) :=
  let pointing (p : Field → Bool) :=
    parent.fields.findFinIdx? fun f => f.pointsAt child.type && p f
  pointing (·.hasKeyKind .selfReference) <|>
    pointing (Text.sameName ·.name (reference ++ "Id")) <|>
    if child.type = parent.type then none
    else pointing (fun _ => true) <|> parent.conventionalKey? child.name

/-- The link of a reference from `parent` to `child`. -/
def resolve (parent : Entity) (r : Reference) (child : Entity) :
    Except CatalogError (Link parent child) :=
  match r.via with
  | some via => (child.requireField via).map .childHoldsKey
  | none =>
    let fromChild : Except CatalogError (Link parent child) :=
      match child.keyTo? parent with
      | some field => .ok (.childHoldsKey field)
      | none => .error (.referenceKeyNotFound parent.name r.name child.name)
    match r.cardinality, r.selfId with
    | .many, _ => fromChild
    | .one, some selfId => (parent.requireField selfId).map .parentHoldsKey
    | .one, none =>
      match parent.ownKeyTo? r.name child with
      | some field => .ok (.parentHoldsKey field)
      | none => fromChild

theorem resolve_via {parent child : Entity} {r : Reference} {via : String}
    (h : r.via = some via) :
    parent.resolve r child = (child.requireField via).map .childHoldsKey := by
  simp [resolve, h]

/-- Without an explicit field a reference to several rows is kept by the child, or not at all. -/
theorem resolve_many {parent child : Entity} {r : Reference} (hv : r.via = none)
    (hc : r.cardinality = .many) :
    parent.resolve r child = match child.keyTo? parent with
      | some field => .ok (.childHoldsKey field)
      | none => .error (.referenceKeyNotFound parent.name r.name child.name) := by
  simp only [resolve, hv, hc]

end Entity

end RowGraph
