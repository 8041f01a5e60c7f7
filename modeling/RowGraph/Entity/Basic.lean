import RowGraph.Text.Name
import RowGraph.Value.Basic

/-!
# Entities

An entity is a kind of row: its table, its fields in order, its primary key, and its references to
other entities. Entities may refer to each other in cycles, so a reference names its target by an
`EntityType`, and a `Catalog` gives the entity of every type.

Main statements: `fieldIndex?_sound` (a field found by name bears the name, as property or column,
in some case) and `Catalog.type_entity`.

Modelled: `EntityType`, `FieldDefinition` (`Field`), `ReferenceProperty` (`Reference`) and
`EntityMetadata` (`Entity`) with `field_index`, `require_field`, `primary_key`,
`require_primary_key`, `reference` and `has_capability`.

Left out: the registry: that an entity is described on its first use and shared by threads. A
`Catalog` has the entity of each type from the start.
-/

namespace RowGraph

/-- The identity of an entity, with the short name by which messages call it. -/
structure EntityType where
  id : Nat
  name : String
deriving DecidableEq, Repr

/-- How a foreign key relates to its target. -/
inductive KeyKind
  /-- The row belongs to the target. -/
  | owning
  /-- The row points at a row that it owns. -/
  | selfReference
  /-- The row points at the target under a name of its own. -/
  | aliased
deriving DecidableEq, Repr

/-- A foreign key: the entity it points at, and how. -/
structure ForeignKey where
  target : EntityType
  kind : KeyKind
deriving DecidableEq, Repr

/-- A field of an entity; `columnAlias` is the column's name where it differs. -/
structure Field where
  name : String
  columnAlias : Option String
  type : ColumnType
  isPrimaryKey : Bool
  isGenerated : Bool
  isNullable : Bool
  foreignKey : Option ForeignKey
deriving DecidableEq, Repr

/-- Whether a reference is to one row or to several. -/
inductive Cardinality
  | one
  | many
deriving DecidableEq, Repr

/-- A reference to other rows. It is no column; `via` names the field of the target that holds the
key, `selfId` the field of this entity that does. -/
structure Reference where
  name : String
  target : EntityType
  cardinality : Cardinality
  via : Option String
  selfId : Option String
deriving DecidableEq, Repr

/-- A kind of row. The primary key is one of the fields. -/
structure Entity where
  type : EntityType
  name : String
  table : String
  schema : Option String
  defaultAlias : Option String
  fields : List Field
  primaryKey : Option (Fin fields.length)
  references : List Reference
  capabilities : List String

/-- What can be wrong about an entity that is asked for something. -/
inductive CatalogError
  | missingPrimaryKey (entity : String)
  | unknownField (entity field : String)
  | unknownReference (entity reference : String)
  | referenceKeyNotFound (parent reference child : String)
deriving DecidableEq, Repr

/-- The kind of a catalog error. -/
def CatalogError.kind : CatalogError → String
  | .missingPrimaryKey _ => "MissingPrimaryKey"
  | .unknownField _ _ => "UnknownField"
  | .unknownReference _ _ => "UnknownReference"
  | .referenceKeyNotFound _ _ _ => "ReferenceKeyNotFound"

/-- The wording of a catalog error. -/
def CatalogError.message : CatalogError → String
  | .missingPrimaryKey entity =>
    "Entity '" ++ entity ++
      "' has no primary key (flag a field with primary_key() or name one 'Id')"
  | .unknownField entity field => "Field '" ++ field ++ "' not found on entity '" ++ entity ++ "'"
  | .unknownReference entity reference =>
    "Reference '" ++ reference ++ "' not found on entity '" ++ entity ++ "'"
  | .referenceKeyNotFound parent reference child =>
    "Cannot find a foreign key linking '" ++ parent ++ "." ++ reference ++ "' to '" ++ child ++
      "' (declare references::<" ++ parent ++ ">() on the child, or a '" ++ parent ++ "Id' field)"

namespace Field

/-- The name of the column. -/
def column (f : Field) : String := f.columnAlias.getD f.name

/-- Whether the field is a foreign key to this entity. -/
def pointsAt (f : Field) (target : EntityType) : Bool :=
  f.foreignKey.any (·.target == target)

/-- Whether the field is a foreign key of this kind. -/
def hasKeyKind (f : Field) (kind : KeyKind) : Bool :=
  f.foreignKey.any (·.kind == kind)

end Field

namespace Entity

/-- Whether the entity was declared with this capability, in any case. -/
def hasCapability (e : Entity) (capability : String) : Bool :=
  e.capabilities.any (Text.sameName · capability)

/-- The field with this name: by its own name, else by its column's, else by either in any case. -/
def fieldIndex? (e : Entity) (name : String) : Option (Fin e.fields.length) :=
  e.fields.findFinIdx? (·.name == name) <|>
    e.fields.findFinIdx? (·.column == name) <|>
    e.fields.findFinIdx? fun f => Text.sameName f.name name || Text.sameName f.column name

/-- The field at a place. -/
def fieldAt (e : Entity) (i : Fin e.fields.length) : Field := e.fields.get i

/-- The field with this name, looked up as by `fieldIndex?`. -/
def field? (e : Entity) (name : String) : Option Field :=
  (e.fieldIndex? name).map e.fieldAt

/-- The place of a field that must be there. -/
def requireField (e : Entity) (name : String) : Except CatalogError (Fin e.fields.length) :=
  match e.fieldIndex? name with
  | some i => .ok i
  | none => .error (.unknownField e.name name)

/-- The field of the primary key. -/
def keyField? (e : Entity) : Option Field := e.primaryKey.map e.fieldAt

/-- The place of a primary key that must be there. -/
def requireKey (e : Entity) : Except CatalogError (Fin e.fields.length) :=
  match e.primaryKey with
  | some i => .ok i
  | none => .error (.missingPrimaryKey e.name)

/-- The reference with this name, in any case. -/
def reference? (e : Entity) (name : String) : Option Reference :=
  e.references.find? fun r => Text.sameName r.name name

/-- A field found by name bears that name up to case, as its own or as its column's. -/
theorem fieldIndex?_sound {e : Entity} {name : String} {i : Fin e.fields.length}
    (h : e.fieldIndex? name = some i) :
    Text.sameName (e.fieldAt i).name name = true ∨
      Text.sameName (e.fieldAt i).column name = true := by
  unfold fieldIndex? at h
  rw [Option.orElse_eq_orElse, Option.orElse_eq_or, Option.or_eq_some_iff] at h
  simp only [List.findFinIdx?_eq_some_iff, Option.orElse_eq_or, Option.or_eq_some_iff,
    beq_iff_eq, Bool.or_eq_true, fieldAt] at h ⊢
  grind [Text.sameName_refl]

end Entity

/-- The entities of all types. -/
structure Catalog where
  entity : EntityType → Entity
  type_entity : ∀ t, (entity t).type = t

end RowGraph
