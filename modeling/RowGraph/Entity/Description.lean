import RowGraph.Entity.Basic

/-!
# Describing entities

An entity is described by clauses in order. A field or reference declared again under its name takes
the place of the first one. Extending a base puts the base's fields and references first, except
those that the description already has, and adds the base's capabilities and schema where they are
missing; what is declared later under an inherited name replaces the inherited one.

The primary key is the first field flagged as one; else the first field named `Id` in any case; else
the first field. The finished entity flags that field alone, and this flag is what an extending
entity inherits.

Main statements: `length_keyed`, `isPrimaryKey_keyed_iff` (the flagged field of a finished entity is
its key), and `nodup_declare` with `nodup_inherit` (names stay different).

Modelled: `EntityDescriptor` with `table`, `schema`, `default_alias`, `extends`, `field`,
`reference`, `capability` and `build`; `FieldDef` and `ReferenceDef` are the records `Field` and
`Reference`, written down as their calls leave them.
-/

namespace RowGraph

/-- A clause of a description. -/
inductive Clause
  | table (name : String)
  | schema (name : String)
  | defaultAlias (aliasName : String)
  | capability (name : String)
  | field (f : Field)
  | reference (r : Reference)
  | extending (base : List Clause)

/-- A model name and the clauses that describe it. -/
structure Description where
  name : String
  clauses : List Clause

/-- The key among fields: the first flagged one, else the first named `Id`, else the first. -/
def keyIndex? (fields : List Field) : Option (Fin fields.length) :=
  fields.findFinIdx? (·.isPrimaryKey) <|>
    fields.findFinIdx? (Text.sameName ·.name "id") <|>
    if h : 0 < fields.length then some ⟨0, h⟩ else none

/-- The fields with the key flagged and no other. -/
def keyed (fields : List Field) : List Field :=
  fields.mapIdx fun i f => { f with isPrimaryKey := (keyIndex? fields).any (·.val == i) }

@[simp] theorem length_keyed (fields : List Field) : (keyed fields).length = fields.length := by
  simp [keyed]

/-- Exactly the key is flagged. -/
theorem isPrimaryKey_keyed_iff {fields : List Field} {i : Nat} {f : Field}
    (h : (keyed fields)[i]? = some f) :
    f.isPrimaryKey = true ↔ (keyIndex? fields).any (·.val == i) = true := by
  simp only [keyed, List.getElem?_mapIdx, Option.map_eq_some_iff] at h
  obtain ⟨g, _, rfl⟩ := h
  rfl

/-- What clauses have declared so far. -/
structure EntityDraft where
  table : Option String
  schema : Option String
  defaultAlias : Option String
  fields : List Field
  references : List Reference
  capabilities : List String

namespace EntityDraft

/-- Nothing declared. -/
def empty : EntityDraft := ⟨none, none, none, [], [], []⟩

/-- The items with `new` in the place of the one with its name, or at the end. -/
def declare {α : Type} (name : α → String) (new : α) : List α → List α
  | [] => [new]
  | a :: rest => if name a = name new then new :: rest else a :: declare name new rest

/-- The base's items without those declared here, and then those. -/
def inherit {α : Type} (name : α → String) (base own : List α) : List α :=
  base.filter (fun b => !own.any fun a => name a == name b) ++ own

section Names

variable {α : Type} {name : α → String} {new : α} {items base own : List α}

/-- Declaring an item adds its name unless it is there. -/
theorem map_name_declare : (declare name new items).map name =
    if name new ∈ items.map name then items.map name else items.map name ++ [name new] := by
  induction items with
  | nil => simp [declare]
  | cons a rest ih =>
    by_cases same : name a = name new
    · simp [declare, same]
    · have other : name new ≠ name a := Ne.symm same
      rw [declare, if_neg same, List.map_cons, ih]
      split <;> simp_all

/-- Items with different names still have different names after one more is declared. -/
theorem nodup_declare (h : (items.map name).Nodup) : ((declare name new items).map name).Nodup := by
  rw [map_name_declare]
  split
  · exact h
  · next fresh =>
    rw [List.nodup_append]
    refine ⟨h, by simp, fun a ha b hb same => fresh ?_⟩
    rwa [← List.mem_singleton.mp hb, ← same]

/-- So do the items of a base with those that take over from it. -/
theorem nodup_inherit (hb : (base.map name).Nodup) (h : (own.map name).Nodup) :
    ((inherit name base own).map name).Nodup := by
  rw [inherit, List.map_append, List.nodup_append]
  refine ⟨hb.sublist (List.filter_sublist.map _), h, ?_⟩
  rintro _ inherited _ declared rfl
  obtain ⟨b, kept, same⟩ := List.mem_map.mp inherited
  obtain ⟨a, ha, same'⟩ := List.mem_map.mp declared
  have lacking := (List.mem_filter.mp kept).2
  simp only [Bool.not_eq_true', List.any_eq_false, beq_iff_eq] at lacking
  exact lacking a ha (same'.trans same.symm)

end Names

/-- The draft after taking over what it lacks from a finished base. -/
def extend (d base : EntityDraft) : EntityDraft :=
  { d with
    fields := inherit Field.name (keyed base.fields) d.fields
    references := inherit Reference.name base.references d.references
    capabilities := base.capabilities.foldl
      (fun own c => if c ∈ own then own else own ++ [c]) d.capabilities
    schema := d.schema <|> base.schema }

mutual

/-- The draft after one more clause. -/
def add : Clause → EntityDraft → EntityDraft
  | .table name, d => { d with table := some name }
  | .schema name, d => { d with schema := some name }
  | .defaultAlias aliasName, d => { d with defaultAlias := some aliasName }
  | .capability name, d => { d with capabilities := d.capabilities ++ [name] }
  | .field f, d => { d with fields := declare Field.name f d.fields }
  | .reference r, d => { d with references := declare Reference.name r d.references }
  | .extending base, d => d.extend (addAll base empty)

/-- The draft after more clauses in order. -/
def addAll : List Clause → EntityDraft → EntityDraft
  | [], d => d
  | c :: rest, d => addAll rest (add c d)

end

end EntityDraft

/-- The entity that a description describes, under a type. -/
def Description.build (d : Description) (type : EntityType) : Entity :=
  let draft := EntityDraft.addAll d.clauses .empty
  { type
    name := d.name
    table := draft.table.getD d.name
    schema := draft.schema
    defaultAlias := draft.defaultAlias
    fields := keyed draft.fields
    primaryKey := (keyIndex? draft.fields).map (Fin.cast (length_keyed _).symm)
    references := draft.references
    capabilities := draft.capabilities }

/-- The catalog of these descriptions; a type without one has no fields. -/
def Catalog.ofDescriptions (descriptions : List (EntityType × Description)) : Catalog where
  entity t := ((descriptions.lookup t).getD ⟨t.name, []⟩).build t
  type_entity _ := rfl

end RowGraph
