import RowGraph.Database.Basic
import RowGraph.Entity.Link
import RowGraph.Query.Basic

/-!
# Which references to follow

A plan is a reference of a parent's entity together with the field that keeps it. Plans are made in
the order in which the references are declared, or in which they are asked for by name.

Main statement: `reference_mem_of_plans`, plans are made for references of the entity alone.

Modelled: `Include`, `ReferencePlan` (`Plan`), `plan_references` (`plans`) and `GraphError`.
-/

namespace RowGraph

/-- Which references to load. -/
inductive Include
  | all
  | nothing
  | only (names : List String)
deriving DecidableEq, Repr

/-- What can go wrong when graphs are saved or loaded. -/
inductive GraphError
  | catalog (why : CatalogError)
  | query (why : QueryError)
  | mapping (why : MappingError)
  | execution (why : ExecutionError)
  | unknownInclude (entity reference : String)
  | notEntityProjection (entity : String)
  | missingGeneratedKey (entity : String)
deriving DecidableEq

/-- The kind of a graph error. -/
def GraphError.kind : GraphError → String
  | .catalog why => "Catalog." ++ why.kind
  | .query why => "Query." ++ why.kind
  | .mapping why => "Mapping." ++ why.kind
  | .execution _ => "Execution"
  | .unknownInclude _ _ => "UnknownInclude"
  | .notEntityProjection _ => "NotEntityProjection"
  | .missingGeneratedKey _ => "MissingGeneratedKey"

/-- The wording of a graph error. -/
def GraphError.message : GraphError → String
  | .catalog why => why.message
  | .query why => why.message
  | .mapping why => why.message
  | .execution why => why.message
  | .unknownInclude entity reference =>
    "Cannot include '" ++ reference ++ "': entity '" ++ entity ++ "' declares no such reference"
  | .notEntityProjection entity =>
    "Query over '" ++ entity ++ "' does not select whole entities and cannot be loaded as a graph"
  | .missingGeneratedKey entity =>
    "Insert into '" ++ entity ++ "' did not return a generated key"

/-- A reference of a parent's entity with the field that keeps it. -/
structure Plan (c : Catalog) (parent : Entity) where
  reference : Reference
  link : Link parent (c.entity reference.target)

/-- The entity that the reference leads to. -/
def Plan.child {c : Catalog} {parent : Entity} (p : Plan c parent) : Entity :=
  c.entity p.reference.target

/-! ## Parts that can fail -/

theorem mapM_cons_eq_ok {ε α β : Type} {f : α → Except ε β} {a : α} {as : List α} {bs : List β} :
    (a :: as).mapM f = .ok bs ↔ ∃ b rest, f a = .ok b ∧ as.mapM f = .ok rest ∧ bs = b :: rest := by
  rw [List.mapM_cons]
  cases f a with
  | error why => simp [bind, Except.bind]
  | ok b =>
    cases as.mapM f with
    | error why => simp [bind, Except.bind]
    | ok rest => simp [bind, Except.bind, pure, Except.pure, eq_comm]

/-- Parts that can fail succeed together when each of them does. -/
theorem mapM_eq_ok_iff {ε α β : Type} {f : α → Except ε β} {as : List α} {bs : List β} :
    as.mapM f = .ok bs ↔ as.map f = bs.map .ok := by
  induction as generalizing bs with
  | nil => cases bs <;> simp [pure, Except.pure]
  | cons a as ih =>
    rw [mapM_cons_eq_ok, List.map_cons]
    constructor
    · rintro ⟨b, rest, ha, hrest, rfl⟩
      rw [ha, ih.mp hrest, List.map_cons]
    · intro h
      cases bs with
      | nil => cases h
      | cons b rest =>
        obtain ⟨ha, hrest⟩ := List.cons.inj h
        exact ⟨b, rest, ha, ih.mpr hrest, rfl⟩

/-! ## Plans -/

namespace Entity

/-- The references that are included. -/
def included (e : Entity) : Include → Except GraphError (List Reference)
  | .all => .ok e.references
  | .nothing => .ok []
  | .only names => names.mapM fun name =>
    match e.reference? name with
    | some r => .ok r
    | none => .error (.unknownInclude e.name name)

/-- The plan of a reference. -/
def plan (e : Entity) (c : Catalog) (r : Reference) : Except GraphError (Plan c e) :=
  match e.resolve r (c.entity r.target) with
  | .ok link => .ok ⟨r, link⟩
  | .error why => .error (.catalog why)

/-- The plans of the references that are included. -/
def plans (e : Entity) (c : Catalog) (selection : Include) :
    Except GraphError (List (Plan c e)) := do
  (← e.included selection).mapM (e.plan c)

variable {c : Catalog} {e : Entity}

theorem plans_nothing (e : Entity) (c : Catalog) : e.plans c .nothing = .ok [] := rfl

theorem reference_of_plan {r : Reference} {p : Plan c e} (h : e.plan c r = .ok p) :
    p.reference = r := by
  rw [plan] at h
  split at h <;> cases h
  rfl

/-- The included references are references of the entity. -/
theorem mem_references_of_included {selection : Include} {rs : List Reference}
    (h : e.included selection = .ok rs) {r : Reference} (hr : r ∈ rs) : r ∈ e.references := by
  cases selection with
  | all =>
    cases h
    exact hr
  | nothing =>
    cases h
    cases hr
  | only names =>
    obtain ⟨name, -, hfound⟩ := List.mem_map.mp (mapM_eq_ok_iff.mp h ▸ List.mem_map_of_mem hr)
    cases hname : e.reference? name with
    | none =>
      rw [hname] at hfound
      cases hfound
    | some found =>
      rw [hname] at hfound
      cases hfound
      exact List.mem_of_find?_eq_some hname

/-- The plans that are made are plans of references of the entity. -/
theorem reference_mem_of_plans {selection : Include} {plans : List (Plan c e)}
    (h : e.plans c selection = .ok plans) {p : Plan c e} (hp : p ∈ plans) :
    p.reference ∈ e.references := by
  rw [Entity.plans] at h
  cases hincluded : e.included selection with
  | error why =>
    rw [hincluded] at h
    cases h
  | ok rs =>
    rw [hincluded] at h
    change rs.mapM (e.plan c) = .ok plans at h
    obtain ⟨r, hr, hplan⟩ := List.mem_map.mp (mapM_eq_ok_iff.mp h ▸ List.mem_map_of_mem hp)
    exact reference_of_plan hplan ▸ mem_references_of_included hincluded hr

end Entity

end RowGraph
