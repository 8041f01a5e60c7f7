import RowGraph.Proofs.Load.Handed
import RowGraph.Sample

/-!
# Keys that match in any case

Where keys match in any case, parents and children are matched without regard to the case of texts,
and of the keys that match each other one is asked for. The statement looks it up in small letters,
though, only where the field of the child is one of texts. Where a field of another type holds
texts, it is looked up as it is written, so parents whose keys are written in another way get the
children of that one key, and miss those they get where the case of letters counts.

* `matching`, `reached`: the rows that match a key, and those that are found for it.
* `handed_written`, `handed_in_any_case`: what parents are handed in either case.
* `matching_subset_reached_iff`, `written_subset_reached_iff`: when nothing is missed.
* **`loadReferences_in_any_case`**: all of this about the graphs that are loaded.
-/

namespace RowGraph

variable {c : Catalog} {e : Entity}

/-! ## Rows that match and rows that are found -/

namespace Table

variable (table : Table e) (allowed : Row → Bool) (f : Field)

/-- The rows whose key matches a key. -/
def matching (ignoreCase : Bool) (key : Value) : List Row :=
  table.rows.filter fun r => allowed r && (r.cell f).matchKey ignoreCase == key.matchKey ignoreCase

/-- The rows that are found for one of some keys where keys match in any case: in a field of texts
all that match it, and in another field those that match, as it is written, the first of the keys
that matches it. -/
def reached (keys : List Value) (key : Value) : List Row :=
  if f.type.isTextual then table.matching allowed f true key
  else table.matching allowed f false (askedFor true keys key)

variable {table allowed f} {ignoreCase : Bool} {key : Value} {keys : List Value} {r : Row}

theorem mem_matching : r ∈ table.matching allowed f ignoreCase key ↔
    r ∈ table.rows ∧ allowed r = true ∧
      (r.cell f).matchKey ignoreCase = key.matchKey ignoreCase := by
  rw [matching, List.mem_filter, Bool.and_eq_true, beq_iff_eq]

/-- The rows for one key are those with the same stored key. -/
theorem selected_eq_matching (hkey : key.isNull = false) :
    table.selected ignoreCase f allowed [key] =
      table.matching allowed f (ignoreCase && f.type.isTextual) key := by
  obtain ⟨k, hk⟩ := Value.exists_matchKey hkey ignoreCase
  rw [selected_singleton _ _ _ _ hk, matching]
  refine List.filter_congr fun r _ => ?_
  rw [Field.storedKey, Field.storedKey, BEq.comm]

theorem matching_congr {u v : Value} (h : u.matchKey ignoreCase = v.matchKey ignoreCase) :
    table.matching allowed f ignoreCase u = table.matching allowed f ignoreCase v := by
  rw [matching, matching, h]

/-- **All rows that match in any case are found exactly in a field of texts, or where all of them
are written as the key that is asked for.** -/
theorem matching_subset_reached_iff :
    (∀ r ∈ table.matching allowed f true key, r ∈ table.reached allowed f keys key) ↔
      f.type.isTextual = true ∨ ∀ r ∈ table.matching allowed f true key,
        (r.cell f).matchKey false = (askedFor true keys key).matchKey false := by
  rw [reached]
  cases f.type.isTextual with
  | true => simp
  | false =>
    simp only [Bool.false_eq_true, if_false, false_or]
    refine forall₂_congr fun r hr => ?_
    obtain ⟨hrow, hallowed, -⟩ := mem_matching.mp hr
    exact ⟨fun h => (mem_matching.mp h).2.2, fun h => mem_matching.mpr ⟨hrow, hallowed, h⟩⟩

/-- **All rows that match as they are written are found exactly in a field of texts, or where there
are none, or where the key that is asked for is written alike.** -/
theorem written_subset_reached_iff :
    (∀ r ∈ table.matching allowed f false key, r ∈ table.reached allowed f keys key) ↔
      f.type.isTextual = true ∨ table.matching allowed f false key = [] ∨
        (askedFor true keys key).matchKey false = key.matchKey false := by
  rw [reached]
  cases f.type.isTextual with
  | true =>
    simp only [if_true, true_or, iff_true]
    intro r hr
    obtain ⟨hrow, hallowed, hkey⟩ := mem_matching.mp hr
    exact mem_matching.mpr ⟨hrow, hallowed, Value.matchKey_eq_of_eq hkey true⟩
  | false =>
    simp only [Bool.false_eq_true, if_false, false_or]
    constructor
    · intro h
      cases hrows : table.matching allowed f false key with
      | nil => exact .inl rfl
      | cons r rest =>
        have hr : r ∈ table.matching allowed f false key := hrows ▸ List.mem_cons_self
        exact .inr ((mem_matching.mp (h r hr)).2.2.symm.trans (mem_matching.mp hr).2.2)
    · rintro (hnone | hasked) r hr
      · rw [hnone] at hr
        cases hr
      · rwa [matching_congr hasked]

end Table

namespace Loading

open Process

variable {σ : Type} {s : Session c (StateM σ)} {p : Plan c e} {field : Fin p.child.fields.length}
  {table : Table p.child} {allowed : Row → Bool} {g : Graph c} {parents : List NodeId}
  {parent : NodeId}

/-- Where the case of letters counts, a parent is handed the rows that match its key. -/
theorem handed_written (hkey : (p.parentKey g parent).isNull = false) :
    handed (s.ignoringCase false) p field table allowed g parents parent =
      table.matching allowed (p.child.fieldAt field) false (p.parentKey g parent) :=
  (Table.selected_eq_matching ((isNull_askedFor _ _ _).trans hkey)).trans
    (Table.matching_congr (matchKey_askedFor _ _ _))

/-- Where it does not, a parent is handed the rows that are found for its key. -/
theorem handed_in_any_case (hkey : (p.parentKey g parent).isNull = false) :
    handed (s.ignoringCase true) p field table allowed g parents parent =
      table.reached allowed (p.child.fieldAt field) (parents.map (p.parentKey g))
        (p.parentKey g parent) := by
  refine (Table.selected_eq_matching ((isNull_askedFor _ _ _).trans hkey)).trans ?_
  change table.matching allowed _ (true && _) _ = _
  rw [Table.reached, Bool.true_and]
  cases (p.child.fieldAt field).type.isTextual with
  | true => exact Table.matching_congr (matchKey_askedFor _ _ _)
  | false => rfl

end Loading

namespace Session

open Process

variable {σ : Type} {s : Session c (StateM σ)} {g : Graph c} {parents : List NodeId}
  {selection : Include} {type : EntityType}

/-- Whether references can be loaded does not depend on the case of letters. -/
theorem result_loadReferences_ignoringCase
    (hparents : ∀ parent ∈ parents, (g.row? parent).map Prod.fst = some type)
    (hlooked : ∀ n p, Loaded g parents selection n p →
      ∃ table allowed, s.LooksUpIn p table allowed) (w v : σ) :
    (((s.ignoringCase false).loadReferences g parents selection).run w).1.1 =
      (((s.ignoringCase true).loadReferences g parents selection).run v).1.1 := by
  change (outcome (Loading.loadReferences _ _ _) g w).1.1 =
    (outcome (Loading.loadReferences _ _ _) g v).1.1
  unfold Loading.loadReferences
  cases hfirst : parents.head? with
  | none => rfl
  | some first =>
    dsimp only
    rw [outcome_get_bind, outcome_get_bind]
    cases hn : g.node? first with
    | none => rfl
    | some n =>
      dsimp only
      cases hplans : n.entity.plans c selection with
      | error why => rfl
      | ok plans =>
        have hloop : Agree (fun x y => g.Grown x ∧ g.Grown y)
            (plans.forM (Loading.loadReference (s.ignoringCase false) parents))
            (plans.forM (Loading.loadReference (s.ignoringCase true) parents)) := by
          refine agree_forM fun p hp x y w v hxy => ?_
          have hloaded : Loaded g parents selection n p :=
            ⟨⟨first, hfirst, hn⟩, ⟨plans, hplans, hp⟩⟩
          obtain ⟨_, _, htable⟩ := hlooked n p hloaded
          obtain ⟨result, hends⟩ := Loading.ends_loadReference htable hparents
            (hloaded.isSome_reference? hparents)
          obtain ⟨hwritten, hx⟩ := hends false x w hxy.1
          obtain ⟨hany, hy⟩ := hends true y v hxy.2
          exact ⟨hwritten.trans hany.symm, hx, hy⟩
        exact (hloop g g w v ⟨.refl g, .refl g⟩).1

/-- **Where keys match in any case, parents hold what matches the key that is asked for in their
place.** References are loaded or not as they are where the case of letters counts. There a parent
that has a key holds the rows that match it as it is written; where case is ignored it holds the
rows that are found for it, and nothing is missed exactly where the field is one of texts or the
keys are written alike. -/
theorem loadReferences_in_any_case
    (hparents : ∀ parent ∈ parents, (g.row? parent).map Prod.fst = some type)
    (hlooked : ∀ n p, Loaded g parents selection n p →
      ∃ table allowed, s.LooksUpIn p table allowed) :
    let loaded ignoreCase w :=
      (((s.ignoringCase ignoreCase).loadReferences g parents selection).run w).1
    (∀ w v, (loaded false w).1 = (loaded true v).1) ∧
    (s.Prepares g parents selection → ∀ ignoreCase w, (loaded ignoreCase w).1 = .ok ()) ∧
    ∀ n p, LoadedLast g parents selection n p → p.reference.cardinality = .many →
      ∀ field, p.childField = .ok field → ∀ table allowed, s.LooksUpIn p table allowed →
      ∀ parent ∈ parents, (p.parentKey g parent).isNull = false →
        let f := p.child.fieldAt field
        let key := p.parentKey g parent
        let keys := parents.map (p.parentKey g)
        let written := table.matching allowed f false key
        let inAnyCase := table.matching allowed f true key
        let reached := table.reached allowed f keys key
        (∀ w, (loaded false w).1 = .ok () →
          (loaded false w).2.Holds parent p.reference.name (written.map p.seen)) ∧
        (∀ w, (loaded true w).1 = .ok () →
          (loaded true w).2.Holds parent p.reference.name (reached.map p.seen)) ∧
        ((∀ r ∈ inAnyCase, r ∈ reached) ↔ f.type.isTextual = true ∨
          ∀ r ∈ inAnyCase, (r.cell f).matchKey false = (askedFor true keys key).matchKey false) ∧
        ((∀ r ∈ written, r ∈ reached) ↔ f.type.isTextual = true ∨ written = [] ∨
          (askedFor true keys key).matchKey false = key.matchKey false) := by
  refine ⟨result_loadReferences_ignoringCase hparents hlooked,
    fun hprepares => Loading.ok_of_prepares hprepares hparents hlooked,
    fun n p hlast hmany field hfield table allowed htable parent hparent hkey => ?_⟩
  have hholds := Loading.holds_after_loadReferences hparents hlooked htable hlast hmany hfield
    hparent hkey
  refine ⟨fun w hok => ?_, fun w hok => ?_, Table.matching_subset_reached_iff,
    Table.written_subset_reached_iff⟩
  · exact Loading.handed_written hkey ▸ hholds false w hok
  · exact Loading.handed_in_any_case hkey ▸ hholds true w hok

end Session

namespace Sample

/-- A tenant, whose key is an identifier, with its projects. -/
def tenant : Description where
  name := "Tenant"
  clauses := [.field { field "Id" .uuid with isPrimaryKey := true }, many "Projects" "Project"]

/-- A project of a tenant. -/
def project : Description where
  name := "Project"
  clauses := [.field generatedKey,
    .field { foreignKey "TenantId" "Tenant" .owning false with type := .uuid }]

/-- Tenants and projects. -/
def tenancy : Catalog := .ofDescriptions [(type "Tenant", tenant), (type "Project", project)]

/-- Some projects, whose tenants are stored as texts. -/
def projects : Table (tenancy.entity (type "Project")) where
  columns := ["Id", "TenantId"]
  rows := [⟨["Id", "TenantId"], [.int 1, .text "a1"]⟩, ⟨["Id", "TenantId"], [.int 2, .text "A1"]⟩]
  columns_eq := by decide
  hasColumn := by decide

/-- What stands before the condition of a query for projects. -/
def projectsLead : String :=
  "SELECT \"Project\".\"Id\", \"Project\".\"TenantId\"\nFROM \"Project\"\nWHERE "

/-- A database that looks up tenants among these projects, in small letters where a query says
so. -/
def projectKeeper : Database (StateM Unit) where
  query sql keys := pure <| .ok <|
    projects.listed ((tenancy.entity (type "Project")).fieldAt ⟨1, by decide⟩) (fun _ => true)
      (readsLowered projectsLead sql) keys
  execute _ _ := pure (.ok 0)
  scalar _ _ := pure (.ok none)

/-- A session with that database. -/
def tenancySession : Session tenancy (StateM Unit) :=
  ⟨projectKeeper, .sqlite, ⟨false, false, 2⟩, []⟩

/-- Tenants with one key but for the case. -/
def tenants : Graph tenancy :=
  ⟨[.ofValues (type "Tenant") [.text "a1"], .ofValues (type "Tenant") [.text "A1"]]⟩

/-- The projects of a tenant. -/
def projectsPlan : Plan tenancy (tenancy.entity (type "Tenant")) :=
  ⟨⟨"Projects", type "Project", .many, none, none⟩, .childHoldsKey ⟨1, by decide⟩⟩

theorem row?_tenants :
    ∀ parent ∈ [0, 1], (tenants.row? parent).map Prod.fst = some (type "Tenant") := by
  decide

/-- The projects are the one reference of tenants. -/
theorem loaded_tenants {P : ∀ n : Node tenancy, Plan tenancy n.entity → Prop}
    (h : P (.ofValues (type "Tenant") [.text "a1"]) projectsPlan) (n : Node tenancy)
    (p : Plan tenancy n.entity) (hloaded : Loaded tenants [0, 1] .all n p) : P n p := by
  obtain ⟨⟨first, hfirst, hn⟩, plans, hplans, hp⟩ := hloaded
  cases hfirst
  cases hn
  cases hplans
  cases hp with
  | head => exact h
  | tail _ hp => cases hp

theorem looksUp_projects : tenancySession.LooksUpIn projectsPlan projects fun _ => true := by
  intro field hfield ignoreCase
  cases hfield
  have columns : (Projection.entity tenancy .sqlite ⟨type "Project", none⟩).toFragment =
      .sql "\"Project\".\"Id\", \"Project\".\"TenantId\"" := by decide
  have lead : "SELECT " ++ "\"Project\".\"Id\", \"Project\".\"TenantId\"" ++ "\nFROM " ++
      Source.tableReference tenancy .sqlite ⟨type "Project", none⟩ ++ "\nWHERE " =
        projectsLead := by decide
  exact looksUp_of_lookUp rfl rfl columns lead fun _ _ _ => rfl

theorem loadedLast_tenants :
    LoadedLast tenants [0, 1] .all (.ofValues (type "Tenant") [.text "a1"]) projectsPlan :=
  ⟨⟨0, rfl, rfl⟩, [], [], rfl, fun _ h => by cases h⟩

theorem prepares_tenants : tenancySession.Prepares tenants [0, 1] .all := by
  intro first hfirst n hn
  cases hfirst
  cases hn
  refine ⟨[projectsPlan], rfl, fun p hp => ?_⟩
  obtain rfl := List.mem_singleton.mp hp
  obtain ⟨made, hmade⟩ :=
    tenancySession.batchStatement_uniform projectsPlan (projectsPlan.child.fieldAt ⟨1, by decide⟩)
  cases made with
  | error why =>
    have hrefused := hmade []
    cases hrefused
  | ok make => exact ⟨⟨1, by decide⟩, make, rfl, hmade⟩

/-- What is seen of a project. -/
def projectSeen (id : Int64) (tenant : String) : EntityType × List Value :=
  (type "Project", [.int id, .text tenant])

/-- Both ways of matching load the tenants, and what is handed to the second one differs. -/
theorem loadReferences_tenants :
    let loaded ignoreCase :=
      (((tenancySession.ignoringCase ignoreCase).loadReferences tenants [0, 1] .all).run ()).1
    (loaded false).1 = .ok () ∧ (loaded true).1 = .ok () ∧
      (loaded false).2.Holds 1 "Projects" [projectSeen 2 "A1"] ∧
      (loaded true).2.Holds 1 "Projects" [projectSeen 1 "a1"] := by
  obtain ⟨-, hok, hall⟩ := Session.loadReferences_in_any_case row?_tenants
    (loaded_tenants (P := fun _ p => ∃ table allowed, tenancySession.LooksUpIn p table allowed)
      ⟨projects, _, looksUp_projects⟩)
  have hok := hok prepares_tenants
  obtain ⟨hwritten, hreached, -, -⟩ := hall (.ofValues (type "Tenant") [.text "a1"]) projectsPlan
    loadedLast_tenants rfl ⟨1, by decide⟩ rfl projects _ looksUp_projects 1 (by decide) rfl
  exact ⟨hok false (), hok true (), hwritten () (hok false ()), hreached () (hok true ())⟩

theorem holds_tenants (ignoreCase : Bool) :
    (((tenancySession.ignoringCase ignoreCase).loadReferences tenants [0, 1] .all).run ()).1.2.Holds
      1 "Projects" [if ignoreCase then projectSeen 1 "a1" else projectSeen 2 "A1"] := by
  have hlooked := loaded_tenants
    (P := fun _ p => ∃ table allowed, tenancySession.LooksUpIn p table allowed)
    ⟨projects, _, looksUp_projects⟩
  have hfield : projectsPlan.childField = .ok ⟨1, by decide⟩ := rfl
  have hsecond : (1 : NodeId) ∈ [0, 1] := by decide
  have hok := Loading.ok_of_prepares prepares_tenants row?_tenants hlooked ignoreCase ()
  have hholds := Loading.holds_after_loadReferences (n := .ofValues (type "Tenant") [.text "a1"])
    (p := projectsPlan) row?_tenants hlooked looksUp_projects loadedLast_tenants rfl hfield hsecond
    rfl ignoreCase () hok
  cases ignoreCase with
  | true => exact hholds
  | false => exact hholds

/-- **A project that the second tenant has where the case of letters counts is missed where it does
not**, though its key matches the tenant's: the first tenant's key is asked for in its place, and
looked up as it is written. -/
theorem misses_project :
    let loaded ignoreCase :=
      (((tenancySession.ignoringCase ignoreCase).loadReferences tenants [0, 1] .all).run ()).1.2
    (∃ rows, (loaded false).Holds 1 "Projects" rows ∧ projectSeen 2 "A1" ∈ rows) ∧
      ∀ rows, (loaded true).Holds 1 "Projects" rows → projectSeen 2 "A1" ∉ rows := by
  refine ⟨⟨_, holds_tenants false, List.mem_singleton.mpr rfl⟩, fun rows hrows => ?_⟩
  rw [hrows.unique (holds_tenants true)]
  decide

end Sample

end RowGraph
