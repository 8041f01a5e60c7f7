import RowGraph.Proofs.Attempt
import RowGraph.Proofs.Load.Statements
import RowGraph.Proofs.Outcome
import RowGraph.Sample

/-!
# Select filters and capabilities

A filter is registered for a capability, and an entity that declares the capability is meant to be
queried through the filter, once. The two are brought together by the spelling of the capability,
though, where an entity is asked for a capability in any case; and a capability that is declared
twice counts twice.

* `perm_filtersFor`: a filter stands among those of an entity as often as the entity declares the
  filter's capability in the very spelling.
* `perm_filtersFor_iff`: the filters of an entity are those of its capabilities, each of them once,
  exactly if the entity declares these capabilities in the spelling of the filters and once.
* `filtered_eq_ok_iff`: a query is filtered by the filters of its root's entity one after the other.
* `asksOnly_load`: a load asks a database for filtered queries and nothing else.
* **`select_filters_as_declared`**: all of this about one session.
-/

namespace RowGraph

variable {c : Catalog}

/-! ## The filters of an entity -/

section Order

variable {filters : List (SelectFilter c)} {e : Entity}

/-- One more filter is added to those of an entity for each time its capability is declared. -/
theorem perm_flatMap_filter_cons (f : SelectFilter c) (filters : List (SelectFilter c))
    (declared : List String) :
    (declared.flatMap fun name => (f :: filters).filter (·.capability == name)).Perm
      (List.replicate (declared.count f.capability) f ++
        declared.flatMap fun name => filters.filter (·.capability == name)) := by
  induction declared with
  | nil => exact .refl _
  | cons name declared ih =>
    have moved := (ih.append_left (filters.filter (·.capability == name))).trans
      (List.perm_append_comm_assoc _ _ _)
    simp only [List.flatMap_cons]
    by_cases same : f.capability = name
    · subst same
      rw [List.count_cons_self, List.replicate_succ, List.filter_cons_of_pos (by simp)]
      exact .cons f moved
    · rw [List.count_cons_of_ne (Ne.symm same), List.filter_cons_of_neg (by simpa using same)]
      exact moved

/-- A filter stands among those of an entity as often as its capability is declared. -/
theorem perm_filtersFor (filters : List (SelectFilter c)) (e : Entity) :
    (filtersFor filters e).Perm
      (filters.flatMap fun f => List.replicate (e.capabilities.count f.capability) f) := by
  induction filters with
  | nil => rw [filtersFor_nil]; exact .refl _
  | cons f filters ih =>
    rw [List.flatMap_cons]
    exact (perm_flatMap_filter_cons f filters e.capabilities).trans (ih.append_left _)

/-- A capability that is declared in the spelling is declared. -/
theorem Entity.hasCapability_of_mem {capability : String} (h : capability ∈ e.capabilities) :
    e.hasCapability capability = true :=
  List.any_eq_true.mpr ⟨capability, h, Text.sameName_refl capability⟩

/-- The capabilities of the filters are declared in the filters' spelling, and once, where they are
declared at all. -/
def SpelledOnce (filters : List (SelectFilter c)) (e : Entity) : Prop :=
  ∀ f ∈ filters, e.hasCapability f.capability = true → e.capabilities.count f.capability = 1

theorem flatMap_replicate_of_spelledOnce (h : SpelledOnce filters e) :
    (filters.flatMap fun f => List.replicate (e.capabilities.count f.capability) f) =
      filters.filter fun f => e.hasCapability f.capability := by
  induction filters with
  | nil => rfl
  | cons f filters ih =>
    have rest : SpelledOnce filters e := fun g hg => h g (List.mem_cons_of_mem f hg)
    rw [List.flatMap_cons, ih rest]
    rw [List.filter_cons]
    by_cases declared : e.hasCapability f.capability = true
    · rw [h f List.mem_cons_self declared, if_pos declared]
      rfl
    · have absent : f.capability ∉ e.capabilities :=
        fun hm => declared (Entity.hasCapability_of_mem hm)
      rw [List.count_eq_zero_of_not_mem absent, if_neg declared]
      rfl

/-- How many filters of a spelling stand among those of an entity. -/
theorem countP_filtersFor (filters : List (SelectFilter c)) (e : Entity) (name : String) :
    (filtersFor filters e).countP (·.capability == name) =
      e.capabilities.count name * filters.countP (·.capability == name) := by
  rw [filtersFor]
  induction e.capabilities with
  | nil => simp
  | cons declared rest ih =>
    rw [List.flatMap_cons, List.countP_append, ih, List.countP_filter]
    by_cases same : declared = name
    · subst same
      simp only [Bool.and_self, List.count_cons_self]
      rw [Nat.succ_mul, Nat.add_comm]
    · have none :
          filters.countP (fun f => f.capability == name && f.capability == declared) = 0 := by
        rw [List.countP_eq_zero]
        intro f _
        simp only [Bool.and_eq_true, beq_iff_eq, not_and]
        rintro rfl
        exact Ne.symm same
      rw [none, List.count_cons_of_ne same, Nat.zero_add]

/-- **The filters of an entity are those of its capabilities, each of them once, exactly if the
entity declares the capabilities in the filters' spelling and once.** -/
theorem perm_filtersFor_iff :
    (filtersFor filters e).Perm (filters.filter fun f => e.hasCapability f.capability) ↔
      SpelledOnce filters e := by
  constructor
  · intro once f hf declared
    have counted := once.countP_eq (·.capability == f.capability)
    have all : (filters.filter fun g => e.hasCapability g.capability).countP
        (·.capability == f.capability) = filters.countP (·.capability == f.capability) := by
      rw [List.countP_filter]
      refine List.countP_congr fun g _ => ?_
      simp only [Bool.and_eq_true, beq_iff_eq, and_iff_left_iff_imp]
      intro same
      rwa [same]
    rw [countP_filtersFor, all] at counted
    have some : 0 < filters.countP (·.capability == f.capability) :=
      List.countP_pos_iff.mpr ⟨f, hf, by simp⟩
    exact Nat.eq_of_mul_eq_mul_right some (counted.trans (Nat.one_mul _).symm)
  · intro h
    rw [← flatMap_replicate_of_spelledOnce h]
    exact perm_filtersFor filters e

end Order

/-! ## Filtered queries -/

/-- One query becomes another by filters that are run one after the other. -/
inductive Query.Through : List (SelectFilter c) → Query c → Query c → Prop
  | nil {q} : Through [] q q
  | cons {f rest q next last} :
    Attempt.Runs f.apply q () next → Through rest next last → Through (f :: rest) q last

namespace Query

theorem runs_forM_apply_iff {filters : List (SelectFilter c)} {q last : Query c} :
    Attempt.Runs (filters.forM SelectFilter.apply) q () last ↔ Through filters q last := by
  induction filters generalizing q with
  | nil =>
    rw [List.forM]
    constructor
    · intro h
      obtain ⟨-, rfl⟩ := Attempt.runs_pure.mp h
      exact .nil
    · rintro ⟨⟩
      exact Attempt.runs_pure.mpr ⟨rfl, rfl⟩
  | cons f filters ih =>
    rw [List.forM, Attempt.runs_bind]
    constructor
    · rintro ⟨⟨⟩, next, first, rest⟩
      exact .cons first (ih.mp rest)
    · rintro (_ | ⟨first, rest⟩)
      exact ⟨(), _, first, ih.mpr rest⟩

/-- A query is filtered by the filters of its root's entity one after the other. -/
theorem filtered_eq_ok_iff {filters : List (SelectFilter c)} {q last : Query c} :
    q.filtered filters = .ok last ↔ Through (filtersFor filters q.rootEntity) q last := by
  rw [← runs_forM_apply_iff, Attempt.Runs, Attempt.ending, filtered]
  rcases ((filtersFor filters q.rootEntity).forM SelectFilter.apply).run.run q with ⟨_ | ⟨⟨⟩⟩, q'⟩
  · simp
  · simp

end Query

namespace Session

variable {m : Type → Type} {s : Session c m}

/-- The session with another database. -/
def against (s : Session c m) (d : Database m) : Session c m := { s with database := d }

/-- A query for the children with some keys, behind the filters of the children's entity. -/
def Supplemental (s : Session c m) (st : Statement) : Prop :=
  ∃ (e : Entity) (p : Plan c e) (field : Field) (keys : List Value) (filtered q : Query c),
    Query.Through (filtersFor s.filters p.child) (.ofRoot s.dialect ⟨p.reference.target, none⟩)
      filtered ∧
    filtered.restricted (p.keyCondition s.settings.caseInsensitive field keys) = .ok q ∧
    st = q.selectStatement

/-- A query behind the filters of its root's entity. -/
def Root (s : Session c m) (q : Query c) (st : Statement) : Prop :=
  ∃ filtered, Query.Through (filtersFor s.filters q.rootEntity) q filtered ∧
    st = filtered.selectStatement

theorem root_of_rootStatement {q : Query c} {st : Statement} (h : s.rootStatement q = .ok st) :
    s.Root q st := by
  rw [rootStatement] at h
  by_cases whole : q.shape = .entity
  · rw [if_neg (not_not_intro whole)] at h
    cases hq : q.filtered s.filters with
    | error why =>
      rw [hq] at h
      cases h
    | ok filtered =>
      rw [hq] at h
      cases h
      exact ⟨filtered, Query.filtered_eq_ok_iff.mp hq, rfl⟩
  · rw [if_pos whole] at h
    cases h

theorem supplemental_of_batchStatement {e : Entity} {p : Plan c e} {field : Field}
    {keys : List Value} {st : Statement} (h : s.batchStatement p field keys = .ok st) :
    s.Supplemental st := by
  rw [batchStatement] at h
  cases hq : (Query.ofRoot s.dialect ⟨p.reference.target, none⟩ : Query c).filtered s.filters with
  | error why =>
    rw [hq] at h
    cases h
  | ok filtered =>
    rw [hq] at h
    change (filtered.restricted _ >>= fun q => pure q.selectStatement) = _ at h
    cases hr : filtered.restricted (p.keyCondition s.settings.caseInsensitive field keys) with
    | error why =>
      rw [hr] at h
      cases h
    | ok q =>
      rw [hr] at h
      cases h
      exact ⟨e, p, field, keys, filtered, q, Query.filtered_eq_ok_iff.mp hq, hr, rfl⟩

theorem supplemental_of_referenceStatements {e : Entity} {p : Plan c e} {g : Graph c}
    {parents : List NodeId} {statements : List Statement}
    (h : s.referenceStatements p g parents = .ok statements) :
    ∀ st ∈ statements, s.Supplemental st := by
  cases hfield : p.childField with
  | error why =>
    rw [referenceStatements, hfield] at h
    cases hkeys : distinctKeys s.settings.caseInsensitive [] (parents.map (p.parentKey g)) with
    | nil =>
      rw [hkeys] at h
      cases h
      intro st hst
      cases hst
    | cons key rest =>
      rw [hkeys] at h
      cases h
  | ok field =>
    rw [s.referenceStatements_eq hfield, mapM_eq_ok_iff] at h
    intro st hst
    have made : (.ok st : Except GraphError Statement) ∈ statements.map .ok :=
      List.mem_map_of_mem hst
    rw [← h] at made
    obtain ⟨keys, -, made⟩ := List.mem_map.mp made
    cases hb : s.batchStatement p (p.child.fieldAt field) keys with
    | error why =>
      rw [hb] at made
      cases made
    | ok other =>
      rw [hb] at made
      cases made
      exact supplemental_of_batchStatement hb

end Session

/-! ## What a load asks for -/

/-- A database is asked for nothing but statements with a property: two databases that answer these
in the same way cannot be told apart. -/
def AsksOnly {m : Type → Type} {α : Type} (P : Statement → Prop) (x : Database m → m α) : Prop :=
  ∀ d d' : Database m, (∀ st, P st → d.query st.sql st.values = d'.query st.sql st.values) →
    x d = x d'

theorem mapM_congr {m : Type → Type} [Monad m] {α β : Type} {f g : α → m β} {as : List α}
    (h : ∀ a ∈ as, f a = g a) : as.mapM f = as.mapM g := by
  have loop : ∀ done : List β, List.mapM.loop f as done = List.mapM.loop g as done := by
    induction as with
    | nil =>
      intro done
      rfl
    | cons a as ih =>
      intro done
      have rest := ih fun b hb => h b (List.mem_cons_of_mem a hb)
      simp only [List.mapM.loop, h a List.mem_cons_self, rest]
  exact loop []

namespace Loading

variable {m : Type → Type} [Monad m] {s : Session c m} {d d' : Database m}

theorem query_against {st : Statement}
    (same : d.query st.sql st.values = d'.query st.sql st.values) :
    Loading.query (c := c) (s.against d) st = Loading.query (s.against d') st := by
  simp only [query, Session.against, same]

theorem loadReference_against {e : Entity}
    (same : ∀ st, s.Supplemental st → d.query st.sql st.values = d'.query st.sql st.values)
    (parents : List NodeId) (p : Plan c e) :
    loadReference (s.against d) parents p = loadReference (s.against d') parents p := by
  unfold loadReference
  refine bind_congr fun g => ?_
  have statements_against : ∀ d : Database m,
      (s.against d).referenceStatements p g parents = s.referenceStatements p g parents :=
    fun _ => rfl
  rw [statements_against, statements_against]
  cases made : s.referenceStatements p g parents with
  | error why => rfl
  | ok statements =>
    have children :
        statements.mapM (query (s.against d) · >>= materialize (s.against d) p.reference.target) =
          statements.mapM
            (query (s.against d') · >>= materialize (s.against d') p.reference.target) := by
      refine mapM_congr fun st hst => ?_
      rw [query_against (same st (Session.supplemental_of_referenceStatements made st hst))]
      rfl
    exact congrArg (· >>= fun children =>
      stitch s.settings.caseInsensitive p parents children.flatten) children

theorem loadReferences_against
    (same : ∀ st, s.Supplemental st → d.query st.sql st.values = d'.query st.sql st.values)
    (parents : List NodeId) (selection : Include) :
    loadReferences (s.against d) parents selection =
      loadReferences (s.against d') parents selection := by
  have each : ∀ {e : Entity},
      loadReference (e := e) (s.against d) parents = loadReference (s.against d') parents :=
    fun {e} => funext fun p => loadReference_against same parents p
  unfold loadReferences
  simp only [each]

end Loading

namespace Session

variable {m : Type → Type} [Monad m]

/-- **A load asks a database for filtered queries and nothing else.** -/
theorem asksOnly_load (s : Session c m) (q : Query c) (g : Graph c) (selection : Include) :
    AsksOnly (fun st => s.Root q st ∨ s.Supplemental st) fun d =>
      (s.against d).load q g selection := by
  intro d d' same
  have root_against : ∀ d : Database m, (s.against d).rootStatement q = s.rootStatement q :=
    fun _ => rfl
  simp only [load, root_against]
  cases made : s.rootStatement q with
  | error why => rfl
  | ok st =>
    have asked : Loading.query (c := c) (s.against d) st = Loading.query (s.against d') st :=
      Loading.query_against (same st (.inl (root_of_rootStatement made)))
    have filled : ∀ ids, Loading.loadReferences (s.against d) ids selection =
        Loading.loadReferences (s.against d') ids selection :=
      fun ids => Loading.loadReferences_against (fun st h => same st (.inr h)) ids selection
    simp only [Loading.loadQuery, asked, filled]
    rfl

theorem asksOnly_loadReferences (s : Session c m) (g : Graph c) (parents : List NodeId)
    (selection : Include) :
    AsksOnly s.Supplemental fun d => (s.against d).loadReferences g parents selection := by
  intro d d' same
  simp only [loadReferences, Loading.loadReferences_against same parents selection]

/-- **Select filters follow the capabilities as they are spelled.** Those of an entity are the
filters of the capabilities that it declares, each of them once, exactly if it declares these
capabilities in the spelling of the filters and once. A load asks for queries behind the filters of
their entities, in this order, and for nothing else. -/
theorem select_filters_as_declared (s : Session c m) :
    (∀ e : Entity,
      (filtersFor s.filters e).Perm
        (s.filters.flatMap fun f => List.replicate (e.capabilities.count f.capability) f) ∧
      ((filtersFor s.filters e).Perm (s.filters.filter fun f => e.hasCapability f.capability) ↔
        SpelledOnce s.filters e)) ∧
      (∀ q g selection, AsksOnly (fun st => s.Root q st ∨ s.Supplemental st) fun d =>
        (s.against d).load q g selection) ∧
      ∀ g parents selection, AsksOnly s.Supplemental fun d =>
        (s.against d).loadReferences g parents selection :=
  ⟨fun e => ⟨perm_filtersFor s.filters e, perm_filtersFor_iff⟩, s.asksOnly_load,
    s.asksOnly_loadReferences⟩

end Session

namespace Sample

/-- A filter against users that are marked as deleted. -/
def undeleted (capability : String) : SelectFilter catalog where
  capability
  apply := (Call.filter .and (.compare .eq (.column ⟨type "TeamUser", "IsDeleted"⟩)
    (.literal (.bool false)))).run ⟨fun _ _ => .null, id⟩

/-- Users of teams who declare once more that they are only marked as deleted. -/
def twiceSoftDelete : Description :=
  { teamUser with clauses := teamUser.clauses ++ [.capability "SoftDelete"] }

/-- Users of teams have the capability of the filter in any case, and are queried without it in
another one; where they declare it twice the filter is run twice. -/
theorem not_perm_filtersFor_undeleted :
    let user := catalog.entity (type "TeamUser")
    let twice := twiceSoftDelete.build (type "TeamUser")
    (user.hasCapability "softdelete" = true ∧ filtersFor [undeleted "softdelete"] user = [] ∧
        ¬ (filtersFor [undeleted "softdelete"] user).Perm
          ([undeleted "softdelete"].filter fun f => user.hasCapability f.capability)) ∧
      filtersFor [undeleted "SoftDelete"] twice =
        [undeleted "SoftDelete", undeleted "SoftDelete"] ∧
      ¬ (filtersFor [undeleted "SoftDelete"] twice).Perm
        ([undeleted "SoftDelete"].filter fun f => twice.hasCapability f.capability) := by
  intro user twice
  have declared : user.hasCapability "softdelete" = true := by decide
  have declaredTwice : twice.hasCapability "SoftDelete" = true := by decide
  refine ⟨⟨declared, rfl, fun perm => ?_⟩, rfl, fun perm => ?_⟩
  · have once := perm_filtersFor_iff.mp perm _ List.mem_cons_self declared
    exact absurd once (by decide)
  · have once := perm_filtersFor_iff.mp perm _ List.mem_cons_self declaredTwice
    exact absurd once (by decide)

end Sample

end RowGraph
