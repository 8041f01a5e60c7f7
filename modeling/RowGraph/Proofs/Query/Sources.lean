import Mathlib.Data.List.Pairwise
import RowGraph.Proofs.Query.Calls

/-!
# The sources of a query

A query keeps its sources twice, as the scope in which columns are looked up and as the joins that
are written out, and a join that fails has to be taken back from both. Whatever is called, and
however the calls end, the two lists go together, and a column of an entity has one source, or the
call that names it fails for a reason that the sources show.

That an entity has at most one source without an alias of its own is checked nowhere: two such
sources would have one token, the entity's own, and tokens differ.

Results:
* `moves_run`: all that a call can do to the sources of a query.
* `aligned_apply` and `aligned_run`: what every call keeps, and so every run.
* `resolves_of_implicit`: where at most one source of an entity is implicit, looking the entity up
  ends as its sources say.
* **`sources_of_run`**: the sources of every query that calls build from a root.
-/

namespace RowGraph

open Attempt

variable {c : Catalog}

/-! ## Looking a source up -/

namespace Scope

/-- The sources of an entity, in order. -/
def sourcesOf (s : Scope) (entity : EntityType) : List Source :=
  s.sources.filter (·.entity == entity)

/-- The sources of an entity for which no alias was asked. -/
def implicitOf (s : Scope) (entity : EntityType) : List Source :=
  (s.sourcesOf entity).filter (!·.isExplicit)

/-- No two sources have one token, in any case. -/
def Distinct (c : Catalog) (s : Scope) : Prop :=
  s.sources.Pairwise fun a b => Text.sameName (a.token c) (b.token c) = false

/-- Looking an entity up ends as its sources say. -/
structure Resolves (s : Scope) (entity : EntityType) : Prop where
  /-- It is unbound if it has no source. -/
  unbound : s.forEntity entity = .error (.unbound entity.name) ↔ s.sourcesOf entity = []
  /-- It is ambiguous if it has several sources, all under aliases that were asked for. -/
  ambiguous : s.forEntity entity = .error (.ambiguous entity.name) ↔
    2 ≤ (s.sourcesOf entity).length ∧ ∀ b ∈ s.sourcesOf entity, b.isExplicit = true
  /-- It is found if it is neither. -/
  isOk : (∃ b, s.forEntity entity = .ok b) ↔
    s.sourcesOf entity ≠ [] ∧
      ¬ (2 ≤ (s.sourcesOf entity).length ∧ ∀ b ∈ s.sourcesOf entity, b.isExplicit = true)
  /-- What is found is its only source, or the implicit one of several. -/
  found : ∀ b, s.forEntity entity = .ok b ↔
    s.sourcesOf entity = [b] ∨
      2 ≤ (s.sourcesOf entity).length ∧ s.implicitOf entity = [b]

theorem mem_sourcesOf {s : Scope} {entity : EntityType} {b : Source} :
    b ∈ s.sourcesOf entity ↔ b ∈ s.sources ∧ b.entity = entity := by
  simp [sourcesOf]

/-- Looking up by the sources of the entity alone. -/
theorem forEntity_eq (s : Scope) (entity : EntityType) :
    s.forEntity entity =
      match s.sourcesOf entity with
      | [] => .error (.unbound entity.name)
      | [only] => .ok only
      | _ =>
        match s.implicitOf entity with
        | [implicit] => .ok implicit
        | _ => .error (.ambiguous entity.name) := by
  unfold forEntity implicitOf sourcesOf
  generalize s.sources.filter (·.entity == entity) = matching
  match matching with
  | [] => rfl
  | [_] => rfl
  | _ :: _ :: _ => rfl

/-- Where at most one source of an entity is implicit, none is implicit or exactly one is. -/
theorem resolves_of_implicit {s : Scope} {entity : EntityType}
    (h : (s.implicitOf entity).length ≤ 1) : s.Resolves entity := by
  have explicit : s.implicitOf entity = [] ↔ ∀ b ∈ s.sourcesOf entity, b.isExplicit = true := by
    simp [implicitOf]
  have lookup := forEntity_eq s entity
  match hs : s.sourcesOf entity, hi : s.implicitOf entity with
  | [], implicit =>
    rw [hs] at lookup
    constructor <;> simp [lookup, hs]
  | [only], implicit =>
    rw [hs] at lookup
    constructor <;> simp [lookup, hs]
  | first :: next :: rest, [] =>
    rw [hs, hi] at lookup
    have all := explicit.mp hi
    rw [hs] at all
    constructor <;> simp [lookup, hs, hi] <;> simpa using all
  | first :: next :: rest, [implicit] =>
    rw [hs, hi] at lookup
    have some : ¬ ∀ b ∈ s.sourcesOf entity, b.isExplicit = true := by
      rw [← explicit, hi]
      simp
    rw [hs] at some
    constructor
    · simp [lookup, hs]
    · simpa [lookup, hs] using some
    · simpa [lookup, hs] using some
    · simp [lookup, hs, hi]
  | first :: next :: rest, one :: two :: more =>
    rw [hi] at h
    simp at h

/-- Two sources of one entity without aliases of their own have one token. -/
theorem token_eq_of_implicit {a b : Source} (entity : a.entity = b.entity)
    (ha : a.isExplicit = false) (hb : b.isExplicit = false) : a.token c = b.token c := by
  have none_a : a.requested = none := by simpa [Source.isExplicit] using ha
  have none_b : b.requested = none := by simpa [Source.isExplicit] using hb
  rw [Source.token, Source.token, Source.aliasName, Source.aliasName, none_a, none_b, entity]

/-- Where tokens differ, an entity has at most one source without an alias of its own. -/
theorem Distinct.length_implicitOf {s : Scope} (h : s.Distinct c) (entity : EntityType) :
    (s.implicitOf entity).length ≤ 1 := by
  have distinct : (s.implicitOf entity).Pairwise
      fun a b => Text.sameName (a.token c) (b.token c) = false :=
    (h.filter _).filter _
  have implicit : ∀ b ∈ s.implicitOf entity, b.entity = entity ∧ b.isExplicit = false := by
    intro b hb
    simp only [implicitOf, List.mem_filter, mem_sourcesOf, Bool.not_eq_true'] at hb
    exact ⟨hb.1.2, hb.2⟩
  match hl : s.implicitOf entity with
  | [] => simp
  | [_] => simp
  | a :: b :: rest =>
    rw [hl] at distinct implicit
    have ha := implicit a (by simp)
    have hb := implicit b (by simp)
    have same : a.token c = b.token c :=
      token_eq_of_implicit (ha.1.trans hb.1.symm) ha.2 hb.2
    have differ := List.rel_of_pairwise_cons distinct (List.mem_cons_self (l := rest))
    rw [same, Text.sameName_refl] at differ
    cases differ

/-- Where tokens differ, sources with one token, in any case, are one source. -/
theorem Distinct.eq_of_sameName {s : Scope} (h : s.Distinct c) {a b : Source}
    (ha : a ∈ s.sources) (hb : b ∈ s.sources)
    (same : Text.sameName (a.token c) (b.token c) = true) : a = b := by
  by_contra differ
  have symm : Std.Symm fun a b : Source => Text.sameName (a.token c) (b.token c) = false :=
    ⟨fun a b h => Bool.eq_false_iff.mpr fun same =>
      Bool.eq_false_iff.mp h (Text.sameName_symm same)⟩
  have apart := List.Pairwise.forall h ha hb differ
  rw [same] at apart
  cases apart

/-- Where tokens differ, a source is found under its own, in any case. -/
theorem Distinct.byAlias_of_sameName {s : Scope} (h : s.Distinct c) {b : Source}
    (hb : b ∈ s.sources) {aliasName : String}
    (named : Text.sameName (b.token c) aliasName = true) : s.byAlias c aliasName = .ok b := by
  unfold byAlias
  cases found : s.sources.find? fun a => Text.sameName (a.token c) aliasName with
  | none =>
    have missed := List.find?_eq_none.mp found b hb
    rw [named] at missed
    exact absurd rfl missed
  | some a =>
    have also : Text.sameName (a.token c) aliasName = true := by
      simpa using List.find?_some found
    have same := Text.sameName_trans also (Text.sameName_symm named)
    rw [h.eq_of_sameName (List.mem_of_find?_eq_some found) hb same]

theorem Distinct.byAlias_token {s : Scope} (h : s.Distinct c) {b : Source} (hb : b ∈ s.sources) :
    s.byAlias c (b.token c) = .ok b :=
  h.byAlias_of_sameName hb (Text.sameName_refl _)

/-- A source that can be added has a token of its own. -/
theorem Distinct.bind {s t : Scope} {new : Source} (h : s.Distinct c)
    (added : s.bind c new = .ok t) : t.Distinct c := by
  have free : ∀ a ∈ s.sources, Text.sameName (a.token c) (new.token c) = false := by
    unfold Scope.bind at added
    split at added
    · cases added
    · next none => simpa using none
  rw [Distinct, sources_bind added, List.pairwise_append]
  refine ⟨h, List.pairwise_singleton _ _, fun a ha b hb => ?_⟩
  rw [List.mem_singleton.mp hb]
  exact free a ha

end Scope

/-! ## What a call does to the sources -/

namespace Query

/-- The same sources and joins. -/
structure SameSources (q t : Query c) : Prop where
  root : t.root = q.root
  joined : t.joined = q.joined
  joins : t.joins = q.joins

theorem SameSources.refl (q : Query c) : SameSources q q := ⟨rfl, rfl, rfl⟩

theorem SameSources.trans {q t u : Query c} (h : SameSources q t) (k : SameSources t u) :
    SameSources q u :=
  ⟨k.root.trans h.root, k.joined.trans h.joined, k.joins.trans h.joins⟩

/-- The query with one more join, of a new source. -/
def withJoin (q : Query c) (new : Source) (form : JoinForm) : Query c :=
  { q with joined := q.joined ++ [new], joins := q.joins ++ [⟨new, form⟩] }

/-- The sources stay, or one with a token of its own is joined. -/
def SourcesStep (q t : Query c) : Prop :=
  SameSources q t ∨
    ∃ new form scope, q.scope.bind c new = .ok scope ∧ t = q.withJoin new form

/-- A step behind a new source that writes its join, or takes the source back. -/
theorem moves_bind_source {new : Source} {f : Builder c Unit}
    (h : ∀ q, (ending f (q.withSource new)).2 = q ∨
      ∃ form, (ending f (q.withSource new)).2 = q.withJoin new form) :
    Moves SourcesStep (do bind new; f) := by
  intro q
  rw [ending_bind]
  cases hs : q.scope.bind c new with
  | error reason =>
    rw [ending_bind_error hs]
    exact .inl (.refl q)
  | ok scope =>
    rw [ending_bind_ok hs]
    change SourcesStep q (ending f (q.withSource new)).2
    obtain same | ⟨form, joined⟩ := h q
    · rw [same]
      exact .inl (.refl q)
    · exact .inr ⟨new, form, scope, hs, joined⟩

theorem moves_join (env : Environment) (kind : JoinKind) (new : Source) (on : Expr) :
    Moves SourcesStep (join env kind new on : Builder c Unit) := by
  refine moves_bind_source fun q => ?_
  rw [ending_get_bind]
  split
  · exact .inr ⟨_, rfl⟩
  · rw [ending_unbind_throw]
    exact .inl rfl

theorem moves_crossJoin (new : Source) :
    Moves SourcesStep (crossJoin new : Builder c Unit) :=
  moves_bind_source fun _ => .inr ⟨.cross, rfl⟩

theorem moves_joinByKey (kind : JoinKind) (new : Source) :
    Moves SourcesStep (joinByKey kind new : Builder c Unit) := by
  intro q
  rw [joinByKey, ending_get_bind]
  refine moves_bind_source (fun q' => ?_) q
  split
  · exact .inr ⟨_, rfl⟩
  · rw [ending_unbind_throw]
    exact .inl rfl

theorem moves_customJoin (new : Source) (sql : String) :
    Moves SourcesStep (customJoin new sql : Builder c Unit) :=
  moves_bind_source fun _ => .inr ⟨.custom sql, rfl⟩

theorem Moves.sameSources {x : Builder c Unit} (h : Moves SameSources x) :
    Moves SourcesStep x :=
  fun q => .inl (h q)

/-- A change elsewhere in the query. -/
theorem moves_elsewhere {f : Query c → Query c} (h : ∀ q, SameSources q (f q)) :
    Moves SameSources (modify f : Builder c Unit) :=
  moves_modify h

theorem moves_addFilter (op : Connective) (condition : Fragment) :
    Moves SameSources (addFilter op condition : Builder c Unit) :=
  moves_elsewhere fun _ => ⟨rfl, rfl, rfl⟩

/-- An expression is compiled, and then the query changes elsewhere. -/
theorem moves_compile_bind {env : Environment} {position : Position} {e : Expr}
    {f : Fragment → Builder c Unit} (h : ∀ fragment, Moves SameSources (f fragment)) :
    Moves SourcesStep (compile env position e >>= f) :=
  Moves.sameSources (moves_bind .trans ((reads_compile env position e).moves .refl) h)

/-- A condition is written by hand. -/
theorem moves_lift_bind {r : Except QueryError Fragment} :
    Moves SourcesStep (do addFilter .and (← r) : Builder c Unit) :=
  Moves.sameSources (moves_bind .trans ((reads_lift r).moves .refl) (moves_addFilter .and))

theorem moves_select (env : Environment) (distinct : Bool) (items : List Expr) :
    Moves SourcesStep (Call.run env (.select distinct items) : Builder c Unit) := by
  intro q
  rw [Call.run, ending_get_bind]
  split
  · exact .inl ⟨rfl, rfl, rfl⟩
  · exact .inl (.refl q)

end Query

namespace Call

open Query

/-- **All that a call can do to the sources**: nothing, also where it fails, or one more join. -/
theorem moves_run (env : Environment) (call : Call) :
    Moves SourcesStep (call.run env : Builder c Unit) := by
  cases call with
  | join kind new on => exact moves_join env kind new on
  | crossJoin new => exact moves_crossJoin new
  | joinByKey kind new => exact moves_joinByKey kind new
  | customJoin new sql => exact moves_customJoin new sql
  | filter op condition => exact moves_compile_bind (moves_addFilter op)
  | filterRaw sql params => exact moves_lift_bind
  | filterNamed sql params => exact moves_lift_bind
  | filterExists negated query => exact moves_compile_bind (moves_addFilter .and)
  | groupBy key => exact moves_compile_bind fun _ => moves_elsewhere fun _ => ⟨rfl, rfl, rfl⟩
  | having condition =>
    exact moves_compile_bind fun _ => moves_elsewhere fun _ => ⟨rfl, rfl, rfl⟩
  | orderBy item => exact moves_compile_bind fun _ => moves_elsewhere fun _ => ⟨rfl, rfl, rfl⟩
  | thenBy item => exact moves_compile_bind fun _ => moves_elsewhere fun _ => ⟨rfl, rfl, rfl⟩
  | select distinct items => exact moves_select env distinct items
  | clearFilter | clearOrder | selectRaw sql | limit rows | skip rows =>
    exact Moves.sameSources (moves_elsewhere fun _ => ⟨rfl, rfl, rfl⟩)

end Call

/-! ## What every run keeps -/

/-- The joins are those of the sources after the root, and no two sources have one token. -/
structure Query.Aligned (q : Query c) : Prop where
  joins : q.joins.map Join.source = q.joined
  distinct : q.scope.Distinct c

theorem Query.aligned_ofRoot (d : Dialect) (root : Source) : (ofRoot d root : Query c).Aligned :=
  ⟨rfl, List.pairwise_singleton _ root⟩

theorem Query.Aligned.step {q t : Query c} (h : q.Aligned) (moved : SourcesStep q t) :
    t.Aligned := by
  obtain same | ⟨new, form, scope, added, rfl⟩ := moved
  · refine ⟨by rw [same.joins, same.joined, h.joins], ?_⟩
    rw [Query.scope, same.root, same.joined]
    exact h.distinct
  · have sources : (q.withJoin new form).scope = scope := by
      have last := Scope.sources_bind added
      cases scope
      simp_all [withJoin, Query.scope]
    refine ⟨by simp [withJoin, h.joins], ?_⟩
    rw [sources]
    exact h.distinct.bind added

/-- A call keeps sources and joins together, whether it fails or not. -/
theorem Query.aligned_apply {q : Query c} (h : q.Aligned) (env : Environment) (call : Call) :
    (call.apply env q).2.Aligned :=
  h.step (Call.moves_run env call q)

theorem Query.aligned_run {q : Query c} (h : q.Aligned) (calls : Calls) :
    (calls.run q).2.Aligned := by
  induction calls generalizing q with
  | nil => exact h
  | cons call rest ih => exact ih (aligned_apply h call.1 call.2)

/-- A join and the source at its place have one entity, one alias and one text. -/
structure Query.Matches (q : Query c) (j : Join) (b : Source) : Prop where
  entity : b.entity = j.source.entity
  aliasName : b.aliasName c = j.source.aliasName c
  tableReference : b.tableReference c q.dialect = j.source.tableReference c q.dialect

/-- **The sources of every query that is built from a root**, by whichever calls, successful or
failing: there is one source more than joins, and those after the root are the joins' in order;
tokens differ in any case, so a source is found under its own; an entity has at most one source
without an alias of its own; and looking an entity up ends as its sources say. -/
theorem sources_of_run (calls : Calls) (d : Dialect) (root : Source) :
    let q : Query c := (calls.run (.ofRoot d root)).2
    q.scope.sources.length = q.joins.length + 1 ∧
      (∀ i j, q.joins[i]? = some j → ∃ b, q.scope.sources[i + 1]? = some b ∧ q.Matches j b) ∧
      q.scope.Distinct c ∧
      (∀ b ∈ q.scope.sources, q.scope.byAlias c (b.token c) = .ok b) ∧
      (∀ entity, (q.scope.implicitOf entity).length ≤ 1) ∧
      ∀ entity, q.scope.Resolves entity := by
  intro q
  have aligned : q.Aligned := Query.aligned_run (Query.aligned_ofRoot d root) calls
  have implicit := aligned.distinct.length_implicitOf
  refine ⟨?_, ?_, aligned.distinct, fun b hb => aligned.distinct.byAlias_token hb, implicit,
    fun entity => Scope.resolves_of_implicit (implicit entity)⟩
  · simp [Query.scope, ← aligned.joins]
  · intro i j hj
    have source : q.scope.sources[i + 1]? = some j.source := by
      simp [Query.scope, ← aligned.joins, hj]
    exact ⟨j.source, source, rfl, rfl, rfl⟩

end RowGraph
