import RowGraph.Proofs.Compile.Placement
import RowGraph.Proofs.Compile.SourceNames
import RowGraph.Proofs.Query.Sources
import RowGraph.Sample

/-!
# Conditions of joins

In the condition of a join a column that names only its entity belongs to the source that the join
adds, unless the query has another source of that entity. Everywhere else it is looked up among all
sources. The two rules never differ: where the first one applies, the lookup finds the same source.

The first rule compares tokens letter by letter, while a source is only refused for a token that is
taken in some case. So "no other source of the entity" is "no source of the entity with another
token", and it takes the history of the sources to see that the latter leaves one source alone.

Results:
* `Scope.Reachable`: the sources that come about by adding one after the other.
* `Scope.Reachable.distinct`: their tokens differ, in any case.
* `sourceOf_eq_forEntity`: a join's own source is what the lookup finds.
* **`compile_inJoin`**: conditions of joins are compiled like all others.
-/

namespace RowGraph

variable {c : Catalog}

namespace Scope

/-- The sources that come about from none, or from a root, by adding one after the other. One that
was added can be taken back, as it is when its join cannot be compiled. -/
inductive Reachable (c : Catalog) : Scope → Prop
  | empty : Reachable c .empty
  | root (source : Source) : Reachable c ⟨[source]⟩
  | bind {s t : Scope} {new : Source} (h : Reachable c s) (added : s.bind c new = .ok t) :
    Reachable c t
  | unbindLast {s : Scope} (h : Reachable c s) : Reachable c s.unbindLast

theorem Distinct.unbindLast {s : Scope} (h : s.Distinct c) : s.unbindLast.Distinct c :=
  List.Pairwise.sublist (List.dropLast_sublist s.sources) h

/-- No two of the sources have one token, in any case. -/
theorem Reachable.distinct {s : Scope} (h : s.Reachable c) : s.Distinct c := by
  induction h with
  | empty => exact List.Pairwise.nil
  | root source => exact List.pairwise_singleton _ source
  | bind _ added ih => exact ih.bind added
  | unbindLast _ ih => exact ih.unbindLast

/-- A source is looked up by its entity if all sources of the entity have its token. -/
theorem Distinct.forEntity_of_token {s : Scope} (h : s.Distinct c) {own : Source}
    (mem : own ∈ s.sources)
    (only : ∀ b ∈ s.sources, b.entity = own.entity → b.token c = own.token c) :
    s.forEntity own.entity = .ok own := by
  have all : ∀ b ∈ s.sourcesOf own.entity, b = own := by
    intro b hb
    obtain ⟨hb, entity⟩ := mem_sourcesOf.mp hb
    refine h.eq_of_sameName hb mem ?_
    rw [only b hb entity]
    exact Text.sameName_refl _
  have differ : (s.sourcesOf own.entity).Pairwise
      fun a b => Text.sameName (a.token c) (b.token c) = false :=
    h.filter _
  have present : own ∈ s.sourcesOf own.entity := mem_sourcesOf.mpr ⟨mem, rfl⟩
  have single : s.sourcesOf own.entity = [own] := by
    match hs : s.sourcesOf own.entity with
    | [] => simp [hs] at present
    | [b] => rw [all b (by simp [hs])]
    | a :: b :: rest =>
      rw [hs] at differ
      have taken := List.rel_of_pairwise_cons differ (List.mem_cons_self (l := rest))
      rw [all a (by simp [hs]), all b (by simp [hs]), Text.sameName_refl] at taken
      cases taken
  rw [forEntity_eq, single]

end Scope

namespace Compiler

variable {t : Compiler}

/-- **The rule for joins finds what the lookup among all sources finds.** -/
theorem sourceOf_eq_forEntity (distinct : t.scope.Distinct t.catalog)
    (mem : ∀ own, t.target = some own → own ∈ t.scope.sources) (entity : EntityType) :
    t.sourceOf entity = t.scope.forEntity entity := by
  unfold sourceOf
  cases joined : t.target with
  | none => rfl
  | some own =>
    dsimp only
    split
    · next first =>
      simp only [Bool.and_eq_true, decide_eq_true_eq, Bool.not_eq_true'] at first
      obtain ⟨rfl, once⟩ := first
      have only := (isBoundTwice_eq_false_iff t own).mp once
      exact (distinct.forEntity_of_token (mem own joined) only).symm
    · rfl

/-- The compiler for a join's condition finds what the compiler for other clauses finds. -/
theorem leadsAlike_inJoin {own : Source} (plain : t.target = none)
    (distinct : t.scope.Distinct t.catalog) (mem : own ∈ t.scope.sources)
    (names : List SourceName) : t.LeadsAlike t.scope (some own) names := by
  intro name _
  refine ⟨rfl, ?_⟩
  rintro entity rfl
  rw [sourceOf_of_no_target plain]
  refine sourceOf_eq_forEntity (t := t.elsewhere t.scope (some own)) distinct ?_ entity
  intro first target
  obtain rfl : own = first := Option.some.inj target
  exact mem

/-- **Conditions of joins are compiled like all others.** Over sources that were added one after the
other, whichever of them is a join's own: every expression in every clause, every item and every
projection as a whole has the result that it has without regard to the join, and reads the same
captured values on the way. -/
theorem compile_inJoin (c : Catalog) (d : Dialect) (r : Readings) {s : Scope}
    (reached : s.Reachable c) {own : Source} (mem : own ∈ s.sources) :
    let inJoin : Compiler := ⟨c, d, s, some own, r⟩
    let plain : Compiler := ⟨c, d, s, none, r⟩
    (∀ position e, inJoin.compile position e = plain.compile position e) ∧
      (∀ e, inJoin.projectionItems e = plain.projectionItems e) ∧
      ∀ items, Projection.compile inJoin items = Projection.compile plain items := by
  intro inJoin plain
  have elsewhere : inJoin = plain.elsewhere s (some own) := rfl
  have alike : ∀ names, plain.LeadsAlike s (some own) names :=
    leadsAlike_inJoin (t := plain) rfl reached.distinct mem
  rw [elsewhere]
  exact ⟨fun position e => compile_elsewhere position (alike e.sourceNames),
    fun e => projectionItems_elsewhere (alike e.sourceNames),
    fun items => projection_elsewhere (alike (Expr.sourceNamesOf items))⟩

end Compiler

namespace Sample

/-- The teams that a join adds to the teams. -/
def otherTeams : Source := ⟨type "Team", some "other"⟩

/-- The teams, joined with other teams. -/
def teamsTwice : Scope := ⟨[⟨type "Team", none⟩, otherTeams]⟩

theorem reachable_teamsTwice : teamsTwice.Reachable catalog := by
  have added : Scope.bind catalog otherTeams ⟨[⟨type "Team", none⟩]⟩ = .ok teamsTwice := rfl
  exact .bind (.root ⟨type "Team", none⟩) added

/-- A condition on a column of teams, without saying which. -/
def seventhTeam : Expr := .compare .eq (.column ⟨type "Team", "Id"⟩) (.captured 0)

/-- Where teams are joined to themselves, a column of teams in the condition belongs to the teams
without an alias, as it does in a filter, and not to those that the join adds. -/
theorem condition_teamsTwice :
    let inJoin : Compiler := ⟨catalog, .sqlite, teamsTwice, some otherTeams, fun _ _ => .int 7⟩
    let plain : Compiler := ⟨catalog, .sqlite, teamsTwice, none, fun _ _ => .int 7⟩
    teamsTwice.Reachable catalog ∧ otherTeams ∈ teamsTwice.sources ∧
      (plain.compile .predicate seventhTeam).outcome =
        .ok (.operation (.sql "\"Team\".\"Id\"") "=" (.param (.int 7))) ∧
      inJoin.compile .predicate seventhTeam = plain.compile .predicate seventhTeam := by
  have mem : otherTeams ∈ teamsTwice.sources := by simp [teamsTwice]
  have alike :=
    Compiler.compile_inJoin catalog .sqlite (fun _ _ => .int 7) reachable_teamsTwice mem
  exact ⟨reachable_teamsTwice, mem, rfl, alike.1 .predicate seventhTeam⟩

end Sample

end RowGraph
