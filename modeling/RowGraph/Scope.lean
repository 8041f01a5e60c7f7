import RowGraph.Dialect.Basic
import RowGraph.Entity.Basic

/-!
# Sources of a query

A source is a table that a query reads, under an alias if it has one. The token of a source is its
alias, or the name of its table; all sources of a scope have different tokens, in any case. A column
that names only its entity belongs to the one source of that entity, or to the one source among
several that was not given an alias. No alias is ever made up.

Main statements: `mem_of_forEntity` and `mem_of_byAlias` (what is found is in the scope), and
`unbindLast_bind`.

Modelled: `AliasBinding` (`Source`) with `qualify`, and `AliasResolver` (`Scope`) with `bind`,
`for_entity`, `by_alias` and `root`.

Left out: caching: the alias and the quoted table of a source are computed anew each time.
-/

namespace RowGraph

/-- A table of a query. `requested` is the alias it was asked to have. -/
structure Source where
  entity : EntityType
  requested : Option String
deriving DecidableEq, Repr

namespace Source

/-- The alias that was asked for, else the entity's own. -/
def aliasName (c : Catalog) (s : Source) : Option String :=
  s.requested <|> (c.entity s.entity).defaultAlias

/-- The name by which the source is known in its query. -/
def token (c : Catalog) (s : Source) : String :=
  (s.aliasName c).getD (c.entity s.entity).table

/-- Whether the alias was asked for. -/
def isExplicit (s : Source) : Bool := s.requested.isSome

/-- The table in quotes. -/
def quotedTable (c : Catalog) (d : Dialect) (s : Source) : String :=
  d.quoteTable (c.entity s.entity).schema (c.entity s.entity).table

/-- What stands before the columns of the source. -/
def qualifier (c : Catalog) (d : Dialect) (s : Source) : String :=
  match s.aliasName c with
  | some aliasName => d.quoteName aliasName
  | none => s.quotedTable c d

/-- The source as it stands in the list of sources. -/
def tableReference (c : Catalog) (d : Dialect) (s : Source) : String :=
  d.tableReference (s.quotedTable c d) (s.aliasName c)

/-- A column of the source. -/
def qualify (c : Catalog) (d : Dialect) (s : Source) (column : String) : String :=
  s.qualifier c d ++ "." ++ d.quoteName column

end Source

/-- How a name can fail to lead to a source, and how a source can fail to be added. -/
inductive AliasError
  | collision (aliasName entity : String)
  | unbound (entity : String)
  | ambiguous (entity : String)
  | unknownAlias (aliasName : String)
deriving DecidableEq, Repr

/-- The kind of an alias error. -/
def AliasError.kind : AliasError → String
  | .collision _ _ => "Collision"
  | .unbound _ => "Unbound"
  | .ambiguous _ => "Ambiguous"
  | .unknownAlias _ => "UnknownAlias"

/-- The wording of an alias error. -/
def AliasError.message : AliasError → String
  | .collision aliasName entity =>
    "Alias '" ++ aliasName ++ "' is already bound in this query (join '" ++ entity ++
      "' again with an explicit alias)"
  | .unbound entity => "Entity '" ++ entity ++ "' is not part of this query"
  | .ambiguous entity =>
    "Entity '" ++ entity ++
      "' is joined more than once; qualify the column with an alias marker"
  | .unknownAlias aliasName => "Alias '" ++ aliasName ++ "' is not bound in this query"

/-- The sources of a query in the order in which they were added, the root first. -/
structure Scope where
  sources : List Source
deriving DecidableEq, Repr

namespace Scope

/-- No source. -/
def empty : Scope := ⟨[]⟩

/-- The first source. -/
def root? (s : Scope) : Option Source := s.sources.head?

/-- The scope with one more source, whose token has to be new. -/
def bind (c : Catalog) (new : Source) (s : Scope) : Except AliasError Scope :=
  if s.sources.any fun b => Text.sameName (b.token c) (new.token c) then
    .error (.collision (new.token c) (c.entity new.entity).name)
  else .ok ⟨s.sources ++ [new]⟩

/-- The scope without the source that was added last. -/
def unbindLast (s : Scope) : Scope := ⟨s.sources.dropLast⟩

/-- The source of an entity's columns: the only one, or the only one without an alias asked for. -/
def forEntity (s : Scope) (entity : EntityType) : Except AliasError Source :=
  match s.sources.filter (·.entity == entity) with
  | [] => .error (.unbound entity.name)
  | [only] => .ok only
  | several =>
    match several.filter (!·.isExplicit) with
    | [implicit] => .ok implicit
    | _ => .error (.ambiguous entity.name)

/-- The source with this token, in any case. -/
def byAlias (c : Catalog) (s : Scope) (aliasName : String) : Except AliasError Source :=
  match s.sources.find? fun b => Text.sameName (b.token c) aliasName with
  | some b => .ok b
  | none => .error (.unknownAlias aliasName)

/-! ## Laws -/

/-- Adding a source puts it last. -/
theorem sources_bind {c : Catalog} {new : Source} {s t : Scope} (h : s.bind c new = .ok t) :
    t.sources = s.sources ++ [new] := by
  unfold bind at h
  split at h
  · cases h
  · cases h; rfl

/-- Taking away the last source undoes adding it. -/
theorem unbindLast_bind {c : Catalog} {new : Source} {s t : Scope} (h : s.bind c new = .ok t) :
    t.unbindLast = s := by
  simp [unbindLast, sources_bind h]

theorem mem_of_forEntity {s : Scope} {entity : EntityType} {b : Source}
    (h : s.forEntity entity = .ok b) : b ∈ s.sources ∧ b.entity = entity := by
  unfold forEntity at h
  split at h
  · cases h
  · next only hf =>
    cases h
    have : b ∈ s.sources.filter (·.entity == entity) := by simp [hf]
    simpa using this
  · next hf =>
    split at h
    · next hi =>
      cases h
      have : b ∈ (s.sources.filter (·.entity == entity)).filter (!·.isExplicit) := by simp [hi]
      simp only [List.mem_filter, beq_iff_eq] at this
      exact this.1
    · cases h

theorem mem_of_byAlias {c : Catalog} {s : Scope} {aliasName : String} {b : Source}
    (h : s.byAlias c aliasName = .ok b) :
    b ∈ s.sources ∧ Text.sameName (b.token c) aliasName = true := by
  unfold byAlias at h
  split at h
  · next found =>
    cases h
    exact ⟨List.mem_of_find?_eq_some found, by simpa using List.find?_some found⟩
  · cases h

end Scope

end RowGraph
