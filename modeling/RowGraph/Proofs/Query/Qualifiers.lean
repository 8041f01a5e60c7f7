import Mathlib.Data.List.Pairwise
import RowGraph.Proofs.Compile.Readable
import RowGraph.Proofs.Query.Sources

/-!
# What stands before the columns of a source

Sources are told apart by their tokens, columns by their qualifiers. A qualifier ends with the token
it stands for, so different tokens have different qualifiers, except where a dialect without schemas
makes the schema the beginning of the table's name. The merged name is compared with no token: it
can be the alias of another source, or the merged name of another table.

Results:
* `qualifier_path_token`: a qualifier is a path of names that ends with the token.
* `qualify_eq_iff`: qualified columns are read back as qualifier and column.
* **`qualifiers_of_run`**: in every query, sources share a qualifier only under a merged name, and
  so a qualified column is one column of one source otherwise.
* `Sample.merged_qualifiers`: a log and its users under one qualifier.
-/

namespace RowGraph

variable {c : Catalog}

namespace Source

/-- The name of a source where the schema is the beginning of the table's name. -/
def mergedName (c : Catalog) (s : Source) : String :=
  match s.aliasName c, (c.entity s.entity).schema with
  | some aliasName, _ => aliasName
  | none, some schema => schema ++ "_" ++ (c.entity s.entity).table
  | none, none => (c.entity s.entity).table

/-- Whether the name has a schema in it: the table has a schema, and the source no alias. -/
def IsMerged (c : Catalog) (s : Source) : Prop :=
  s.aliasName c = none ∧ (c.entity s.entity).schema ≠ none

instance (c : Catalog) (s : Source) : Decidable (s.IsMerged c) :=
  inferInstanceAs (Decidable (_ ∧ _))

/-- Without schemas a qualifier is one name. -/
theorem qualifier_sqlite (c : Catalog) (s : Source) :
    s.qualifier c .sqlite = Dialect.sqlite.quoteName (s.mergedName c) := by
  unfold qualifier mergedName quotedTable
  cases s.aliasName c with
  | some aliasName => rfl
  | none => cases (c.entity s.entity).schema <;> rfl

/-- The names of a qualifier end with the token, unless schema and table are one name. -/
theorem qualifier_path_token {d : Dialect} {s : Source} (h : ¬ (d = .sqlite ∧ s.IsMerged c)) :
    ∃ first others, signsOf (s.qualifier c d) = d.path first others ∧
      (first :: others).getLast? = some (s.token c) := by
  unfold qualifier token
  cases ha : s.aliasName c with
  | some aliasName => exact ⟨aliasName, [], d.path_single aliasName, rfl⟩
  | none =>
    cases hs : (c.entity s.entity).schema with
    | none =>
      rw [quotedTable, hs]
      exact ⟨_, [], d.path_single _, rfl⟩
    | some schema =>
      have schemas : d ≠ .sqlite := fun hd => h ⟨hd, ha, by simp [hs]⟩
      have two : s.quotedTable c d =
          d.quoteName schema ++ "." ++ d.quoteName (c.entity s.entity).table := by
        rw [quotedTable, hs]
        cases d with
        | sqlite => exact absurd rfl schemas
        | _ => rfl
      exact ⟨schema, [_], by rw [two, Dialect.path_concat (d.path_single schema)]; rfl, rfl⟩

/-- Sources without merged names that share a qualifier share their token. -/
theorem token_eq_of_qualifier_eq {d : Dialect} {a b : Source}
    (ha : ¬ (d = .sqlite ∧ a.IsMerged c)) (hb : ¬ (d = .sqlite ∧ b.IsMerged c))
    (h : a.qualifier c d = b.qualifier c d) : a.token c = b.token c := by
  obtain ⟨first, others, path, last⟩ := qualifier_path_token ha
  obtain ⟨first', others', path', last'⟩ := qualifier_path_token hb
  have paths : d.path first others ++ [] = d.path first' others' ++ [] := by
    rw [← path, ← path', h]
  obtain ⟨⟨rfl, rfl⟩, -⟩ := Dialect.path_inj d.ends_nil d.ends_nil paths
  exact Option.some.inj (last.symm.trans last')

/-- Without schemas, sources share a qualifier if their merged names are one. -/
theorem qualifier_sqlite_eq_iff {a b : Source} :
    a.qualifier c .sqlite = b.qualifier c .sqlite ↔ a.mergedName c = b.mergedName c := by
  rw [qualifier_sqlite, qualifier_sqlite]
  refine ⟨fun h => ?_, congrArg _⟩
  have signs := congrArg (signsOf · ++ []) h
  exact (Dialect.quoteName_inj (Dialect.ends_nil _).2 (Dialect.ends_nil _).2 signs).1

/-- Two sources are written under one name: a dialect without schemas has put a schema into the name
of one of them. -/
def Merge (c : Catalog) (d : Dialect) (a b : Source) : Prop :=
  d = .sqlite ∧ (a.IsMerged c ∨ b.IsMerged c) ∧ a.mergedName c = b.mergedName c

instance (c : Catalog) (d : Dialect) (a b : Source) : Decidable (a.Merge c d b) :=
  inferInstanceAs (Decidable (_ ∧ _ ∧ _))

/-- Sources with different tokens share a qualifier only under a merged name. -/
theorem qualifier_eq_iff {d : Dialect} {a b : Source} (tokens : a.token c ≠ b.token c) :
    a.qualifier c d = b.qualifier c d ↔ a.Merge c d b := by
  constructor
  · intro h
    by_cases ha : d = .sqlite ∧ a.IsMerged c
    · obtain ⟨rfl, merged⟩ := ha
      exact ⟨rfl, .inl merged, qualifier_sqlite_eq_iff.mp h⟩
    by_cases hb : d = .sqlite ∧ b.IsMerged c
    · obtain ⟨rfl, merged⟩ := hb
      exact ⟨rfl, .inr merged, qualifier_sqlite_eq_iff.mp h⟩
    exact absurd (token_eq_of_qualifier_eq ha hb h) tokens
  · rintro ⟨rfl, -, names⟩
    exact qualifier_sqlite_eq_iff.mpr names

/-- A qualified column says its qualifier and its column. -/
theorem qualify_eq_iff {d : Dialect} {a b : Source} {x y : String} :
    a.qualify c d x = b.qualify c d y ↔ a.qualifier c d = b.qualifier c d ∧ x = y := by
  constructor
  · intro h
    obtain ⟨first, others, path⟩ := a.qualifier_path c d
    obtain ⟨first', others', path'⟩ := b.qualifier_path c d
    have paths : d.path first (others ++ [x]) ++ [] = d.path first' (others' ++ [y]) ++ [] := by
      rw [← Dialect.path_concat path, ← Dialect.path_concat path']
      exact congrArg (signsOf · ++ []) h
    obtain ⟨⟨rfl, names⟩, -⟩ := Dialect.path_inj d.ends_nil d.ends_nil paths
    obtain ⟨rfl, columns⟩ := List.append_inj' names rfl
    exact ⟨signsOf_inj (path.trans path'.symm), List.singleton_inj.mp columns⟩
  · rintro ⟨qualifiers, rfl⟩
    rw [qualify, qualify, qualifiers]

end Source

/-- In different places there are different tokens. -/
theorem Scope.Distinct.tokens {s : Scope} (h : s.Distinct c) :
    s.sources.Pairwise fun a b => a.token c ≠ b.token c :=
  h.imp fun differ same => by
    rw [same, Text.sameName_refl] at differ
    cases differ

/-- No two sources share a qualifier. -/
def Query.Separate (q : Query c) : Prop :=
  q.scope.sources.Pairwise fun a b => a.qualifier c q.dialect ≠ b.qualifier c q.dialect

instance (q : Query c) : Decidable q.Separate :=
  inferInstanceAs (Decidable (List.Pairwise _ _))

/-- **When sources share a qualifier**, in every query that is built from a root by whichever calls,
successful or failing: two of them do if and only if they are merged under one name, which no
dialect with schemas does, and which no source with an alias or without a schema does to another
such source. A qualified column is one column of one source, unless it is written under a name that
is shared so. -/
theorem qualifiers_of_run (calls : Calls) (d : Dialect) (root : Source) :
    let q : Query c := (calls.run (.ofRoot d root)).2
    q.scope.sources.Pairwise (fun a b =>
        a.qualifier c q.dialect = b.qualifier c q.dialect ↔ a.Merge c q.dialect b) ∧
      (q.Separate ↔ q.scope.sources.Pairwise fun a b => ¬ a.Merge c q.dialect b) ∧
      ∀ a ∈ q.scope.sources, ∀ b ∈ q.scope.sources, ∀ x y,
        a.qualify c q.dialect x = b.qualify c q.dialect y ↔
          x = y ∧ (a = b ∨ a.Merge c q.dialect b) := by
  intro q
  have distinct : q.scope.Distinct c :=
    (Query.aligned_run (Query.aligned_ofRoot d root) calls).distinct
  have shared : q.scope.sources.Pairwise fun a b =>
      a.qualifier c q.dialect = b.qualifier c q.dialect ↔ a.Merge c q.dialect b :=
    distinct.tokens.imp Source.qualifier_eq_iff
  refine ⟨shared, ?_, ?_⟩
  · exact ⟨fun h => (shared.and h).imp fun both merge => both.2 (both.1.mpr merge),
      fun h => (shared.and h).imp fun both same => both.2 (both.1.mp same)⟩
  · intro a ha b hb x y
    rw [Source.qualify_eq_iff, and_comm]
    refine and_congr_right fun _ => ?_
    by_cases same : a = b
    · simp [same]
    · have : Std.Symm fun a b : Source => a.token c ≠ b.token c := ⟨fun _ _ => Ne.symm⟩
      have tokens : a.token c ≠ b.token c := distinct.tokens.forall ha hb same
      rw [Source.qualifier_eq_iff tokens]
      simp [same]

namespace Sample

/-- The log, joined with the users under an alias that is spelled like the log's schema and
table. -/
def logAndUsers (d : Dialect) : List (Except QueryError Unit) × Query catalog :=
  Calls.run [(plainly, .crossJoin ⟨type "TeamUser", some "app_Log"⟩)]
    (.ofRoot d ⟨type "Log", none⟩)

/-- A dialect without schemas writes both under one qualifier, and no call fails; where there are
schemas, the same calls lead to different qualifiers. -/
theorem merged_qualifiers :
    (logAndUsers .sqlite).1 = [.ok ()] ∧ ¬ (logAndUsers .sqlite).2.Separate ∧
      (logAndUsers .sqlite).2.scope.sources.map (·.qualify catalog .sqlite "Id") =
        ["\"app_Log\".\"Id\"", "\"app_Log\".\"Id\""] ∧
      (logAndUsers .postgresql).2.Separate :=
  ⟨rfl, by decide, by decide, by decide⟩

end Sample

end RowGraph
