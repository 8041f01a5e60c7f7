import RowGraph.Query.Statements

/-!
# What the clauses of a query mean

A `Reading` is an engine over one content of its tables. It says what those parts mean that a query
holds as text: whether a condition is true, the value of a key to group by, the order. How the
clauses work together is the usual meaning of a select. The sources are combined join by join, and
combinations are left out that the filter does not hold for. What is left is put into groups, and
groups are left out that the condition on groups does not hold for. The page is cut out of what
remains, in order. A query of all columns of its root returns the root's row of one combination of
each group.

Rows are told apart also where their values are equal: `Reading.cell` reads what a row has in its
columns.

Results:
* `mem_rowsOf_of_mem_bodyRows`: whatever is joined, rows of the root are rows of its table.
* `mem_selected_of_unpaged`: without a page, the rows that a query returns are those of its body.
* `mem_bodyRows_of_ungrouped`: without groups, the rows of the body are those of its combinations.
-/

namespace RowGraph

/-- A row of each source so far; none stands for the nulls of a source without a partner. -/
structure Combination (R : Type) where
  source : Source
  root : Option R
  others : List (Source × Option R)

/-- The combination with a row of one more source. -/
def Combination.add {R : Type} (x : Combination R) (new : Source) (r : Option R) : Combination R :=
  { x with others := x.others ++ [(new, r)] }

@[simp] theorem Combination.root_add {R : Type} (x : Combination R) (new : Source)
    (r : Option R) : (x.add new r).root = x.root := rfl

/-- How an engine reads the parts of statements over one content of its tables. -/
structure Reading (R : Type) where
  /-- The rows of a table, by its name in quotes. -/
  table : String → List R
  /-- What a row has in a column. -/
  cell : R → String → Value
  /-- Whether values are equal for the engine, as no null is to anything. -/
  equal : Value → Value → Bool
  /-- Whether a condition is true of a combination. -/
  holds : Fragment → Combination R → Bool
  /-- The value of a key to group by. -/
  groupKey : Fragment → Combination R → Value
  /-- Whether a condition is true of a group. -/
  holdsOf : Fragment → List (Combination R) → Bool
  /-- The combination whose columns stand for a group. -/
  representative : List (Combination R) → Option (Combination R)
  /-- What a join written by hand makes of the combinations so far. -/
  byHand : String → Source → List (Combination R) → List (Combination R)
  /-- Groups in the order that is asked for, or in the engine's own if none is. -/
  sort : List Fragment → List (List (Combination R)) → List (List (Combination R))
  /-- A group is represented by one of its combinations. -/
  representative_mem : ∀ {group x}, representative group = some x → x ∈ group
  /-- A group of one combination is represented by it. -/
  representative_singleton : ∀ x, representative [x] = some x
  /-- A join brings no further rows of the root. -/
  root_byHand : ∀ {sql new xs y}, y ∈ byHand sql new xs →
    ∀ r, y.root = some r → ∃ x ∈ xs, x.root = some r
  /-- An order leaves nothing out. -/
  sort_perm : ∀ order groups, (sort order groups).Perm groups

namespace Reading

variable {R : Type} (M : Reading R) (c : Catalog) (d : Dialect)

/-! ## Joins -/

/-- The rows of a source's table. -/
def rowsOf (s : Source) : List R := M.table (s.quotedTable c d)

/-- What a combination goes on to where a condition holds. -/
def partners (new : Source) (condition : Fragment) (x : Combination R) : List (Combination R) :=
  ((M.rowsOf c d new).map fun r => x.add new (some r)).filter (M.holds condition)

/-- The same, with nulls where it holds for no row. -/
def partnersOrNull (new : Source) (condition : Fragment) (x : Combination R) :
    List (Combination R) :=
  match M.partners c d new condition x with
  | [] => [x.add new none]
  | several => several

/-- The rows of the new source that nothing goes on to, with nulls for the sources before it. -/
def newcomers (root : Source) (before : List Source) (new : Source) (condition : Fragment)
    (xs : List (Combination R)) : List (Combination R) :=
  let lonely (r : R) := xs.all fun x => !M.holds condition (x.add new (some r))
  ((M.rowsOf c d new).filter lonely).map fun r =>
    ⟨root, none, before.map (·, none) ++ [(new, some r)]⟩

/-- What a join makes of the combinations of the sources before it. -/
def join (root : Source) (before : List Source) (xs : List (Combination R)) (j : Join) :
    List (Combination R) :=
  match j.form with
  | .on .inner f => xs.flatMap (M.partners c d j.source f)
  | .on .left f => xs.flatMap (M.partnersOrNull c d j.source f)
  | .on .right f =>
    xs.flatMap (M.partners c d j.source f) ++ M.newcomers c d root before j.source f xs
  | .on .full f =>
    xs.flatMap (M.partnersOrNull c d j.source f) ++ M.newcomers c d root before j.source f xs
  | .cross => xs.flatMap fun x => (M.rowsOf c d j.source).map fun r => x.add j.source (some r)
  | .custom sql => M.byHand sql j.source xs

/-- One join after the other. -/
def joinAll (root : Source) : (before : List Source) → List (Combination R) → List Join →
    List (Combination R)
  | _, xs, [] => xs
  | before, xs, j :: rest =>
    joinAll root (before ++ [j.source]) (M.join c d root before xs j) rest

variable {M c d}

theorem root_of_mem_partners {new : Source} {f : Fragment} {x y : Combination R}
    (h : y ∈ M.partners c d new f x) : y.root = x.root := by
  obtain ⟨made, -⟩ := List.mem_filter.mp h
  obtain ⟨r, -, rfl⟩ := List.mem_map.mp made
  rfl

theorem root_of_mem_partnersOrNull {new : Source} {f : Fragment} {x y : Combination R}
    (h : y ∈ M.partnersOrNull c d new f x) : y.root = x.root := by
  unfold partnersOrNull at h
  split at h
  · rw [List.mem_singleton.mp h, Combination.root_add]
  · exact root_of_mem_partners h

theorem root_of_mem_newcomers {root new : Source} {before : List Source} {f : Fragment}
    {xs : List (Combination R)} {y : Combination R}
    (h : y ∈ M.newcomers c d root before new f xs) : y.root = none := by
  obtain ⟨r, -, rfl⟩ := List.mem_map.mp h
  rfl

/-- A join keeps rows of the root, or puts nulls in their place. -/
theorem root_join {root : Source} {before : List Source} {xs : List (Combination R)} {j : Join}
    {y : Combination R} (h : y ∈ M.join c d root before xs j) {r : R} (hr : y.root = some r) :
    ∃ x ∈ xs, x.root = some r := by
  have kept {f : Combination R → List (Combination R)} (hf : ∀ x, ∀ y ∈ f x, y.root = x.root)
      (h : y ∈ xs.flatMap f) : ∃ x ∈ xs, x.root = some r := by
    obtain ⟨x, hx, hy⟩ := List.mem_flatMap.mp h
    exact ⟨x, hx, (hf x y hy).symm.trans hr⟩
  have new {f : Fragment} (h : y ∈ M.newcomers c d root before j.source f xs) :
      ∃ x ∈ xs, x.root = some r := by
    rw [root_of_mem_newcomers h] at hr
    cases hr
  unfold join at h
  split at h
  · exact kept (fun _ _ => root_of_mem_partners) h
  · exact kept (fun _ _ => root_of_mem_partnersOrNull) h
  · obtain old | h := List.mem_append.mp h
    · exact kept (fun _ _ => root_of_mem_partners) old
    · exact new h
  · obtain old | h := List.mem_append.mp h
    · exact kept (fun _ _ => root_of_mem_partnersOrNull) old
    · exact new h
  · refine kept (fun x y hy => ?_) h
    obtain ⟨r, -, rfl⟩ := List.mem_map.mp hy
    rfl
  · exact M.root_byHand h r hr

theorem root_joinAll {root : Source} {joins : List Join} {before : List Source}
    {xs : List (Combination R)} {y : Combination R} (h : y ∈ M.joinAll c d root before xs joins)
    {r : R} (hr : y.root = some r) : ∃ x ∈ xs, x.root = some r := by
  induction joins generalizing before xs with
  | nil => exact ⟨y, h, hr⟩
  | cons j rest ih =>
    obtain ⟨x, hx, same⟩ := ih h
    exact root_join hx same

end Reading

/-! ## Clauses -/

/-- The rows of a page. -/
def pageOf {α : Type} (offset rows : Option Nat) (all : List α) : List α :=
  match rows with
  | some n => (all.drop (offset.getD 0)).take n
  | none => all.drop (offset.getD 0)

namespace Reading

variable {c : Catalog} {R : Type} (M : Reading R) (q : Query c)

/-- The combinations of the sources. -/
def joined : List (Combination R) :=
  M.joinAll c q.dialect q.root [] ((M.rowsOf c q.dialect q.root).map fun r => ⟨q.root, some r, []⟩)
    q.joins

/-- The combinations that the filter holds for. -/
def combinations : List (Combination R) :=
  match q.filter.fragment with
  | some f => (M.joined q).filter (M.holds f)
  | none => M.joined q

/-- Combinations with the same keys put together. -/
def groupBy (keys : List Fragment) (xs : List (Combination R)) : List (List (Combination R)) :=
  let keysOf (x : Combination R) := keys.map (M.groupKey · x)
  (xs.map keysOf).eraseDups.map fun k => xs.filter (keysOf · = k)

/-- The combinations in groups: by the keys, all in one if there is only a condition on groups, else
each one by itself. -/
def allGroups : List (List (Combination R)) :=
  if q.groupBy ≠ [] then M.groupBy q.groupBy (M.combinations q)
  else if q.having.fragment.isSome then [M.combinations q]
  else (M.combinations q).map ([·])

/-- The groups that the query returns a row for. -/
def groups : List (List (Combination R)) :=
  match q.having.fragment with
  | some f => (M.allGroups q).filter (M.holdsOf f)
  | none => M.allGroups q

/-- The root's rows that stand for groups. -/
def roots (groups : List (List (Combination R))) : List R :=
  groups.filterMap fun group => (M.representative group).bind Combination.root

/-- The root's rows that the body of the query has. -/
def bodyRows : List R := M.roots (M.groups q)

/-- The root's rows that the query returns, in order. -/
def selected : List R :=
  M.roots (pageOf q.offset q.rows (M.sort q.orderBy (M.groups q)))

variable {M q}

/-! ## Which rows there are -/

theorem mem_roots {groups : List (List (Combination R))} {r : R} :
    r ∈ M.roots groups ↔
      ∃ group ∈ groups, ∃ x, M.representative group = some x ∧ x.root = some r := by
  simp [roots, Option.bind_eq_some_iff]

theorem mem_joined_of_mem {x : Combination R} (h : x ∈ M.combinations q) : x ∈ M.joined q := by
  unfold combinations at h
  split at h
  · exact (List.mem_filter.mp h).1
  · exact h

/-- Groups are groups of combinations. -/
theorem mem_combinations_of_mem {group : List (Combination R)} (hg : group ∈ M.groups q)
    {x : Combination R} (hx : x ∈ group) : x ∈ M.combinations q := by
  have all : group ∈ M.allGroups q := by
    unfold groups at hg
    split at hg
    · exact (List.mem_filter.mp hg).1
    · exact hg
  unfold allGroups at all
  split at all
  · obtain ⟨k, -, rfl⟩ := List.mem_map.mp all
    exact (List.mem_filter.mp hx).1
  · split at all
    · rwa [List.mem_singleton.mp all] at hx
    · obtain ⟨y, hy, rfl⟩ := List.mem_map.mp all
      rwa [List.mem_singleton.mp hx]

/-- Whatever is joined, the rows of the root are rows of its table. -/
theorem mem_rowsOf_of_mem_bodyRows {r : R} (h : r ∈ M.bodyRows q) :
    r ∈ M.rowsOf c q.dialect q.root := by
  obtain ⟨group, hg, x, represented, hr⟩ := mem_roots.mp h
  have hx := mem_joined_of_mem (mem_combinations_of_mem hg (M.representative_mem represented))
  obtain ⟨y, hy, same⟩ := root_joinAll hx hr
  obtain ⟨s, hs, rfl⟩ := List.mem_map.mp hy
  cases same
  exact hs

/-- Without a page, the rows that a query returns are those of its body. -/
theorem mem_selected_of_unpaged (offset : q.offset = none) (rows : q.rows = none) {r : R} :
    r ∈ M.selected q ↔ r ∈ M.bodyRows q := by
  have perm : (pageOf q.offset q.rows (M.sort q.orderBy (M.groups q))).Perm (M.groups q) := by
    rw [offset, rows]
    exact M.sort_perm _ _
  exact (perm.filterMap _).mem_iff

/-- Without groups, the rows of the body are those of its combinations. -/
theorem mem_bodyRows_of_ungrouped (keys : q.groupBy = []) (having : q.having.fragment = none)
    {r : R} : r ∈ M.bodyRows q ↔ ∃ x ∈ M.combinations q, x.root = some r := by
  have single : M.groups q = (M.combinations q).map ([·]) := by
    simp [groups, allGroups, keys, having]
  rw [bodyRows, mem_roots, single]
  constructor
  · rintro ⟨group, hg, x, represented, hr⟩
    obtain ⟨y, hy, rfl⟩ := List.mem_map.mp hg
    obtain rfl := List.mem_singleton.mp (M.representative_mem represented)
    exact ⟨x, hy, hr⟩
  · rintro ⟨x, hx, hr⟩
    exact ⟨[x], List.mem_map_of_mem hx, x, M.representative_singleton x, hr⟩

end Reading

end RowGraph
