import Mathlib.Algebra.GroupWithZero.Nat
import Mathlib.Data.List.SplitLengths
import RowGraph.Proofs.Attempt
import RowGraph.Row
import RowGraph.Sample

/-!
# Groups of columns

The items of a projection are put into groups by marks between them, and a row of the projection is
split into parts of as many columns as each group has. Groups can have no column, at the front and
between two marks; only a last group without columns is no part.

Results:
* `groupSizes_intercalate`: the sizes are those of the groups.
* `exists_groups`: items between marks, and what they stand for between the marks of these.
* `exists_cutInto`: columns and values of a row are cut at the same places.
* **`grouped_columns`**: what a projection that is compiled is like, and how its rows are split.
-/

namespace RowGraph

open Attempt

/-- A mark stands between lists without it exactly if there are two of them. -/
theorem mem_intercalate_singleton_iff {α : Type} {mark : α} {groups : List (List α)}
    (h : ∀ g ∈ groups, mark ∉ g) : mark ∈ [mark].intercalate groups ↔ 1 < groups.length := by
  match groups, h with
  | [], _ => simp
  | [g], h => simp [h g List.mem_cons_self]
  | g :: g' :: rest, _ => simp [List.intercalate_cons_cons]

/-- What stands in front of the first list stands in front of all of them. -/
theorem intercalate_append_cons {α : Type} (marks front group : List α) (rest : List (List α)) :
    marks.intercalate ((front ++ group) :: rest) = front ++ marks.intercalate (group :: rest) := by
  cases rest with
  | nil => simp
  | cons next rest => simp [List.intercalate_cons_cons]

namespace ProjectionItem

/-- The columns among the items. -/
def columns (items : List ProjectionItem) : List OutputColumn := items.filterMap column?

@[simp] theorem columns_cons (c : OutputColumn) (items : List ProjectionItem) :
    columns (column c :: items) = c :: columns items := rfl

@[simp] theorem columns_append (items others : List ProjectionItem) :
    columns (items ++ others) = columns items ++ columns others :=
  List.filterMap_append

/-- The groups that are read back: a last one without columns is not. -/
def filled : List (List OutputColumn) → List (List OutputColumn)
  | [] => []
  | [group] => if group.isEmpty then [] else [group]
  | group :: next :: rest => group :: filled (next :: rest)

theorem flatten_filled (groups : List (List OutputColumn)) :
    (filled groups).flatten = groups.flatten := by
  induction groups using filled.induct with
  | case1 => rfl
  | case2 group empty => simp_all [filled]
  | case3 group full => simp [filled, full]
  | case4 group next rest ih => rw [filled, List.flatten_cons, ih, ← List.flatten_cons]

/-- Columns up to a mark are a group. -/
theorem groupSizes_append_tupleEnd {items : List ProjectionItem} (h : tupleEnd ∉ items)
    (current : Nat) (rest : List ProjectionItem) :
    groupSizes current (items ++ tupleEnd :: rest) =
      (current + (columns items).length) :: groupSizes 0 rest := by
  induction items generalizing current with
  | nil => rfl
  | cons item items ih =>
    have others := fun mark => h (List.mem_cons_of_mem item mark)
    cases item with
    | tupleEnd => exact absurd List.mem_cons_self h
    | column c =>
      rw [List.cons_append, groupSizes, ih others, columns_cons, List.length_cons,
        Nat.add_assoc, Nat.add_comm 1]

/-- Columns after the last mark are one if there are any. -/
theorem groupSizes_of_not_mem {items : List ProjectionItem} (h : tupleEnd ∉ items)
    (current : Nat) :
    groupSizes current items =
      if current + (columns items).length = 0 then [] else [current + (columns items).length] := by
  induction items generalizing current with
  | nil => rfl
  | cons item items ih =>
    have others := fun mark => h (List.mem_cons_of_mem item mark)
    cases item with
    | tupleEnd => exact absurd List.mem_cons_self h
    | column c =>
      rw [groupSizes, ih others, columns_cons, List.length_cons, Nat.add_assoc, Nat.add_comm 1]

/-- **The sizes are those of the groups between the marks.** -/
theorem groupSizes_intercalate {groups : List (List ProjectionItem)}
    (h : ∀ g ∈ groups, tupleEnd ∉ g) :
    groupSizes 0 ([tupleEnd].intercalate groups) =
      (filled (groups.map columns)).map List.length := by
  match groups, h with
  | [], _ => rfl
  | [group], h =>
    rw [List.intercalate_singleton, groupSizes_of_not_mem (h group List.mem_cons_self)]
    cases hc : columns group <;> simp [filled, hc]
  | group :: next :: rest, h =>
    obtain ⟨first, others⟩ := List.forall_mem_cons.mp h
    rw [List.intercalate_cons_cons, List.append_assoc, List.singleton_append,
      groupSizes_append_tupleEnd first, groupSizes_intercalate others, Nat.zero_add]
    rfl

theorem columns_intercalate (groups : List (List ProjectionItem)) :
    columns ([tupleEnd].intercalate groups) = (groups.map columns).flatten := by
  match groups with
  | [] => rfl
  | [group] => simp
  | group :: next :: rest =>
    rw [List.intercalate_cons_cons, columns_append, columns_append, columns_intercalate]
    simp [columns, column?]

end ProjectionItem

namespace Attempt

theorem runs_mapM_cons {ε S α β : Type} {f : α → Attempt ε S β} {a : α} {as : List α}
    {bs : List β} {s u : S} :
    Runs ((a :: as).mapM f) s bs u ↔
      ∃ b t rest, Runs (f a) s b t ∧ Runs (as.mapM f) t rest u ∧ b :: rest = bs := by
  rw [List.mapM_cons, runs_bind]
  simp only [runs_return]
  exact ⟨fun ⟨b, t, hb, rest, hrest, same⟩ => ⟨b, t, rest, hb, hrest, same⟩,
    fun ⟨b, t, rest, hb, hrest, same⟩ => ⟨b, t, hb, rest, hrest, same⟩⟩

end Attempt

/-! ## Items between marks -/

namespace Compiler

variable {t : Compiler} {before after : List Nat}

/-- A mark stands for itself, and nothing else for a mark. -/
theorem tupleEnd_not_mem {e : Expr} {items : List ProjectionItem} (he : e ≠ .endOfTuple)
    (run : Runs (t.projectionItems e) before items after) : .tupleEnd ∉ items := by
  cases e with
  | endOfTuple => exact absurd rfl he
  | column r =>
    obtain ⟨found, -, rfl⟩ := runs_return.mp run
    simp
  | allFields entity aliasName =>
    obtain ⟨source, -, rfl⟩ := runs_return.mp run
    simp
  | _ =>
    obtain ⟨f, -, rfl⟩ := runs_return.mp run
    simp

/-- The items are these groups with marks between them. The groups, one after the other, stand for
what is in `made`, and between the marks the items stand for the same. -/
structure Grouped (t : Compiler) (es : List Expr) (before : List Nat) (parts : List ProjectionItem)
    (after : List Nat) (groups : List (List Expr)) (made : List (List (List ProjectionItem))) :
    Prop where
  nonempty : groups ≠ []
  items : es = [Expr.endOfTuple].intercalate groups
  unmarked : ∀ g ∈ groups, Expr.endOfTuple ∉ g
  runs : Runs (groups.mapM fun g => g.mapM t.projectionItems) before made after
  parts_eq : parts = [ProjectionItem.tupleEnd].intercalate (made.map List.flatten)
  unmarked_parts : ∀ g ∈ made.map List.flatten, ProjectionItem.tupleEnd ∉ g
  length_eq : made.length = groups.length

namespace Grouped

variable {es : List Expr} {known : List Nat} {parts : List ProjectionItem}
  {groups : List (List Expr)} {made : List (List (List ProjectionItem))}

/-- A mark begins a group in front of the others. -/
theorem mark (h : Grouped t es before parts after groups made) :
    Grouped t (.endOfTuple :: es) before (.tupleEnd :: parts) after ([] :: groups)
      ([] :: made) := by
  obtain ⟨group, rest, rfl⟩ := List.exists_cons_of_ne_nil h.nonempty
  obtain ⟨m, ms, rfl⟩ := List.exists_cons_of_length_eq_add_one h.length_eq
  refine ⟨List.cons_ne_nil _ _, ?_, ?_, ?_, ?_, ?_, congrArg (· + 1) h.length_eq⟩
  · rw [List.intercalate_cons_cons, ← h.items]
    rfl
  · exact List.forall_mem_cons.mpr ⟨List.not_mem_nil, h.unmarked⟩
  · exact runs_mapM_cons.mpr ⟨[], before, m :: ms, rfl, h.runs, rfl⟩
  · change _ = List.intercalate _ ([] :: m.flatten :: ms.map List.flatten)
    rw [h.parts_eq, List.intercalate_cons_cons]
    rfl
  · exact List.forall_mem_cons.mpr ⟨List.not_mem_nil, h.unmarked_parts⟩

/-- What is no mark goes to the first group. -/
theorem item {e : Expr} {part : List ProjectionItem} {group : List Expr} (he : e ≠ .endOfTuple)
    (first : Runs (t.projectionItems e) before part known)
    (h : Grouped t es known parts after (group :: groups) made) :
    ∃ made', Grouped t (e :: es) before (part ++ parts) after ((e :: group) :: groups) made' := by
  obtain ⟨m, middle, ms, hm, hms, rfl⟩ := runs_mapM_cons.mp h.runs
  obtain ⟨unmarked, unmarkedRest⟩ := List.forall_mem_cons.mp h.unmarked
  obtain ⟨unmarkedPart, unmarkedParts⟩ := List.forall_mem_cons.mp h.unmarked_parts
  refine ⟨(part :: m) :: ms, List.cons_ne_nil _ _, ?_, ?_, ?_, ?_, ?_, h.length_eq⟩
  · rw [h.items]
    exact (intercalate_append_cons _ [e] group groups).symm
  · refine List.forall_mem_cons.mpr ⟨fun mark => ?_, unmarkedRest⟩
    rcases List.mem_cons.mp mark with same | mark
    · exact he same.symm
    · exact unmarked mark
  · exact runs_mapM_cons.mpr
      ⟨_, middle, ms, runs_mapM_cons.mpr ⟨part, known, m, first, hm, rfl⟩, hms, rfl⟩
  · rw [h.parts_eq]
    exact (intercalate_append_cons _ part m.flatten _).symm
  · refine List.forall_mem_cons.mpr ⟨fun mark => ?_, unmarkedParts⟩
    rcases List.mem_append.mp mark with mark | mark
    · exact tupleEnd_not_mem he first mark
    · exact unmarkedPart mark

end Grouped

/-- Items that are compiled are groups with marks between them. -/
theorem exists_groups {es : List Expr} {parts : List (List ProjectionItem)}
    (run : Runs (es.mapM t.projectionItems) before parts after) :
    ∃ groups made, Grouped t es before parts.flatten after groups made := by
  induction es generalizing before parts with
  | nil =>
    obtain ⟨rfl, rfl⟩ := runs_pure.mp run
    exact ⟨[[]], [[]], by simp, rfl, by simp, rfl, rfl, by simp, rfl⟩
  | cons e es ih =>
    obtain ⟨part, known, parts, first, others, rfl⟩ := runs_mapM_cons.mp run
    obtain ⟨groups, made, h⟩ := ih others
    by_cases he : e = .endOfTuple
    · subst he
      obtain ⟨rfl, rfl⟩ := runs_pure.mp first
      exact ⟨[] :: groups, [] :: made, h.mark⟩
    · obtain ⟨group, rest, rfl⟩ := List.exists_cons_of_ne_nil h.nonempty
      obtain ⟨made', h'⟩ := h.item he first
      exact ⟨(e :: group) :: rest, made', h'⟩

end Compiler

/-! ## Rows in parts -/

theorem Shape.width_eq_sum (sizes : List Nat) : width sizes = sizes.sum := by
  induction sizes with
  | nil => rfl
  | cons size rest ih => rw [width, ih, List.sum_cons]

/-- Lists put together are cut into the same lists again. -/
theorem splitLengths_map_length_flatten {α : Type} (groups : List (List α)) :
    (groups.map List.length).splitLengths groups.flatten = groups := by
  induction groups with
  | nil => rfl
  | cons group rest ih => simp [ih]

namespace Row

theorem map_columns_split (sizes : List Nat) (r : Row) :
    (split sizes r).map Row.columns = sizes.splitLengths r.columns := by
  induction sizes generalizing r with
  | nil => rfl
  | cons size rest ih => simp [split, ih]

theorem map_values_split (sizes : List Nat) (r : Row) :
    (split sizes r).map Row.values = sizes.splitLengths r.values := by
  induction sizes generalizing r with
  | nil => rfl
  | cons size rest ih => simp [split, ih]

/-- The parts have columns and values cut from those of the row at the same places, in these sizes,
and put together they are the row. -/
structure CutInto (row : Row) (sizes : List Nat) (parts : List Row) : Prop where
  columns : parts.map Row.columns = sizes.splitLengths row.columns
  values : parts.map Row.values = sizes.splitLengths row.values
  width_columns : parts.map (fun part => part.columns.length) = sizes
  width_values : parts.map (fun part => part.values.length) = sizes
  all_columns : parts.flatMap Row.columns = row.columns
  all_values : parts.flatMap Row.values = row.values

/-- A row of the right width is cut. -/
theorem exists_cutInto {row : Row} {sizes : List Nat} {width : Nat}
    (covered : Shape.width sizes = width) (hcolumns : row.columns.length = width)
    (hvalues : row.values.length = width) :
    ∃ parts, row.tupleParts sizes = .ok parts ∧ row.CutInto sizes parts := by
  have sum := Shape.width_eq_sum sizes
  refine ⟨_, if_pos (covered.trans hvalues.symm), map_columns_split sizes row,
    map_values_split sizes row, ?_, ?_, flatMap_columns_split (by omega),
    flatMap_values_split (by omega)⟩
  · have widths := congrArg (List.map List.length) (map_columns_split sizes row)
    rwa [List.map_splitLengths_length _ _ (by omega), List.map_map] at widths
  · have widths := congrArg (List.map List.length) (map_values_split sizes row)
    rwa [List.map_splitLengths_length _ _ (by omega), List.map_map] at widths

end Row

/-- A projection that is made has the columns among its items, of which there is one at least, and
groups if there is a mark. -/
theorem Projection.ofItems_eq_ok_iff {items : List ProjectionItem} {p : Projection} :
    ofItems items = .ok p ↔ ProjectionItem.columns items ≠ [] ∧
      p.columns = ProjectionItem.columns items ∧
      p.shape = if .tupleEnd ∈ items then .tuple (ProjectionItem.groupSizes 0 items) else .map := by
  unfold ofItems
  change _ ↔ items.filterMap ProjectionItem.column? ≠ [] ∧
    p.columns = items.filterMap ProjectionItem.column? ∧ _
  cases items.filterMap ProjectionItem.column? with
  | nil => simp
  | cons c rest =>
    obtain ⟨columns, shape⟩ := p
    simp [eq_comm]

/-- **Groups of columns are the columns between the marks, and rows are split alike.** The items of
a projection that is compiled are groups with marks between them. The groups stand, one after the
other, for the columns of the projection, and there is a column. Columns are read by name exactly if
there is no mark; otherwise the projection has the sizes of the groups, without those of a last
group that has no column. A row with as many columns and values is split into one part for each
size: columns and values of the row are cut where the columns of the projection are cut into those
of the groups, and nothing is lost. -/
theorem grouped_columns (t : Compiler) (es : List Expr) (p : Projection) (before after : List Nat)
    (h : Runs (Projection.compile t es) before p after) :
    ∃ (groups : List (List Expr)) (made : List (List (List ProjectionItem))),
      es = [Expr.endOfTuple].intercalate groups ∧ (∀ g ∈ groups, Expr.endOfTuple ∉ g) ∧
      Runs (groups.mapM fun g => g.mapM t.projectionItems) before made after ∧
      let columns := made.map fun items => ProjectionItem.columns items.flatten
      p.columns = columns.flatten ∧ p.columns ≠ [] ∧ p.names.length = p.columns.length ∧
      (p.shape = .map ↔ Expr.endOfTuple ∉ es) ∧
      (Expr.endOfTuple ∈ es →
        let read := ProjectionItem.filled columns
        let sizes := read.map List.length
        p.shape = .tuple sizes ∧ Shape.width sizes = p.columns.length ∧
        sizes.splitLengths p.columns = read ∧
        ∀ row : Row, row.columns.length = p.columns.length →
          row.values.length = p.columns.length →
          ∃ parts, row.tupleParts sizes = .ok parts ∧ row.CutInto sizes parts) := by
  obtain ⟨parts, known, run, lifted⟩ := runs_bind.mp h
  obtain ⟨made, rfl⟩ := runs_lift.mp lifted
  obtain ⟨groups, lists, grouped⟩ := Compiler.exists_groups run
  obtain ⟨some, columns_eq, shape_eq⟩ := Projection.ofItems_eq_ok_iff.mp made
  have all : ProjectionItem.columns parts.flatten =
      (lists.map fun items => ProjectionItem.columns items.flatten).flatten := by
    rw [grouped.parts_eq, ProjectionItem.columns_intercalate, List.map_map]
    rfl
  have marked : ProjectionItem.tupleEnd ∈ parts.flatten ↔ Expr.endOfTuple ∈ es := by
    rw [grouped.parts_eq, mem_intercalate_singleton_iff grouped.unmarked_parts, List.length_map,
      grouped.length_eq, grouped.items, mem_intercalate_singleton_iff grouped.unmarked]
  refine ⟨groups, lists, grouped.items, grouped.unmarked, grouped.runs, columns_eq.trans all,
    columns_eq ▸ some, List.length_map _, ?_, fun mark => ?_⟩
  · rw [shape_eq, ← marked]
    split <;> simp_all
  · have covered : Shape.width ((ProjectionItem.filled
        (lists.map fun items => ProjectionItem.columns items.flatten)).map List.length) =
        p.columns.length := by
      rw [Shape.width_eq_sum, columns_eq, all, ← ProjectionItem.flatten_filled,
        List.length_flatten]
    refine ⟨?_, covered, ?_, fun row => Row.exists_cutInto covered⟩
    · rw [shape_eq, if_pos (marked.mpr mark), grouped.parts_eq,
        ProjectionItem.groupSizes_intercalate grouped.unmarked_parts, List.map_map]
      rfl
    · rw [columns_eq, all, ← ProjectionItem.flatten_filled, splitLengths_map_length_flatten]

namespace Sample

/-- Teams with their users, for a database with double quotes. -/
def teamsWithUsers : Compiler :=
  ⟨catalog, .sqlite, ⟨[⟨type "Team", none⟩, ⟨type "TeamUser", none⟩]⟩, none, fun _ _ => .null⟩

/-- Nothing, a team, and the name of a user under another name, each group closed by a mark. -/
def teamAndName : List Expr :=
  [.endOfTuple, .allFields (type "Team") none, .endOfTuple,
    .aliased (.column ⟨type "TeamUser", "Name"⟩) "UserName", .endOfTuple]

/-- The columns of the team and the name. -/
def columnsOfTeamAndName : Projection where
  columns := [⟨.sql "\"Team\".\"Id\"", some "Id"⟩, ⟨.sql "\"Team\".\"Name\"", some "Name"⟩,
    ⟨.sql "\"Team\".\"TeamLeaderId\"", some "TeamLeaderId"⟩,
    ⟨.sql "\"TeamUser\".\"Name\" AS \"UserName\"", some "UserName"⟩]
  shape := .tuple [0, 3, 1]

/-- A row of these columns. -/
def redAndAnn : Row :=
  ⟨["Id", "Name", "TeamLeaderId", "UserName"], [.int 1, .text "Red", .null, .text "Ann"]⟩

/-- The empty group in front is a part of its own, and nothing follows the last mark. -/
theorem parts_redAndAnn :
    Runs (Projection.compile teamsWithUsers teamAndName) [] columnsOfTeamAndName [] ∧
      ∃ parts, redAndAnn.tupleParts [0, 3, 1] = .ok parts ∧
        parts.map Row.values = [[], [.int 1, .text "Red", .null], [.text "Ann"]] := by
  have run : Runs (Projection.compile teamsWithUsers teamAndName) [] columnsOfTeamAndName [] := rfl
  obtain ⟨groups, made, -, -, -, -, -, -, -, grouped⟩ := grouped_columns _ _ _ _ _ run
  obtain ⟨shape, -, -, split⟩ := grouped List.mem_cons_self
  obtain ⟨parts, split, cut⟩ := split redAndAnn rfl rfl
  rw [← Shape.tuple.inj shape] at split cut
  exact ⟨run, parts, split, cut.values⟩

end Sample

end RowGraph
