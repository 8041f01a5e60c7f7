import RowGraph.Dialect.Basic

/-!
# Statements

A statement is put together from fragments: its text has a placeholder for each literal, and its
slots list the literals in the order of their placeholders. Placeholders are numbered where they
stand in the text, so those of an embedded query go on from the query around it.

Main statements: `length_slots_push` (as many slots as literals), `index_slots_push` (slot `i` has
index `i`) and `values_push` (the literals in order).

Modelled: `ParameterStore` with `push` (`Draft.push`, `pushFrom`), `merge`, `CompiledSql` with
`from_fragment` (`Statement.ofFragment`) and `values`, and `inline_literals` (`Fragment.inlined`).

Left out: the lengths of a store, which nothing reads.
-/

namespace RowGraph

/-- Where a literal stands. -/
inductive Origin
  | outer
  | subQuery
deriving DecidableEq, Repr

/-- A bound parameter of a statement. -/
structure Slot where
  index : Nat
  value : Value
  origin : Origin
deriving DecidableEq

/-- Text and parameters of a statement, as far as fragments have been put into it. -/
structure Draft where
  sql : String
  slots : List Slot
deriving DecidableEq

namespace Draft

/-- Nothing yet. -/
def empty : Draft := ⟨"", []⟩

/-- Text at the end. -/
def addText (m : Draft) (s : String) : Draft := { m with sql := m.sql ++ s }

/-- A literal at the end, under the next placeholder. -/
def addLiteral (d : Dialect) (origin : Origin) (m : Draft) (v : Value) : Draft :=
  { sql := m.sql ++ d.placeholder m.slots.length
    slots := m.slots ++ [⟨m.slots.length, v, origin⟩] }

/-- The pieces of a fragment at the end; literals of embedded queries are marked so. -/
def pushFrom (d : Dialect) (origin : Origin) : Fragment → Draft → Draft
  | .empty, m => m
  | .text s rest, m => pushFrom d origin rest (m.addText s)
  | .literal v rest, m => pushFrom d origin rest (m.addLiteral d origin v)
  | .subQuery inner rest, m => pushFrom d origin rest (pushFrom d .subQuery inner m)

/-- A fragment at the end. -/
def push (d : Dialect) (m : Draft) (f : Fragment) : Draft := pushFrom d .outer f m

/-- Fragments one after the other. -/
def merge (d : Dialect) (fragments : List Fragment) : Draft := fragments.foldl (push d) empty

theorem length_slots_pushFrom (d : Dialect) (origin : Origin) (f : Fragment) (m : Draft) :
    (pushFrom d origin f m).slots.length = m.slots.length + f.count := by
  induction f generalizing origin m with
  | empty => rfl
  | text s rest ih => simp [pushFrom, ih, addText, Fragment.count]
  | literal v rest ih => simp [pushFrom, ih, addLiteral, Fragment.count]; omega
  | subQuery i rest ihi ih => simp [pushFrom, ih, ihi, Fragment.count]; omega

/-- A fragment adds as many slots as it has literals. -/
theorem length_slots_push (d : Dialect) (f : Fragment) (m : Draft) :
    (push d m f).slots.length = m.slots.length + f.count :=
  length_slots_pushFrom d .outer f m

theorem values_pushFrom (d : Dialect) (origin : Origin) (f : Fragment) (m : Draft) :
    (pushFrom d origin f m).slots.map Slot.value = m.slots.map Slot.value ++ f.literals := by
  induction f generalizing origin m with
  | empty => simp [pushFrom, Fragment.literals]
  | text s rest ih => simp [pushFrom, ih, addText, Fragment.literals]
  | literal v rest ih => simp [pushFrom, ih, addLiteral, Fragment.literals]
  | subQuery i rest ihi ih => simp [pushFrom, ih, ihi, Fragment.literals]

/-- A fragment adds its literals in order. -/
theorem values_push (d : Dialect) (f : Fragment) (m : Draft) :
    (push d m f).slots.map Slot.value = m.slots.map Slot.value ++ f.literals :=
  values_pushFrom d .outer f m

theorem index_slots_pushFrom (d : Dialect) (origin : Origin) (f : Fragment) (m : Draft)
    (h : m.slots.map Slot.index = List.range m.slots.length) :
    (pushFrom d origin f m).slots.map Slot.index =
      List.range (pushFrom d origin f m).slots.length := by
  induction f generalizing origin m with
  | empty => exact h
  | text s rest ih => exact ih origin _ h
  | literal v rest ih => exact ih origin _ (by simp [addLiteral, h, List.range_succ])
  | subQuery i rest ihi ih => exact ih origin _ (ihi .subQuery _ h)

/-- Slot `i` has index `i`, whatever is added. -/
theorem index_slots_push (d : Dialect) (f : Fragment) (m : Draft)
    (h : m.slots.map Slot.index = List.range m.slots.length) :
    (push d m f).slots.map Slot.index = List.range (push d m f).slots.length :=
  index_slots_pushFrom d .outer f m h

end Draft

/-- How the rows of a statement are read back. -/
inductive Shape
  /-- Every column of the root entity, in field order. -/
  | entity
  /-- Groups of neighbouring columns of these sizes. -/
  | tuple (sizes : List Nat)
  /-- Columns by name. -/
  | map
deriving DecidableEq, Repr

/-- How many columns groups of these sizes take up. -/
def Shape.width : (sizes : List Nat) → Nat
  | [] => 0
  | size :: rest => size + width rest

/-- A statement that can be executed. -/
structure Statement where
  sql : String
  slots : List Slot
  shape : Shape
deriving DecidableEq

namespace Statement

/-- The statement of a single fragment. -/
def ofFragment (d : Dialect) (f : Fragment) (shape : Shape) : Statement :=
  let merged := Draft.merge d [f]
  ⟨merged.sql, merged.slots, shape⟩

/-- The values in the order of the placeholders. -/
def values (s : Statement) : List Value := s.slots.map Slot.value

@[simp] theorem values_ofFragment (d : Dialect) (f : Fragment) (shape : Shape) :
    (ofFragment d f shape).values = f.literals := by
  simp [values, ofFragment, Draft.merge, Draft.values_push, Draft.empty]

end Statement

/-- The text of a fragment with each literal in its place. -/
def Fragment.inlined (d : Dialect) : Fragment → String
  | .empty => ""
  | .text s rest => s ++ rest.inlined d
  | .literal v rest => d.literal v ++ rest.inlined d
  | .subQuery inner rest => inner.inlined d ++ rest.inlined d

@[simp] theorem Fragment.inlined_textThen (d : Dialect) (s : String) (f : Fragment) :
    (textThen s f).inlined d = s ++ f.inlined d := by
  unfold textThen
  split
  · next h => simp [String.isEmpty_iff.1 h]
  · split <;> simp [inlined, String.append_assoc]

end RowGraph
