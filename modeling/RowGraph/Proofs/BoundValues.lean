import RowGraph.Proofs.Numbering

/-!
# Lists of bound values

Columns and assignments are written as lists: an entry is a text with a value behind it, and a
separator stands between two entries. A list goes on numbering where the draft is, so its entry `k`
is bound to the placeholder that is `k` behind the next one.

Results:
* `pushFrom_append`: of two fragments the second is added behind the first.
* **`pushFrom_bound`**: the text and the slots that a list of bound values adds to a draft.
* `ofFragment_bound`: a statement with such a list behind its first text.
-/

namespace RowGraph

open Fragment

/-- A list of several fragments is the first, the separator and the list of the others. -/
theorem Fragment.join_cons (separator : String) (f : Fragment) {rest : List Fragment}
    (h : rest ≠ []) :
    join separator (f :: rest) = f ++ textThen separator (join separator rest) := by
  obtain ⟨next, others, rfl⟩ := List.exists_cons_of_ne_nil h
  rfl

namespace Draft

/-- Of two fragments the second is added behind the first. -/
theorem pushFrom_append (d : Dialect) (origin : Origin) (f g : Fragment) (m : Draft) :
    pushFrom d origin (f ++ g) m = pushFrom d origin g (pushFrom d origin f m) := by
  induction f generalizing m with
  | empty => rfl
  | text s rest ih => rw [text_append, pushFrom_textThen, ih, pushFrom]
  | literal v rest ih => rw [literal_append, pushFrom, ih, pushFrom]
  | subQuery inner rest _ ih => rw [subQuery_append, pushFrom, ih, pushFrom]

/-- One entry of a list: its text and its placeholder, and a slot with its value. -/
theorem pushFrom_entry (d : Dialect) (origin : Origin) (text : String) (v : Value) (m : Draft) :
    pushFrom d origin (textThen text (param v)) m =
      { sql := m.sql ++ (text ++ d.placeholder m.slots.length)
        slots := m.slots ++ [⟨m.slots.length, v, origin⟩] } := by
  rw [pushFrom_textThen, param, pushFrom, pushFrom]
  simp only [addText, addLiteral, String.append_assoc]

variable {α : Type} (text : α → String) (value : α → Value)

/-- **The entries of a list are bound in order.** Entry `k` stands in the text with the placeholder
that is `k` behind the next one, and its value has the slot of that number. -/
theorem pushFrom_bound (d : Dialect) (origin : Origin) (separator : String) (entries : List α)
    (m : Draft) :
    pushFrom d origin
        (join separator (entries.map fun a => textThen (text a) (param (value a)))) m =
      { sql := m.sql ++ separator.intercalate
          (entries.mapIdx fun k a => text a ++ d.placeholder (m.slots.length + k))
        slots := m.slots ++ entries.mapIdx fun k a => ⟨m.slots.length + k, value a, origin⟩ } := by
  induction entries generalizing m with
  | nil => simp [join, pushFrom]
  | cons a rest ih =>
    by_cases more : rest = []
    · simp [more, join, pushFrom_entry]
    rw [List.map_cons, join_cons separator _ (by simpa using more), pushFrom_append,
      pushFrom_textThen, pushFrom_entry, ih, List.mapIdx_cons, List.mapIdx_cons,
      String.intercalate_cons_of_ne_nil (by simpa using more)]
    simp only [addText, List.length_append, List.length_singleton, String.append_assoc,
      List.append_assoc, List.singleton_append, Nat.add_zero, Nat.add_assoc, Nat.add_comm 1]

/-- A statement that has a list of bound values behind its first text: the list is numbered from 0,
and what follows goes on behind it. -/
theorem ofFragment_bound (d : Dialect) (before separator : String) (entries : List α)
    (rest : Fragment) (shape : Shape) :
    let list := join separator (entries.map fun a => textThen (text a) (param (value a)))
    let m := pushFrom d .outer rest
      { sql := before ++ separator.intercalate (entries.mapIdx fun k a => text a ++ d.placeholder k)
        slots := entries.mapIdx fun k a => ⟨k, value a, .outer⟩ }
    Statement.ofFragment d (textThen before (list ++ rest)) shape = ⟨m.sql, m.slots, shape⟩ := by
  intro list m
  have added : pushFrom d .outer (textThen before (list ++ rest)) empty = m := by
    rw [pushFrom_textThen, pushFrom_append, pushFrom_bound]
    simp [addText, empty, m]
  rw [← added]
  rfl

end Draft

end RowGraph
