import RowGraph.Graph.Basic

/-!
# What is attached to references

A node keeps what is attached under the declared names of its references, and is asked for it by
names in any case. No two names that it keeps are the same up to case.

Results:
* `Node.find?_without`: what is found once a reference has been taken out.
* **`Node.attached?_attach`**, **`Node.attached?_detach`**: what is found after each change.
-/

namespace RowGraph

variable {c : Catalog}

namespace Node

/-- The node with other references. -/
def withReferences (n : Node c) (references : List (String × Attached)) : Node c :=
  { n with references }

theorem mem_of_mem_without {name : String} {references : List (String × Attached)}
    {r : String × Attached} (h : r ∈ without name references) : r ∈ references :=
  (List.mem_filter.mp h).1

/-- Which references are left depends on the names alone. -/
theorem map_without {β : Type} (f : Attached → β) (name : String)
    (references : List (String × Attached)) :
    (without name references).map (fun r => (r.1, f r.2)) =
      (references.map fun r => (r.1, f r.2)).filter fun r => !Text.sameName r.1 name := by
  rw [without, List.filter_map]
  rfl

theorem attach_eq (n : Node c) (name : String) (a : Attached) :
    n.attach name a = match n.entity.reference? name with
      | some r => .ok (n.withReferences (without r.name n.references ++ [(r.name, a)]))
      | none => .error (.unknownReference n.entity.name name) := by
  rw [attach, requireReference]
  cases n.entity.reference? name <;> rfl

/-- Under the name that was taken out nothing is found, and under others what was there. -/
theorem find?_without (asked name : String) (references : List (String × Attached)) :
    (without asked references).find? (fun r => Text.sameName r.1 name) =
      if Text.sameName asked name then none
      else references.find? fun r => Text.sameName r.1 name := by
  rw [without, List.find?_filter]
  split
  · next same =>
    refine List.find?_eq_none.mpr fun r _ found => ?_
    simp only [Bool.not_eq_true', decide_eq_true_eq] at found
    obtain ⟨other, named⟩ := found
    rw [Text.sameName_trans named (Text.sameName_symm same)] at other
    cases other
  · next other =>
    refine congrArg (fun p => List.find? p references) (funext fun r => ?_)
    cases named : Text.sameName r.1 name with
    | false => simp
    | true =>
      have differ : Text.sameName r.1 asked = false := by
        rw [Bool.eq_false_iff]
        exact fun same => other (Text.sameName_trans (Text.sameName_symm same) named)
      simp [differ]

/-- **What is attached is found under the name of its reference**, and under other names what was
there. -/
theorem attached?_attach {n m : Node c} {asked : String} {a : Attached}
    (h : n.attach asked a = .ok m) (name : String) :
    m.attached? name = if Text.sameName asked name then some a else n.attached? name := by
  rw [attach_eq] at h
  cases hr : n.entity.reference? asked with
  | none =>
    rw [hr] at h
    cases h
  | some r =>
    rw [hr] at h
    cases h
    have declared : Text.sameName r.name asked = true :=
      List.find?_some (p := fun q : Reference => Text.sameName q.name asked) hr
    have same : Text.sameName r.name name = Text.sameName asked name := by
      simp only [Text.sameName, Text.sameName_iff.mp declared]
    rw [attached?, withReferences, List.find?_append, find?_without, List.find?_singleton, same]
    cases Text.sameName asked name <;> simp [attached?]

/-- **Once a reference is cleared nothing is found under its name**, and under other names what was
there. -/
theorem attached?_detach (n : Node c) (asked name : String) :
    (n.detach asked).attached? name =
      if Text.sameName asked name then none else n.attached? name := by
  rw [attached?, detach, find?_without]
  split <;> rfl

end Node

end RowGraph
