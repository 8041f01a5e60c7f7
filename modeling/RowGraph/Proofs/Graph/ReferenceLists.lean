import Mathlib.Data.List.Induction
import RowGraph.Proofs.Graph.Attaching
import RowGraph.Sample

/-!
# References as lists

The references of a node can be thought of as lists: setting a reference to one child gives a list
of one, setting it to several gives these, and one more child is put at the end. A node tells a
single child from a list of one, though, and a child that is added to a single one takes its place.

`ReferenceCall.onLists` is what a call does to lists. A node is any that calls have led to.

Results:
* `ReferenceCall.apply_of_undeclared`: under a name that is not declared nothing happens.
* `ReferenceCall.many?_apply`: a call does to a node what it does to lists, if it does not add to a
  single child; `ReferenceCall.many?_push_of_single`: what it does then.
* `Node.many?_afterCalls_iff`: so do calls one after the other, and exactly then.
* **`references_as_lists`**: all of this for any node that calls have led to.
-/

namespace RowGraph

variable {c : Catalog}

/-- A call that changes what is attached to a reference. -/
inductive ReferenceCall
  | setOne (name : String) (child : NodeId)
  | setMany (name : String) (children : List NodeId)
  | push (name : String) (child : NodeId)
  | clear (name : String)

namespace ReferenceCall

/-- The name that it gives the reference. -/
def name : ReferenceCall → String
  | .setOne name _ | .setMany name _ | .push name _ | .clear name => name

/-- The node that the call makes of one. -/
def run (n : Node c) : ReferenceCall → Except CatalogError (Node c)
  | .setOne name child => n.attach name (.single child)
  | .setMany name children => n.attach name (.many children)
  | .push name child => n.push name child
  | .clear name => .ok (n.detach name)

/-- How the call ends, and the node then; a call that fails leaves it. -/
def apply (call : ReferenceCall) (n : Node c) : Except CatalogError Unit × Node c :=
  match call.run n with
  | .ok m => (.ok (), m)
  | .error why => (.error why, n)

/-- How the call ends on a node whose entity does not declare its name. -/
def refusal (e : Entity) : ReferenceCall → Except CatalogError Unit
  | .clear _ => .ok ()
  | .setOne name _ | .setMany name _ | .push name _ => .error (.unknownReference e.name name)

/-- The call adds to a reference that has a single child. -/
def MeetsSingle (n : Node c) : ReferenceCall → Prop
  | .push name _ => ∃ child, n.attached? name = some (.single child)
  | _ => False

end ReferenceCall

/-- The node after these calls, whether they failed or not. -/
def Node.afterCalls (calls : List ReferenceCall) (n : Node c) : Node c :=
  calls.foldl (fun n call => (call.apply n).2) n

/-! ## Lists -/

/-- The list of a reference by its name in any case; none where it is not set. -/
abbrev ReferenceLists := String → Option (List NodeId)

/-- The lists with another one for a name. -/
def ReferenceLists.set (name : String) (list : Option (List NodeId)) (l : ReferenceLists) :
    ReferenceLists :=
  fun other => if Text.sameName name other then list else l other

/-- What a call does to lists. -/
def ReferenceCall.onLists : ReferenceCall → ReferenceLists → ReferenceLists
  | .setOne name child, l => l.set name (some [child])
  | .setMany name children, l => l.set name (some children)
  | .push name child, l => l.set name (some ((l name).getD [] ++ [child]))
  | .clear name, l => l.set name none

namespace Entity

/-- The lists after one call; a name that the entity does not declare changes nothing. -/
def listsAfter (e : Entity) (l : ReferenceLists) (call : ReferenceCall) : ReferenceLists :=
  if (e.reference? call.name).isSome then call.onLists l else l

/-- The lists after calls in order. -/
def listsAfterCalls (e : Entity) (calls : List ReferenceCall) (l : ReferenceLists) :
    ReferenceLists :=
  calls.foldl e.listsAfter l

theorem listsAfterCalls_concat (e : Entity) (calls : List ReferenceCall) (call : ReferenceCall)
    (l : ReferenceLists) :
    e.listsAfterCalls (calls ++ [call]) l = e.listsAfter (e.listsAfterCalls calls l) call := by
  simp [listsAfterCalls]

end Entity

/-! ## Declared references -/

/-- What the node keeps, it keeps under names that are declared. -/
def Node.Declared (n : Node c) : Prop :=
  ∀ r ∈ n.references, (n.entity.reference? r.1).isSome

namespace Node

variable {n m : Node c} {name : String} {a : Attached}

theorem isSome_reference?_congr {e : Entity} {other : String}
    (h : Text.sameName name other = true) :
    (e.reference? name).isSome = (e.reference? other).isSome := by
  have same : (fun r : Reference => Text.sameName r.name name) =
      fun r => Text.sameName r.name other := by
    funext r
    simp only [Text.sameName, Text.sameName_iff.mp h]
  rw [Entity.reference?, Entity.reference?, same]

theorem declared_ofValues (type : EntityType) (values : List Value) :
    (ofValues type values : Node c).Declared := by
  intro r hr
  cases hr

/-- What is attached is attached to a declared reference. -/
theorem Declared.isSome_reference? (h : n.Declared) (found : n.attached? name = some a) :
    (n.entity.reference? name).isSome := by
  obtain ⟨r, hr, -⟩ := Option.map_eq_some_iff.mp found
  have same := List.find?_some (p := fun q : String × Attached => Text.sameName q.1 name) hr
  rw [← isSome_reference?_congr same]
  exact h r (List.mem_of_find?_eq_some hr)

theorem Declared.detach_eq_self (h : n.Declared) (none : n.entity.reference? name = none) :
    n.detach name = n := by
  have kept : without name n.references = n.references := by
    refine List.filter_eq_self.mpr fun r hr => ?_
    rw [Bool.not_eq_true', Bool.eq_false_iff]
    intro same
    have declared := h r hr
    rw [isSome_reference?_congr same, none] at declared
    cases declared
  rw [detach]
  simp only [kept]

theorem attach_of_undeclared (undeclared : n.entity.reference? name = none) (a : Attached) :
    n.attach name a = .error (.unknownReference n.entity.name name) := by
  rw [attach_eq, undeclared]

theorem Declared.attach (h : n.Declared) (made : n.attach name a = .ok m) : m.Declared := by
  rw [attach_eq] at made
  cases found : n.entity.reference? name with
  | none =>
    rw [found] at made
    cases made
  | some r =>
    rw [found] at made
    cases made
    intro q hq
    obtain old | rfl := List.mem_append.mp hq |>.imp_right List.mem_singleton.mp
    · exact h q (mem_of_mem_without old)
    · refine List.find?_isSome.mpr ⟨r, List.mem_of_find?_eq_some found, Text.sameName_refl _⟩

theorem type_of_attach (made : n.attach name a = .ok m) : m.type = n.type := by
  rw [attach_eq] at made
  cases found : n.entity.reference? name with
  | none =>
    rw [found] at made
    cases made
  | some r =>
    rw [found] at made
    cases made
    rfl

/-- Adding a child attaches a list. -/
theorem push_eq_attach (n : Node c) (name : String) (child : NodeId) :
    n.push name child = n.attach name (.many (match n.attached? name with
      | some (.many children) => children ++ [child]
      | _ => [child])) := by
  rw [push]
  cases n.attached? name with
  | none => rfl
  | some a => cases a <;> rfl

end Node

/-! ## One call -/

namespace ReferenceCall

variable {n : Node c} {call : ReferenceCall}

/-- A call clears a reference, or attaches something to it. -/
theorem run_eq_detach_or_attach (call : ReferenceCall) (n : Node c) :
    call = .clear call.name ∧ call.run n = .ok (n.detach call.name) ∨
      ∃ a, call.run n = n.attach call.name a := by
  cases call with
  | setOne name child => exact .inr ⟨_, rfl⟩
  | setMany name children => exact .inr ⟨_, rfl⟩
  | push name child => exact .inr ⟨_, n.push_eq_attach name child⟩
  | clear name => exact .inl ⟨rfl, rfl⟩

theorem type_apply (call : ReferenceCall) (n : Node c) : (call.apply n).2.type = n.type := by
  rw [apply]
  obtain ⟨-, run⟩ | ⟨a, run⟩ := call.run_eq_detach_or_attach n
  · rw [run]
    rfl
  · rw [run]
    split
    · next made => exact Node.type_of_attach made
    · rfl

theorem entity_apply (call : ReferenceCall) (n : Node c) :
    (call.apply n).2.entity = n.entity :=
  congrArg c.entity (call.type_apply n)

theorem declared_apply (h : n.Declared) (call : ReferenceCall) : (call.apply n).2.Declared := by
  rw [apply]
  obtain ⟨-, run⟩ | ⟨a, run⟩ := call.run_eq_detach_or_attach n
  · rw [run]
    exact fun r hr => h r (Node.mem_of_mem_without hr)
  · rw [run]
    split
    · next made => exact h.attach made
    · exact h

/-- **Under a name that is not declared nothing happens**; only clearing succeeds. -/
theorem apply_of_undeclared (h : n.Declared) (undeclared : n.entity.reference? call.name = none) :
    call.apply n = (call.refusal n.entity, n) := by
  cases call with
  | clear name =>
    have unknown : n.entity.reference? name = none := undeclared
    rw [apply, run, h.detach_eq_self unknown, refusal]
  | setOne name child | setMany name children =>
    have unknown : n.entity.reference? name = none := undeclared
    rw [apply, run, Node.attach_of_undeclared unknown, refusal]
  | push name child =>
    have unknown : n.entity.reference? name = none := undeclared
    rw [apply, run, Node.push_eq_attach, Node.attach_of_undeclared unknown, refusal]

/-- Under a declared name a call succeeds. -/
theorem run_of_declared (declared : (n.entity.reference? call.name).isSome) :
    ∃ m, call.run n = .ok m := by
  obtain ⟨r, found⟩ := Option.isSome_iff_exists.mp declared
  obtain ⟨-, run⟩ | ⟨a, run⟩ := call.run_eq_detach_or_attach n
  · exact ⟨_, run⟩
  · rw [run, Node.attach_eq, found]
    exact ⟨_, rfl⟩

theorem many?_of_attach {m : Node c} {name : String} {a : Attached}
    (made : n.attach name a = .ok m) :
    m.many? = ReferenceLists.set name (some a.children) n.many? := by
  funext other
  rw [Node.many?, Node.attached?_attach made, ReferenceLists.set]
  split <;> rfl

/-- **A call does to a node what it does to lists**, if it does not add to a single child. -/
theorem many?_apply (declared : (n.entity.reference? call.name).isSome)
    (plain : ¬ call.MeetsSingle n) : (call.apply n).2.many? = call.onLists n.many? := by
  obtain ⟨m, made⟩ := run_of_declared declared
  rw [apply, made]
  cases call with
  | setOne name child => exact many?_of_attach made
  | setMany name children => exact many?_of_attach made
  | push name child =>
    rw [run, Node.push_eq_attach] at made
    rw [many?_of_attach made, onLists]
    refine congrArg (fun list => ReferenceLists.set name (some list) n.many?) ?_
    rw [Node.many?]
    cases found : n.attached? name with
    | none => rfl
    | some a =>
      cases a with
      | single other => exact absurd ⟨other, found⟩ plain
      | many children => rfl
  | clear name =>
    cases made
    funext other
    rw [Node.many?, Node.attached?_detach, onLists, ReferenceLists.set]
    split <;> rfl

/-- **A child that is added to a single one takes its place.** -/
theorem many?_push_of_single {name : String} {child : NodeId}
    (declared : (n.entity.reference? name).isSome) (single : (push name child).MeetsSingle n) :
    ((push name child).apply n).2.many? = ReferenceLists.set name (some [child]) n.many? := by
  obtain ⟨other, found⟩ := single
  obtain ⟨m, made⟩ : ∃ m, (push name child).run n = .ok m := run_of_declared declared
  rw [apply, made]
  rw [run, Node.push_eq_attach, found] at made
  exact many?_of_attach made

/-- On a declared name or another one, a call does to a node what it does to the lists of its
entity, if it does not add to a single child. -/
theorem many?_apply_eq_listsAfter (h : n.Declared) (plain : ¬ call.MeetsSingle n) :
    (call.apply n).2.many? = n.entity.listsAfter n.many? call := by
  rw [Entity.listsAfter]
  split
  · next declared => exact many?_apply declared plain
  · next undeclared =>
    rw [apply_of_undeclared h (by simpa using undeclared)]

/-- If it adds to a single child, it does something else. -/
theorem many?_apply_ne_listsAfter (h : n.Declared) (single : call.MeetsSingle n) :
    (call.apply n).2.many? ≠ n.entity.listsAfter n.many? call := by
  cases call with
  | setOne name child | setMany name children | clear name => exact single.elim
  | push name child =>
    have declared : (n.entity.reference? name).isSome := by
      obtain ⟨other, found⟩ := single
      exact h.isSome_reference? found
    have lists : n.entity.listsAfter n.many? (push name child) =
        (push name child).onLists n.many? := if_pos declared
    rw [many?_push_of_single declared single, lists]
    intro same
    have children := congrFun same name
    obtain ⟨other, found⟩ := single
    simp [onLists, ReferenceLists.set, Node.many?, found, Attached.children] at children

end ReferenceCall

/-! ## Calls one after the other -/

namespace Node

variable {n : Node c} {calls : List ReferenceCall}

theorem afterCalls_concat (calls : List ReferenceCall) (call : ReferenceCall) (n : Node c) :
    n.afterCalls (calls ++ [call]) = (call.apply (n.afterCalls calls)).2 := by
  simp [afterCalls]

theorem declared_afterCalls (h : n.Declared) (calls : List ReferenceCall) :
    (n.afterCalls calls).Declared := by
  induction calls generalizing n with
  | nil => exact h
  | cons call rest ih => exact ih (ReferenceCall.declared_apply h call)

theorem entity_afterCalls (n : Node c) (calls : List ReferenceCall) :
    (n.afterCalls calls).entity = n.entity := by
  induction calls generalizing n with
  | nil => rfl
  | cons call rest ih => exact (ih _).trans (call.entity_apply n)

/-- **Calls do to a node what they do to lists exactly as long as none adds to a single child.** -/
theorem many?_afterCalls_iff (h : n.Declared) (calls : List ReferenceCall) :
    (∀ done, done <+: calls →
      (n.afterCalls done).many? = n.entity.listsAfterCalls done n.many?) ↔
      ∀ done call, done ++ [call] <+: calls → ¬ call.MeetsSingle (n.afterCalls done) := by
  constructor
  · intro same done call next single
    have before := same done ((List.prefix_append done [call]).trans next)
    have after := same (done ++ [call]) next
    rw [afterCalls_concat, Entity.listsAfterCalls_concat, ← before,
      ← n.entity_afterCalls done] at after
    exact ReferenceCall.many?_apply_ne_listsAfter (declared_afterCalls h done) single after
  · intro plain done
    induction done using List.reverseRecOn with
    | nil => exact fun _ => rfl
    | append_singleton done call ih =>
      intro next
      have before := ih ((List.prefix_append done [call]).trans next)
      rw [afterCalls_concat, Entity.listsAfterCalls_concat, ← before,
        ReferenceCall.many?_apply_eq_listsAfter (declared_afterCalls h done)
          (plain done call next), entity_afterCalls]

end Node

/-- **References as lists.** Calls that set, add to and clear the references of a node, by names in
any case, do to the children of the references what they do to lists, and leave other references as
they are, exactly as long as none of them adds to a single child: a child that is added then takes
its place. Under a name that is not declared a call changes nothing, and fails unless it clears. The
node is any that calls have led to before, with any values. -/
theorem references_as_lists (type : EntityType) (values : List Value)
    (before calls : List ReferenceCall) :
    let n := (Node.ofValues type values : Node c).afterCalls before
    ((∀ done, done <+: calls →
      (n.afterCalls done).many? = n.entity.listsAfterCalls done n.many?) ↔
      ∀ done call, done ++ [call] <+: calls → ¬ call.MeetsSingle (n.afterCalls done)) ∧
    (∀ call : ReferenceCall, (n.entity.reference? call.name).isSome →
      (call.apply n).1 = .ok () ∧
      (¬ call.MeetsSingle n → (call.apply n).2.many? = call.onLists n.many?) ∧
      ∀ name child, call = .push name child → call.MeetsSingle n →
        (call.apply n).2.many? = ReferenceLists.set name (some [child]) n.many?) ∧
    ∀ call : ReferenceCall, n.entity.reference? call.name = none →
      call.apply n = (call.refusal n.entity, n) := by
  intro n
  have declared : n.Declared := Node.declared_afterCalls (Node.declared_ofValues type values) before
  refine ⟨Node.many?_afterCalls_iff declared calls, fun call known => ⟨?_, fun plain =>
    ReferenceCall.many?_apply known plain, ?_⟩, fun call unknown =>
      ReferenceCall.apply_of_undeclared declared unknown⟩
  · obtain ⟨m, made⟩ := ReferenceCall.run_of_declared known
    rw [ReferenceCall.apply, made]
  · rintro name child rfl single
    exact ReferenceCall.many?_push_of_single known single

namespace Sample

/-- A team with one user, and another one who is added. -/
def teamOfTwo : List ReferenceCall := [.setOne "Users" 1, .push "users" 2]

/-- The team loses the first user, whom the lists keep. -/
theorem children_of_teamOfTwo :
    let n : Node catalog := .empty (type "Team")
    (n.afterCalls teamOfTwo).many? "Users" = some [2] ∧
      n.entity.listsAfterCalls teamOfTwo n.many? "Users" = some [1, 2] := by
  exact ⟨by decide, by decide⟩

end Sample

end RowGraph
