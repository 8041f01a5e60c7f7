import Mathlib.Control.Monad.Basic
import RowGraph.Proofs.Save.Supply

/-!
# Both ways a key can go

A node's key goes to its children and to the parents that hold it. Its children get it whatever it
is. The parents take it over only if it counts as assigned, and zero, the empty text and the nil
identifier do not, since a key that the database generates begins as one of them. Where the caller
gives the keys, these are keys like any other: the row is stored under them, and the children hold
them, but the parents are left as they were.

* **`saveAll_links_keys`**: after a successful call the children of a node hold its key, and so do
  its parents if it counts as assigned; if it does not, they keep what they had.
* `Sample.links_of_code`, `Sample.no_link_of_zero`: two tasks with a status, one as its parent and
  one as its child; under a zero the parent's link is lost.
-/

namespace RowGraph

variable {c : Catalog} {σ : Type}

open SaveState

/-- A demand that is met is met by the key that it is for, if no other is due there. -/
theorem SaveState.Met.equals {g : Graph c} {X : NodeId → Prop} {st : SaveState c} {id : NodeId}
    {d : Demand}
    (agree : ∀ i j, X i → X j → ∀ d ∈ g.demands i, ∀ e ∈ g.demands j,
      d.holder = e.holder → d.field = e.field → d.Due st.graph → e.Due st.graph →
        (st.graph.key d.owner).Equals (st.graph.key e.owner))
    (met : Met g X st d) (hx : X id) (hd : d ∈ g.demands id) (owner : (g.node? d.owner).isSome)
    (due : d.Due st.graph) (there : g.HasField d.holder d.field) :
    (st.graph.valueAt d.holder d.field).Equals (st.graph.key d.owner) := by
  obtain ⟨e, suppliedBy⟩ := (met owner).2 due there
  obtain ⟨i, hi, he⟩ := suppliedBy.demanded
  exact suppliedBy.holds.trans
    (agree i id hi hx e he d hd suppliedBy.holder suppliedBy.field suppliedBy.due due)

/-- **A key goes to the children and to the parents.** In a successful call where no key is asked to
hold another and no two keys are due in one field, a key that the database does not generate stays
as it was given, and the children of its node hold it, whatever it is. The parents that hold it in a
field of their own hold it too, if it counts as assigned. If it does not, a field where no other key
is due is left as it was. -/
theorem Session.saveAll_links_keys {s : Session c (StateM σ)} {g : Graph c} {roots : List NodeId}
    {w w' : σ} {st : SaveState c}
    (apart : ∀ i, g.Reached roots i → ∀ h ∈ g.holdings i, g.keyPlace? h.holder ≠ some h.field)
    (h : (s.saveAll g roots true).run w = ((.ok (), st), w'))
    (agree : ∀ i j, g.Reached roots i → g.Reached roots j →
      ∀ d ∈ g.demands i, ∀ e ∈ g.demands j, d.holder = e.holder → d.field = e.field →
        d.Due st.graph → e.Due st.graph →
          (st.graph.key d.owner).Equals (st.graph.key e.owner))
    {id : NodeId} {n : Node c} (hid : g.Reached roots id) (hn : g.node? id = some n) :
    (n.entity.generatesKey = false → st.graph.key id = n.key) ∧
    (∀ d ∈ g.demands id, d.taken = false → g.HasField d.holder d.field →
      (st.graph.valueAt d.holder d.field).Equals (st.graph.key id)) ∧
    ∀ parent, g.Reached roots parent → ∀ d ∈ g.demands parent, d.taken = true → d.owner = id →
      ((st.graph.key id).isUnassignedKey = false →
        (st.graph.valueAt d.holder d.field).Equals (st.graph.key id)) ∧
      ((∀ i, g.Reached roots i → ∀ e ∈ g.demands i,
          e.holder = d.holder → e.field = d.field → ¬ e.Due st.graph) →
        st.graph.valueAt d.holder d.field = g.valueAt d.holder d.field) := by
  have supplies := supplies_saveAll ⟨apart, Graph.Reached.closed⟩ h
  have there : (g.node? id).isSome := by rw [hn]; rfl
  have met {i : NodeId} (hi : g.Reached roots i) {d : Demand} (hd : d ∈ g.demands i) :
      Met g (g.Reached roots) st d := by
    have visited := mem_visited_saveAll h hi (Graph.isSome_of_demand hd)
    exact (supplies.fresh i visited List.not_mem_nil).2.2 d hd
  refine ⟨fun given => ?_, fun d hd handed field => ?_, fun parent hp d hd taken owner => ?_⟩
  · have key : g.key id = n.key := by rw [Graph.key, hn]; rfl
    refine (supplies.keys id (.inr fun m hm => ?_)).trans key
    rwa [Option.some.inj (hm.symm.trans hn)]
  · obtain ⟨-, owner, -⟩ | ⟨taken, -⟩ := Graph.planned_of_demand hd
    · have held := (met hid hd).equals agree hid hd (by rwa [owner]) (by simp [Demand.Due, handed])
        field
      rwa [owner] at held
    · simp [handed] at taken
  · obtain ⟨handed, -⟩ | ⟨-, holder, -, field⟩ := Graph.planned_of_demand hd
    · simp [taken] at handed
    · refine ⟨fun assigned => ?_, fun none => ?_⟩
      · have held := (met hp hd).equals agree hp hd (by rwa [owner]) (fun _ => owner ▸ assigned)
          (holder ▸ field)
        rwa [owner] at held
      · have place := apart parent hp _ (Graph.mem_holdings_of_demand hd)
        refine (supplies.kept d.toHolding place).resolve_right fun supplied => ?_
        obtain ⟨e, suppliedBy⟩ := supplied
        obtain ⟨i, hi, he⟩ := suppliedBy.demanded
        exact none i hi e he suppliedBy.holder suppliedBy.field suppliedBy.due

namespace Sample

/-- A status under a code that the caller gives, with the tasks that have it. -/
def status : Description where
  name := "Status"
  clauses := [.field { field "Code" .int with isPrimaryKey := true }, many "Tasks" "Task"]

/-- A task with a status. -/
def task : Description where
  name := "Task"
  clauses := [.field generatedKey, .field (field "Title" .text),
    .field (foreignKey "StatusCode" "Status" .aliased true), one "Status" "Status"]

/-- Tasks and their statuses. -/
def board : Catalog := .ofDescriptions [(type "Status", status), (type "Task", task)]

/-- A task whose status, under this code, has another task. -/
def twoTasks (code : Value) : Graph board :=
  ⟨[{ Node.ofValues (type "Task") [.null, .text "Paint"] with
        references := [("Status", .single 1)] },
    { Node.ofValues (type "Status") [code] with references := [("Tasks", .many [2])] },
    Node.ofValues (type "Task") [.null, .text "Clean"]]⟩

/-- A session with these tasks. -/
def filing : Session board (StateM Nat) := ⟨counting, .sqlite, ⟨true, false, 10⟩, []⟩

section TwoTasks

variable (code : Value)

theorem demands_twoTasks (id : NodeId) : (twoTasks code).demands id =
    match id with
    | 0 => [⟨⟨0, 2, 1⟩, true⟩]
    | 1 => [⟨⟨2, 2, 1⟩, false⟩]
    | _ => [] := by
  rw [Graph.demands_of_frame (show (twoTasks code).frame = (twoTasks .null).frame from rfl)]
  match id with
  | 0 | 1 | 2 => decide +kernel
  | _ + 3 => rfl

theorem apart_twoTasks (id : NodeId) {h : Holding} (hh : h ∈ (twoTasks code).holdings id) :
    (twoTasks code).keyPlace? h.holder ≠ some h.field := by
  rw [← Graph.map_demands, demands_twoTasks] at hh
  split at hh <;> simp at hh <;> subst hh <;> exact of_decide_eq_true rfl

/-- No field is asked for twice. -/
theorem agree_twoTasks (now : Graph board) (i j : NodeId) {d e : Demand}
    (hd : d ∈ (twoTasks code).demands i) (he : e ∈ (twoTasks code).demands j) :
    d.holder = e.holder → (now.key d.owner).Equals (now.key e.owner) := by
  rw [demands_twoTasks] at hd he
  intro holder
  split at hd <;> split at he <;> simp_all [Value.Equals.refl]

end TwoTasks

/-- The tasks after they have been saved. -/
def filed (code : Value) : SaveState board := ((filing.saveAll (twoTasks code) [0] true).run 1).1.2

theorem saveAll_twoTasks_eq :
    ∃ w, (filing.saveAll (twoTasks (.int 7)) [0] true).run 1 = ((.ok (), filed (.int 7)), w) := by
  have succeeds : ((filing.saveAll (twoTasks (.int 7)) [0] true).run 1).1.1 = .ok () := by
    decide +kernel
  rw [filed]
  generalize (filing.saveAll (twoTasks (.int 7)) [0] true).run 1 = call at succeeds ⊢
  obtain ⟨⟨answer, st⟩, w⟩ := call
  cases succeeds
  exact ⟨w, rfl⟩

/-- Under the code 7 both tasks hold the key of the status. -/
theorem links_of_code :
    (filed (.int 7)).graph.key 1 = .int 7 ∧ ((filed (.int 7)).graph.valueAt 2 2).Equals (.int 7) ∧
      ((filed (.int 7)).graph.valueAt 0 2).Equals (.int 7) := by
  have reached : (twoTasks (.int 7)).Reached [0] 0 := Graph.reached_of_mem 0 List.mem_cons_self
  have status : (twoTasks (.int 7)).Reached [0] 1 :=
    reached.closed 0 1 (List.mem_cons_self : 1 ∈ [1])
  obtain ⟨w, run⟩ := saveAll_twoTasks_eq
  obtain ⟨key, children, parents⟩ := Session.saveAll_links_keys
    (fun i _ _ hh => apart_twoTasks (.int 7) i hh) run
    (fun i j _ _ _ hd _ he holder _ _ _ => agree_twoTasks (.int 7) _ i j hd he holder) status rfl
  have key : (filed (.int 7)).graph.key 1 = .int 7 := key (by decide)
  rw [key] at children parents
  have child := children ⟨⟨2, 2, 1⟩, false⟩ (by simp [demands_twoTasks]) rfl ⟨_, rfl, by decide⟩
  have parent := parents 0 reached ⟨⟨0, 2, 1⟩, true⟩ (by simp [demands_twoTasks]) rfl rfl
  exact ⟨key, child, parent.1 rfl⟩

/-- **Under the code 0** the status is stored, and the task that it has holds its key. The task that
has the status does not: its link is null, in memory and in the row that was sent. -/
theorem no_link_of_zero :
    let g := twoTasks (.int 0)
    let st := filed (.int 0)
    (∀ i, ∀ h ∈ g.holdings i, g.keyPlace? h.holder ≠ some h.field) ∧
    (∀ i j, ∀ d ∈ g.demands i, ∀ e ∈ g.demands j, d.holder = e.holder → d.field = e.field →
      (st.graph.key d.owner).Equals (st.graph.key e.owner)) ∧
    ((filing.saveAll g [0] true).run 1).1.1 = .ok () ∧ st.graph.key 1 = .int 0 ∧
    st.graph.valueAt 2 2 = .int 0 ∧ st.graph.valueAt 0 2 = .null ∧
    st.journal = [.persist 0, .insert 0 [.null, .text "Paint", .null],
      .persist 1, .update 1 [.int 0],
      .persist 2, .insert 2 [.null, .text "Clean", .int 0]] :=
  ⟨fun i _ hh => apart_twoTasks (.int 0) i hh,
    fun i j _ hd _ he holder _ => agree_twoTasks (.int 0) _ i j hd he holder, by decide +kernel⟩

end Sample

end RowGraph
