import RowGraph.Proofs.Save.Runs
import RowGraph.Proofs.Save.Walk

/-!
# The course of a call

Where a call saves all references, and nothing is said of what it leaves when it fails, only whether
it may, what is to hold between its steps is a `Course`: a walk that leaves nothing to be said.

A law is about a key that some plan asks a field to hold, since saving sets no others.

* `Course.walk`: the course as a walk.
* `Course.yields_saveAll`: what holds in the beginning of a call holds in the end.
-/

namespace RowGraph

variable {c : Catalog} {σ : Type}

open Process SaveState Saving

/-- What holds between the steps of calls that save in a region of a graph. Where they may, the
calls may also fail. -/
structure Course (s : Session c (StateM σ)) (g : Graph c) (X : NodeId → Prop) (may : Prop) where
  /-- What holds between two visits. -/
  Inv : SaveState c → σ → Prop
  /-- What holds when a node has been marked and is yet to be written. -/
  Begun : NodeId → SaveState c → σ → Prop
  /-- The key that a parent hands to its children. -/
  Key : NodeId → Value → Prop
  /-- Whether nodes are written again when their children have been saved. -/
  Again : Prop
  frame {st w} : Inv st w → st.graph.frame = g.frame
  frame_begun {st w id} : Begun id st w → st.graph.frame = g.frame
  key {st w} (id) : Inv st w → Key id (st.graph.key id)
  plans {st w id n} : Inv st w → X id → st.graph.node? id = some n → id ∉ st.visited →
    ∀ why, n.entity.plans c .all = .error why → may
  begin {st w id n} {plans : List (Plan c n.entity)} : Inv st w → X id →
    st.graph.node? id = some n → id ∉ st.visited → n.entity.plans c .all = .ok plans →
    Begun id (st.marked id) w
  /-- The node takes over the key of a child that has one. -/
  link {st w id field child} : Begun id st w → X id → ⟨id, field, child⟩ ∈ g.holdings id →
    (st.graph.key child).isUnassignedKey = false →
    Begun id (st.withValue id field (st.graph.key child)) w
  persist {st w id n} : Begun id st w → X id → st.graph.node? id = some n →
    Yields may (fun _ => Inv) (persist s id) st w
  /-- A child that has not been visited gets the key of its parent. -/
  give {st w id field child key} : Inv st w → X id → ⟨child, field, id⟩ ∈ g.holdings id →
    child ∉ st.visited → Key id key → Inv (st.withValue child field key) w
  /-- A child that has been visited gets it if it holds another, and is written again. -/
  renew {st w id field child key} : Inv st w → X id → ⟨child, field, id⟩ ∈ g.holdings id →
    child ∈ st.visited → (st.graph.valueAt child field).same key = false → Key id key →
    Yields may (fun _ => Inv) (update s child) (st.withValue child field key) w
  /-- A parent takes over the key of a child that has been saved if it holds another. -/
  take {st w id field child} : Inv st w → X id → ⟨id, field, child⟩ ∈ g.holdings id →
    (st.graph.key child).isUnassignedKey = false →
    (st.graph.valueAt id field).same (st.graph.key child) = false →
    Inv (st.withValue id field (st.graph.key child)) w ∧ Again
  again {st w id} : Again → Inv st w → Yields may (fun _ => Inv) (update s id) st w

namespace Course

variable {s : Session c (StateM σ)} {g : Graph c} {X : NodeId → Prop} {may : Prop}
  (C : Course s g X may) {st : SaveState c} {w : σ}

/-- The course as a walk, which leaves nothing to be said when it fails. -/
def walk : Walk s g X true where
  Inv := C.Inv
  Begun := C.Begun
  Failed _ _ := may
  Key := C.Key
  Again := C.Again
  frame := C.frame
  frame_begun := C.frame_begun
  key := C.key
  plans hst hx hn hid why hp := C.plans hst hx hn hid why hp
  begin hst hx hn hid hp := C.begin hst hx hn hid hp
  link := C.link
  persist := C.persist
  give := C.give
  renew := C.renew
  take := C.take
  again hagain hst _ := C.again hagain hst

/-- What holds in the beginning of a call holds in the end. -/
theorem yields_saveAll (closed : ∀ i, X i → ∀ target ∈ g.planned i, X target) (fuel : Nat)
    {roots : List NodeId} (hx : ∀ root ∈ roots, X root) (hst : C.Inv st w) :
    Yields may (fun _ => C.Inv) (roots.forM (saveNode s true fuel)) st w :=
  C.walk.ends_saveAll closed fuel hx hst

end Course

end RowGraph
