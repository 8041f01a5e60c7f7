import Mathlib.Data.List.Nodup
import Mathlib.Data.List.Perm.Subperm
import RowGraph.Proofs.Compile.Leaves
import RowGraph.Proofs.Compile.Parts

/-!
# Evaluating captured values

A captured value is read from its source while an expression is compiled, and what a source answers
may depend on all that was read before. Two captured values of one source are told apart by where
they stand.

A computation over an expression is looked at together with those over the expression in which some
of its captured values are written as values. So what one of them evaluates can be put into its
place in another.

Results:
* `Expr.captures`: the captured values in an expression; `nodup_captures`, each in its own place.
* `Expr.answered`: the expression with values in the places of captured values.
* `Evaluates`, `EvaluatesOnce`: what a computation evaluates; `evaluatesOnce_bind` composes.
* `CapturedOnce`: the same for one expression; `EvaluatesOnce.capturedOnce`.
-/

namespace RowGraph

open Attempt

/-! ## Captured values and where they stand -/

namespace Expr

/-- A captured value in an expression: where it stands, and its source. -/
structure Capture where
  path : Path
  source : Nat
deriving DecidableEq, Repr

namespace Capture

/-- A captured value of the `i`th part, as one of the whole. -/
def under (i : Nat) (k : Capture) : Capture := ⟨i :: k.path, k.source⟩

end Capture

mutual

/-- The captured values in an expression, at every depth, also where they are never read: below a
mark that is not allowed, or in a pattern that is not a text. -/
def captures : Expr → List Capture
  | .captured source => [⟨[], source⟩]
  | .not e | .negate e | .isIn e _ | .aggregate _ e | .aliased e _ | .ordered e _ | .cast e _ =>
    e.captures.map (Capture.under 0)
  | .compare _ left right | .connect _ left right | .compute _ left right | .like _ left right =>
    left.captures.map (Capture.under 0) ++ right.captures.map (Capture.under 1)
  | .coalesce args | .function _ args => capturesFrom 0 args
  | .column _ | .literal _ | .existence _ _ | .aggregateAll _ | .custom _ | .qualified _ _ _
  | .endOfTuple | .allFields _ _ => []

/-- The captured values in several parts, the first of them the `i`th. -/
def capturesFrom (i : Nat) : List Expr → List Capture
  | [] => []
  | e :: rest => e.captures.map (Capture.under i) ++ capturesFrom (i + 1) rest

end

/-- What is known of the captured values, by where they stand. -/
abbrev Answers := Path → Option Value

/-- Nothing is known. -/
def Answers.none : Answers := fun _ => Option.none

/-- A captured value, as the value if it is known. -/
def answer (answers : Answers) (p : Path) : Expr → Expr
  | .captured source =>
    match answers p with
    | some v => .literal v
    | Option.none => .captured source
  | leaf => leaf

/-- The expression in which the captured values that are known are written as values. -/
def answered (answers : Answers) (e : Expr) : Expr := e.mapLeaves (answer answers)

/-- Several parts in which the captured values that are known are written as values, the first of
them the `i`th. -/
def answeredFrom (answers : Answers) (i : Nat) (es : List Expr) : List Expr :=
  mapLeavesFrom (answer answers) i es

theorem answer_none : answer Answers.none = fun _ leaf => leaf := by
  funext p leaf
  cases leaf <;> rfl

theorem answered_none (e : Expr) : e.answered Answers.none = e := by
  rw [answered, answer_none, mapLeaves_id]

theorem answeredFrom_none (i : Nat) (es : List Expr) : answeredFrom Answers.none i es = es := by
  rw [answeredFrom, answer_none, mapLeavesFrom_id]

/-! ### Each in its own place -/

theorem nodup_under {ks : List Capture} (i : Nat) (h : (ks.map Capture.path).Nodup) :
    ((ks.map (Capture.under i)).map Capture.path).Nodup := by
  have paths : (ks.map (Capture.under i)).map Capture.path = (ks.map Capture.path).map (i :: ·) := by
    simp [Function.comp_def, Capture.under]
  rw [paths]
  exact List.Nodup.map (fun _ _ same => (List.cons.inj same).2) h

theorem exists_of_mem_capturesFrom {i : Nat} {es : List Expr} {k : Capture}
    (h : k ∈ capturesFrom i es) : ∃ j p, k.path = j :: p ∧ i ≤ j := by
  induction es generalizing i with
  | nil => cases h
  | cons e rest ih =>
    rw [capturesFrom, List.mem_append] at h
    obtain first | later := h
    · obtain ⟨k', -, rfl⟩ := List.mem_map.mp first
      exact ⟨i, k'.path, rfl, Nat.le_refl i⟩
    · obtain ⟨j, p, path, le⟩ := ih later
      exact ⟨j, p, path, Nat.le_of_succ_le le⟩

/-- Captured values of one part and of later ones stand in different places. -/
theorem nodup_under_append {ks others : List Capture} {i : Nat} (h : (ks.map Capture.path).Nodup)
    (hs : (others.map Capture.path).Nodup)
    (later : ∀ k ∈ others, ∃ j p, k.path = j :: p ∧ i + 1 ≤ j) :
    ((ks.map (Capture.under i) ++ others).map Capture.path).Nodup := by
  rw [List.map_append]
  refine List.Nodup.append (nodup_under i h) hs fun p first second => ?_
  obtain ⟨_, hk, rfl⟩ := List.mem_map.mp first
  obtain ⟨k, -, rfl⟩ := List.mem_map.mp hk
  obtain ⟨k', hk', same⟩ := List.mem_map.mp second
  obtain ⟨j, p, path, le⟩ := later k' hk'
  have here : j = i := (List.cons.inj (path.symm.trans same)).1
  omega

theorem nodup_under_under {ks others : List Capture} (h : (ks.map Capture.path).Nodup)
    (hs : (others.map Capture.path).Nodup) :
    ((ks.map (Capture.under 0) ++ others.map (Capture.under 1)).map Capture.path).Nodup := by
  refine nodup_under_append h (nodup_under 1 hs) fun k hk => ?_
  obtain ⟨k', -, rfl⟩ := List.mem_map.mp hk
  exact ⟨1, k'.path, rfl, Nat.le_refl 1⟩

mutual

/-- No two captured values stand in one place. -/
theorem nodup_captures : ∀ e : Expr, (e.captures.map Capture.path).Nodup
  | .captured _ => List.nodup_singleton _
  | .not e | .negate e | .isIn e _ | .aggregate _ e | .aliased e _ | .ordered e _ | .cast e _ => by
    rw [captures]
    exact nodup_under 0 (nodup_captures e)
  | .compare _ left right | .connect _ left right | .compute _ left right | .like _ left right => by
    rw [captures]
    exact nodup_under_under (nodup_captures left) (nodup_captures right)
  | .coalesce args | .function _ args => by
    rw [captures]
    exact nodup_capturesFrom 0 args
  | .column _ | .literal _ | .existence _ _ | .aggregateAll _ | .custom _ | .qualified _ _ _
  | .endOfTuple | .allFields _ _ => List.nodup_nil

theorem nodup_capturesFrom (i : Nat) : ∀ es : List Expr,
    ((capturesFrom i es).map Capture.path).Nodup
  | [] => List.nodup_nil
  | e :: rest => by
    rw [capturesFrom]
    exact nodup_under_append (nodup_captures e) (nodup_capturesFrom (i + 1) rest)
      fun _ => exists_of_mem_capturesFrom

end

/-- The captured values that are operands or patterns themselves. -/
def ownCaptures : Expr → List Capture
  | .captured source => [⟨[], source⟩]
  | _ => []

/-- The captured values of an operand that is not a value itself. -/
def innerCaptures (e : Expr) : List Capture := if e.isValue then [] else e.captures

theorem captures_eq (e : Expr) : e.captures = e.ownCaptures ++ e.innerCaptures := by
  cases e <;> simp [captures, ownCaptures, innerCaptures, isValue]

end Expr

/-! ## Evaluations -/

open RowGraph.Expr (Capture Answers Path)

/-- A captured value that was evaluated, and the value that it gave. -/
structure Evaluation where
  capture : Capture
  value : Value
deriving DecidableEq

namespace Evaluation

/-- An evaluation in the `i`th part, as one of the whole. -/
def under (i : Nat) (v : Evaluation) : Evaluation := ⟨v.capture.under i, v.value⟩

/-- The captured values that were evaluated. -/
def captures (log : List Evaluation) : List Capture := log.map capture

/-- The sources that were read. -/
def sources (log : List Evaluation) : List Nat := (captures log).map Capture.source

/-- The values that evaluations gave, by where the captured values stand. -/
def answers (log : List Evaluation) : Answers :=
  fun p => (log.find? fun v => v.capture.path == p).map value

/-- The values are known that these evaluations gave. -/
def Known (log : List Evaluation) (known : Answers) : Prop :=
  ∀ v ∈ log, known v.capture.path = some v.value

end Evaluation

/-- Each value is the one that its source gives at its turn, with these sources read before. -/
def Readings.Give (r : Readings) (before : List Nat) : List Evaluation → Prop
  | [] => True
  | v :: rest =>
    v.value = r before v.capture.source ∧ r.Give (before ++ [v.capture.source]) rest

namespace Evaluation

@[simp] theorem sources_append (log more : List Evaluation) :
    sources (log ++ more) = sources log ++ sources more := by
  simp [sources, captures]

@[simp] theorem sources_under (i : Nat) (log : List Evaluation) :
    sources (log.map (under i)) = sources log := by
  simp [sources, captures, Function.comp_def, under, Capture.under]

theorem captures_append (log more : List Evaluation) :
    captures (log ++ more) = captures log ++ captures more := List.map_append

theorem captures_under (i : Nat) (log : List Evaluation) :
    captures (log.map (under i)) = (captures log).map (Capture.under i) := by
  simp [captures, Function.comp_def, under]

theorem give_append {r : Readings} {before : List Nat} {log more : List Evaluation}
    (h : r.Give before log) (hs : r.Give (before ++ sources log) more) :
    r.Give before (log ++ more) := by
  induction log generalizing before with
  | nil => simpa [sources, captures] using hs
  | cons v rest ih =>
    refine ⟨h.1, ih h.2 ?_⟩
    simpa [sources, captures] using hs

theorem give_under {r : Readings} {before : List Nat} {log : List Evaluation} (i : Nat)
    (h : r.Give before log) : r.Give before (log.map (under i)) := by
  induction log generalizing before with
  | nil => trivial
  | cons v rest ih => exact ⟨h.1, ih h.2⟩

variable {log more : List Evaluation} {known : Answers}

theorem Known.left (h : Known (log ++ more) known) : Known log known :=
  fun v hv => h v (List.mem_append_left _ hv)

theorem Known.right (h : Known (log ++ more) known) : Known more known :=
  fun v hv => h v (List.mem_append_right _ hv)

theorem Known.below {i : Nat} (h : Known (log.map (under i)) known) :
    Known log (Path.below i known) :=
  fun v hv => h (v.under i) (List.mem_map_of_mem hv)

/-- Where no two captured values stand in one place, all values are known. -/
theorem known_answers (once : ((captures log).map Capture.path).Nodup) :
    Known log (answers log) := by
  intro v hv
  induction log with
  | nil => cases hv
  | cons w rest ih =>
    obtain ⟨fresh, once⟩ := List.nodup_cons.mp once
    obtain rfl | later := List.mem_cons.mp hv
    · simp [answers]
    · have other : w.capture.path ≠ v.capture.path := by
        intro same
        rw [same] at fresh
        exact fresh (List.mem_map_of_mem (List.mem_map_of_mem later))
      have found := ih once later
      simpa [answers, List.find?_cons_of_neg, other] using found

end Evaluation

/-! ## What a computation evaluates -/

namespace Compiler

open Evaluation (Known)

variable {α β : Type}

/-- A computation over an expression, next to those over the expression with some of its captured
values known. With these sources read before it evaluates some of these captured values. -/
structure Evaluates (t : Compiler) (X : Answers → Compilation α) (captures : List Capture)
    (before : List Nat) (log : List Evaluation) : Prop where
  /-- What is read are the sources of what is evaluated. -/
  reads : (ending (X .none) before).2 = before ++ Evaluation.sources log
  give : t.readings.Give before log
  /-- Nothing is evaluated twice. -/
  once : (Evaluation.captures log).Subperm captures
  /-- A success has evaluated them all. -/
  all : ∀ a after, Runs (X .none) before a after → (Evaluation.captures log).Perm captures
  /-- With the values known nothing is read, and the result is the same. -/
  same : ∀ known, Known log known → ∀ past,
    ending (X known) past = ((ending (X .none) before).1, past)

/-- Each of these captured values is evaluated once at most, and once by a success, whatever has
been read before. -/
def EvaluatesOnce (t : Compiler) (X : Answers → Compilation α) (captures : List Capture) : Prop :=
  ∀ before, ∃ log, t.Evaluates X captures before log

variable {t : Compiler} {X : Answers → Compilation α} {ks more : List Capture}

theorem evaluatesOnce_lift (r : Except CompileError α) : t.EvaluatesOnce (fun _ => liftM r) [] :=
  fun before => ⟨[], (List.append_nil before).symm, trivial, .refl _, fun _ _ _ => .refl _,
    fun _ _ _ => rfl⟩

theorem evaluatesOnce_pure (a : α) : t.EvaluatesOnce (fun _ => pure a) [] :=
  evaluatesOnce_lift (.ok a)

/-- A refusal leaves all that comes after it unread. -/
theorem evaluatesOnce_throw (why : CompileError) (ks : List Capture) :
    t.EvaluatesOnce (fun _ => (throw why : Compilation α)) ks :=
  fun before => ⟨[], (List.append_nil before).symm, trivial, List.nil_subperm,
    fun _ _ run => absurd run runs_throw, fun _ _ _ => rfl⟩

/-- A captured value by itself: read, unless it is known. -/
def readUnknown (t : Compiler) (source : Nat) (known : Answers) : Compilation Value :=
  match known [] with
  | some v => pure v
  | none => t.read source

theorem evaluatesOnce_read (t : Compiler) (source : Nat) :
    t.EvaluatesOnce (t.readUnknown source) [⟨[], source⟩] := by
  intro before
  refine ⟨[⟨⟨[], source⟩, t.readings before source⟩], rfl, ⟨rfl, trivial⟩, .refl _,
    fun _ _ _ => .refl _, fun known h past => ?_⟩
  have value : known [] = some (t.readings before source) := h _ List.mem_cons_self
  rw [readUnknown, value]
  rfl

theorem EvaluatesOnce.congr {Y : Answers → Compilation α} (h : t.EvaluatesOnce X ks)
    (same : ∀ known, Y known = X known) : t.EvaluatesOnce Y ks := by
  rwa [funext same]

theorem EvaluatesOnce.perm (h : t.EvaluatesOnce X ks) (same : ks.Perm more) :
    t.EvaluatesOnce X more := by
  intro before
  obtain ⟨log, l⟩ := h before
  exact ⟨log, l.reads, l.give, l.once.trans same.subperm, fun a after run =>
    (l.all a after run).trans same, l.same⟩

/-- Of the `i`th part, as of the whole. -/
theorem EvaluatesOnce.under (h : t.EvaluatesOnce X ks) (i : Nat) :
    t.EvaluatesOnce (fun known => X (Path.below i known)) (ks.map (Capture.under i)) := by
  intro before
  obtain ⟨log, l⟩ := h before
  refine ⟨log.map (Evaluation.under i), ?_, Evaluation.give_under i l.give, ?_, ?_,
    fun known hk => l.same _ hk.below⟩
  · rw [Evaluation.sources_under]
    exact l.reads
  · rw [Evaluation.captures_under]
    obtain ⟨ks', same, within⟩ := l.once
    exact ⟨_, same.map _, within.map _⟩
  · intro a after run
    rw [Evaluation.captures_under]
    exact (l.all a after run).map _

section Bind

variable {F : Answers → α → Compilation β} {before : List Nat} {log rest : List Evaluation}

/-- Where the first one fails, nothing of the second one is evaluated. -/
theorem Evaluates.bind_error {why : CompileError} (l : t.Evaluates X ks before log)
    (failed : (ending (X .none) before).1 = .error why) :
    t.Evaluates (fun known => X known >>= F known) (ks ++ more) before log := by
  have first : ending (X .none) before = (.error why, before ++ Evaluation.sources log) :=
    Prod.ext failed l.reads
  have whole : ending (X .none >>= F .none) before =
      (.error why, before ++ Evaluation.sources log) := by
    rw [ending_bind, first]
  refine ⟨by rw [whole], l.give, l.once.trans (List.sublist_append_left ks more).subperm, ?_, ?_⟩
  · intro b after run
    rw [Runs, whole] at run
    cases run
  · intro known hk past
    rw [whole, ending_bind, l.same known hk past, first]

/-- Where the first one succeeds, what both evaluate is evaluated one after the other. -/
theorem Evaluates.bind_ok {a : α} (l : t.Evaluates X ks before log)
    (first : Runs (X .none) before a (before ++ Evaluation.sources log))
    (l' : t.Evaluates (fun known => F known a) more (before ++ Evaluation.sources log) rest) :
    t.Evaluates (fun known => X known >>= F known) (ks ++ more) before (log ++ rest) := by
  have whole : ending (X .none >>= F .none) before =
      ending (F .none a) (before ++ Evaluation.sources log) := by
    rw [ending_bind, first]
  refine ⟨?_, Evaluation.give_append l.give l'.give, ?_, ?_, ?_⟩
  · rw [whole, l'.reads, Evaluation.sources_append, List.append_assoc]
  · rw [Evaluation.captures_append]
    exact l.once.append l'.once
  · intro b after run
    rw [Runs, whole] at run
    rw [Evaluation.captures_append]
    exact (l.all a _ first).append (l'.all b after run)
  · intro known hk past
    rw [whole, ending_bind, l.same known hk.left past, first]
    exact l'.same known hk.right past

end Bind

/-- **One after the other.** What comes second is looked at only where the first one succeeds, with
its result. -/
theorem evaluatesOnce_bind {F : Answers → α → Compilation β} (h : t.EvaluatesOnce X ks)
    (hs : ∀ a, (∃ before after, Runs (X .none) before a after) →
      t.EvaluatesOnce (fun known => F known a) more) :
    t.EvaluatesOnce (fun known => X known >>= F known) (ks ++ more) := by
  intro before
  obtain ⟨log, l⟩ := h before
  cases first : (ending (X .none) before).1 with
  | error why => exact ⟨log, l.bind_error first⟩
  | ok a =>
    have run : Runs (X .none) before a (before ++ Evaluation.sources log) := Prod.ext first l.reads
    obtain ⟨rest, l'⟩ := hs a ⟨before, _, run⟩ (before ++ Evaluation.sources log)
    exact ⟨log ++ rest, l.bind_ok run l'⟩

theorem evaluatesOnce_return (f : α → β) (h : t.EvaluatesOnce X ks) :
    t.EvaluatesOnce (fun known => do return f (← X known)) ks := by
  have both := evaluatesOnce_bind h fun a _ => evaluatesOnce_pure (t := t) (f a)
  rwa [List.append_nil] at both

/-- A refusal in front of what follows. -/
theorem evaluatesOnce_unless (refused : Prop) [Decidable refused] (why : CompileError)
    {F : Answers → PUnit → Compilation α} (h : t.EvaluatesOnce (fun known => F known ⟨⟩) ks) :
    t.EvaluatesOnce
      (fun known => if refused then throw why >>= F known else F known ⟨⟩) ks := by
  by_cases hr : refused
  · simp only [if_pos hr]
    have refusal : t.EvaluatesOnce (fun known => throw why >>= F known) ([] ++ ks) :=
      evaluatesOnce_bind (evaluatesOnce_throw why []) fun a ⟨_, _, run⟩ => absurd run runs_throw
    exact refusal
  · simpa only [if_neg hr] using h

/-! ## One expression -/

/-- What a compilation evaluates of these captured values, with these sources read before, next to
the compilation with the values in their places. -/
structure CapturedOnce (t : Compiler) (captures : List Capture) (before : List Nat)
    (log : List Evaluation) (asCaptured asValues : Compilation α) : Prop where
  /-- What is read are the sources of what is evaluated, in this order. -/
  reads : (ending asCaptured before).2 = before ++ Evaluation.sources log
  /-- The values are those that the sources give, each at its turn. -/
  give : t.readings.Give before log
  /-- What is evaluated are captured values of the expression. -/
  within : Evaluation.captures log ⊆ captures
  /-- In no place is a captured value evaluated twice. -/
  once : ((Evaluation.captures log).map Capture.path).Nodup
  /-- A success has evaluated all of them. -/
  all : ∀ a after, Runs asCaptured before a after → (Evaluation.captures log).Perm captures
  /-- With the values in their places the result is the same, and nothing is read. -/
  same : ∀ past, ending asValues past = ((ending asCaptured before).1, past)

theorem EvaluatesOnce.capturedOnce (h : t.EvaluatesOnce X ks)
    (places : (ks.map Capture.path).Nodup) (before : List Nat) :
    ∃ log, t.CapturedOnce ks before log (X .none) (X (Evaluation.answers log)) := by
  obtain ⟨log, l⟩ := h before
  have once : ((Evaluation.captures log).map Capture.path).Nodup := by
    obtain ⟨ks', same, within⟩ := l.once
    exact (same.map Capture.path).nodup_iff.mp (places.sublist (within.map _))
  exact ⟨log, l.reads, l.give, l.once.subset, once, l.all, l.same _ (Evaluation.known_answers once)⟩

end Compiler

end RowGraph
