import RowGraph.Projection
import RowGraph.Proofs.Compile.Evaluations

/-!
# Captured values are evaluated once

Most parts of an expression read a captured value when they come to it. A comparison reads its own
values ahead of its other operands, to see whether one of them is null, and a search reads its
pattern first. In either way the captured value in each place is read once at most, and treated as
the value would be if it were written there.

Results:
* `evaluatesOnce_part`: a part evaluates each of its captured values once.
* **`captured_values_once`**: so do expressions in clauses, items of projections and projections.
-/

namespace RowGraph

open Attempt

open RowGraph.Expr (Capture Answers Path)

namespace Compiler

variable {β : Type} {t : Compiler}

/-! ## Parts -/

/-- A captured value by itself is read, or is the value that is known. -/
theorem evaluatesOnce_captured (f : Value → β) (source : Nat) {F : Expr → Compilation β}
    (value : ∀ v, F (.literal v) = pure (f v))
    (read : F (.captured source) = do return f (← t.read source)) :
    t.EvaluatesOnce (fun known => F (Expr.answer known [] (.captured source))) [⟨[], source⟩] := by
  refine (evaluatesOnce_return f (evaluatesOnce_read t source)).congr fun known => ?_
  rw [Expr.answer, readUnknown]
  cases known [] with
  | none => exact read
  | some v => exact value v

theorem evaluatesOnce_value? (e : Expr) :
    t.EvaluatesOnce (fun known => t.value? (e.answered known)) e.ownCaptures := by
  cases e with
  | captured source =>
    simp only [Expr.answered, Expr.mapLeaves]
    exact evaluatesOnce_captured some source (fun _ => rfl) rfl
  | literal v =>
    simp only [Expr.answered, Expr.mapLeaves]
    exact evaluatesOnce_pure (some v)
  | _ =>
    simp only [Expr.answered, Expr.mapLeaves]
    exact evaluatesOnce_pure none

/-- What reading an operand gives is a value exactly if the operand is one. -/
theorem isSome_of_runs_value? {e : Expr} {v : Option Value}
    (h : ∃ before after, Runs (t.value? (e.answered .none)) before v after) :
    v.isSome = e.isValue := by
  obtain ⟨before, after, run⟩ := h
  rw [Expr.answered_none, Runs, ending_value?] at run
  obtain ⟨value, -⟩ := Prod.mk.inj run
  rw [← Except.ok.inj value, isSome_valueAt]

/-- An operand of a comparison has been read already if it is a value. -/
theorem evaluatesOnce_operand {x : Context} {e : Expr} {v : Option Value}
    (value : v.isSome = e.isValue)
    (h : t.EvaluatesOnce (fun known => t.part x.value (e.answered known))
      e.captures) :
    t.EvaluatesOnce (fun known => t.operand x (e.answered known) v)
      e.innerCaptures := by
  rw [Expr.innerCaptures, ← value]
  cases v with
  | none => exact h
  | some v => exact evaluatesOnce_pure _

theorem evaluatesOnce_comparison {x : Context} (op : Comparison) {left right : Expr}
    {l r : Option Value} (hl : l.isSome = left.isValue) (hr : r.isSome = right.isValue)
    (hleft : t.EvaluatesOnce
      (fun known => t.part x.value (left.answered known)) left.captures)
    (hright : t.EvaluatesOnce
      (fun known => t.part x.value (right.answered known)) right.captures) :
    t.EvaluatesOnce
      (fun known => t.comparison x op
        (left.answered (Path.below 0 known))
        (right.answered (Path.below 1 known)) l r)
      (left.innerCaptures.map (Capture.under 0) ++ right.innerCaptures.map (Capture.under 1)) := by
  have ol := (evaluatesOnce_operand hl hleft).under 0
  have or := (evaluatesOnce_operand hr hright).under 1
  simp only [comparison_eq]
  cases op.nullTest? with
  | none => exact evaluatesOnce_bind ol fun a _ => evaluatesOnce_return _ or
  | some test =>
    dsimp only
    split
    · next null =>
      have read : right.innerCaptures = [] := if_pos (hr.symm.trans (by rw [null]; rfl))
      rw [read, List.map_nil, List.append_nil]
      exact evaluatesOnce_return (Fragment.wrap "(" test) ol
    · split
      · next null =>
        have read : left.innerCaptures = [] := if_pos (hl.symm.trans (by rw [null]; rfl))
        rw [read, List.map_nil, List.nil_append]
        exact evaluatesOnce_return (Fragment.wrap "(" test) or
      · exact evaluatesOnce_bind ol fun a _ => evaluatesOnce_return _ or

/-- A search whose pattern has been read: what is left of the pattern is never compiled. -/
theorem evaluatesOnce_search {x : Context} (kind : LikeKind) {e pattern : Expr} {v : Option Value}
    (value : v.isSome = pattern.isValue)
    (h : t.EvaluatesOnce (fun known => t.part x.value (e.answered known))
      e.captures) :
    t.EvaluatesOnce
      (fun known => match v with
        | some (.text text) => do
          return like kind (← t.part x.value (e.answered (Path.below 0 known))) text
        | _ => throw (.unknownPattern kind))
      (e.captures.map (Capture.under 0) ++ pattern.innerCaptures.map (Capture.under 1)) := by
  split
  · have read : pattern.innerCaptures = [] := if_pos value.symm
    rw [read, List.map_nil, List.append_nil]
    exact evaluatesOnce_return (like kind · _) (h.under 0)
  · exact evaluatesOnce_throw _ _

mutual

/-- **A part evaluates each of its captured values once.** -/
theorem evaluatesOnce_part (t : Compiler) (x : Context) : ∀ e : Expr,
    t.EvaluatesOnce (fun known => t.part x (e.answered known)) e.captures
  | .captured source => by
    simp only [Expr.answered, Expr.mapLeaves]
    refine evaluatesOnce_captured (t.literal x) source (fun v => ?_) ?_
    · rw [part]
    · rw [part]
  | .column r => by
    simp only [Expr.answered, Expr.mapLeaves, Expr.answer, part]
    exact evaluatesOnce_lift _
  | .literal v => by
    simp only [Expr.answered, Expr.mapLeaves, Expr.answer, part]
    exact evaluatesOnce_pure _
  | .not e => by
    simp only [Expr.answered, Expr.mapLeaves, part]
    exact evaluatesOnce_return _ ((evaluatesOnce_part t x.condition e).under 0)
  | .negate e => by
    simp only [Expr.answered, Expr.mapLeaves, part]
    exact evaluatesOnce_return _ ((evaluatesOnce_part t x.arithmetic e).under 0)
  | .compare op left right => by
    simp only [Expr.answered, Expr.mapLeaves, part_compare]
    have own := evaluatesOnce_bind ((evaluatesOnce_value? left).under 0) fun l hl =>
      evaluatesOnce_bind ((evaluatesOnce_value? right).under 1) fun r hr =>
        evaluatesOnce_comparison op (isSome_of_runs_value? hl) (isSome_of_runs_value? hr)
          (evaluatesOnce_part t x.value left) (evaluatesOnce_part t x.value right)
    -- A captured value on the right is read before those inside of the left operand.
    refine own.perm ?_
    rw [Expr.captures, left.captures_eq, right.captures_eq, List.map_append, List.map_append,
      List.append_assoc]
    exact (List.perm_append_comm_assoc _ _ _).append_left _
  | .connect op left right => by
    simp only [Expr.answered, Expr.mapLeaves, part]
    exact evaluatesOnce_bind ((evaluatesOnce_part t x.condition left).under 0) fun _ _ =>
      evaluatesOnce_return _ ((evaluatesOnce_part t x.condition right).under 1)
  | .compute op left right => by
    simp only [Expr.answered, Expr.mapLeaves, part]
    exact evaluatesOnce_bind ((evaluatesOnce_part t x.arithmetic left).under 0) fun _ _ =>
      evaluatesOnce_return _ ((evaluatesOnce_part t x.arithmetic right).under 1)
  | .coalesce args => by
    simp only [Expr.answered, Expr.mapLeaves, part, Expr.length_mapLeavesFrom]
    exact evaluatesOnce_unless _ _ (evaluatesOnce_return _ (evaluatesOnce_parts t x.value 0 args))
  | .function name args => by
    simp only [Expr.answered, Expr.mapLeaves, part]
    have all := evaluatesOnce_bind (evaluatesOnce_parts t x.value 0 args) fun fs _ =>
      evaluatesOnce_lift (t := t) (t.function name fs)
    rwa [List.append_nil] at all
  | .like kind e pattern => by
    simp only [Expr.answered, Expr.mapLeaves, part]
    have all := evaluatesOnce_bind ((evaluatesOnce_value? pattern).under 1) fun v hv =>
      evaluatesOnce_search kind (isSome_of_runs_value? hv) (evaluatesOnce_part t x.value e)
    refine all.perm ?_
    rw [Expr.captures, pattern.captures_eq, List.map_append]
    exact List.perm_append_comm_assoc _ _ _
  | .isIn e source => by
    simp only [Expr.answered, Expr.mapLeaves, part]
    exact evaluatesOnce_unless _ _
      (evaluatesOnce_return (t.membership · source) ((evaluatesOnce_part t x.value e).under 0))
  | .existence negated query => by
    simp only [Expr.answered, Expr.mapLeaves, Expr.answer, part]
    exact evaluatesOnce_unless _ _ (evaluatesOnce_pure _)
  | .aggregate f arg => by
    simp only [Expr.answered, Expr.mapLeaves, part]
    exact evaluatesOnce_bind (evaluatesOnce_lift _) fun _ _ =>
      evaluatesOnce_return _ ((evaluatesOnce_part t x.aggregate arg).under 0)
  | .aggregateAll f => by
    simp only [Expr.answered, Expr.mapLeaves, Expr.answer, part]
    exact evaluatesOnce_lift _
  | .aliased e aliasName => by
    simp only [Expr.answered, Expr.mapLeaves, part]
    exact evaluatesOnce_throw _ _
  | .custom sql => by
    simp only [Expr.answered, Expr.mapLeaves, Expr.answer, part]
    exact evaluatesOnce_pure _
  | .qualified r aliasName kind => by
    simp only [Expr.answered, Expr.mapLeaves, Expr.answer, part]
    exact evaluatesOnce_lift _
  | .ordered e descending => by
    simp only [Expr.answered, Expr.mapLeaves, part]
    exact evaluatesOnce_throw _ _
  | .endOfTuple => by
    simp only [Expr.answered, Expr.mapLeaves, Expr.answer, part]
    exact evaluatesOnce_throw _ _
  | .allFields entity aliasName => by
    simp only [Expr.answered, Expr.mapLeaves, Expr.answer, part]
    exact evaluatesOnce_throw _ _
  | .cast e type => by
    simp only [Expr.answered, Expr.mapLeaves, part]
    exact evaluatesOnce_return (t.dialect.cast · type) ((evaluatesOnce_part t x.value e).under 0)

theorem evaluatesOnce_parts (t : Compiler) (x : Context) (i : Nat) : ∀ es : List Expr,
    t.EvaluatesOnce (fun known => t.parts x (Expr.answeredFrom known i es))
      (Expr.capturesFrom i es)
  | [] => by
    simp only [Expr.answeredFrom, Expr.mapLeavesFrom, parts]
    exact evaluatesOnce_pure []
  | e :: rest => by
    simp only [Expr.answeredFrom, Expr.mapLeavesFrom, parts]
    exact evaluatesOnce_bind ((evaluatesOnce_part t x e).under i) fun _ _ =>
      evaluatesOnce_return _ (evaluatesOnce_parts t x (i + 1) rest)

end

/-! ## Clauses and projections -/

theorem evaluatesOnce_clause (t : Compiler) (position : Position) (e : Expr) :
    t.EvaluatesOnce (fun known => t.compile position (e.answered known)) e.captures := by
  have whole := evaluatesOnce_part t (Context.top position) e
  cases e with
  | ordered item descending =>
    simp only [Expr.answered, Expr.mapLeaves] at whole ⊢
    cases position with
    | orderItem =>
      exact evaluatesOnce_return _ ((evaluatesOnce_part t (Context.top .orderItem) item).under 0)
    | _ => exact whole
  | aliased item aliasName =>
    simp only [Expr.answered, Expr.mapLeaves] at whole ⊢
    cases position with
    | projection =>
      exact evaluatesOnce_return _ ((evaluatesOnce_part t (Context.top .projection) item).under 0)
    | _ => exact whole
  | captured source =>
    simp only [Expr.answered, Expr.mapLeaves] at whole ⊢
    refine whole.congr fun known => ?_
    rw [Expr.answer]
    cases known [] <;> cases position <;> rfl
  | _ =>
    simp only [Expr.answered, Expr.mapLeaves] at whole ⊢
    cases position <;> exact whole

theorem evaluatesOnce_item (t : Compiler) (e : Expr) :
    t.EvaluatesOnce (fun known => t.projectionItems (e.answered known)) e.captures := by
  have whole := evaluatesOnce_return (fun f => [ProjectionItem.column ⟨f, none⟩])
    (evaluatesOnce_part t (Context.top .projection) e)
  cases e with
  | column r =>
    simp only [Expr.answered, Expr.mapLeaves, Expr.answer, projectionItems]
    exact evaluatesOnce_bind (evaluatesOnce_lift _) fun _ _ => evaluatesOnce_pure _
  | captured source =>
    simp only [Expr.answered, Expr.mapLeaves] at whole ⊢
    refine whole.congr fun known => ?_
    rw [Expr.answer]
    cases known [] <;> rfl
  | aliased item aliasName =>
    simp only [Expr.answered, Expr.mapLeaves, projectionItems]
    exact evaluatesOnce_return (fun f => [ProjectionItem.column ⟨f, some aliasName⟩])
      (evaluatesOnce_return _ ((evaluatesOnce_part t (Context.top .projection) item).under 0))
  | qualified r aliasName kind =>
    simp only [Expr.answered, Expr.mapLeaves, Expr.answer, projectionItems, part]
    exact evaluatesOnce_return (fun f => [ProjectionItem.column ⟨f, _⟩]) (evaluatesOnce_lift _)
  | endOfTuple =>
    simp only [Expr.answered, Expr.mapLeaves, Expr.answer, projectionItems]
    exact evaluatesOnce_pure _
  | allFields entity aliasName =>
    simp only [Expr.answered, Expr.mapLeaves, Expr.answer, projectionItems]
    exact evaluatesOnce_return (fun source : Source =>
      (source.columns t.catalog t.dialect).map ProjectionItem.column) (evaluatesOnce_lift _)
  | _ =>
    simp only [Expr.answered, Expr.mapLeaves] at whole ⊢
    exact whole

theorem evaluatesOnce_items (t : Compiler) (i : Nat) (es : List Expr) :
    t.EvaluatesOnce
      (fun known => (Expr.answeredFrom known i es).mapM t.projectionItems)
      (Expr.capturesFrom i es) := by
  induction es generalizing i with
  | nil => exact evaluatesOnce_pure []
  | cons e rest ih =>
    simp only [Expr.answeredFrom, Expr.mapLeavesFrom, List.mapM_cons]
    exact evaluatesOnce_bind ((evaluatesOnce_item t e).under i) fun _ _ =>
      evaluatesOnce_return _ (ih (i + 1))

theorem evaluatesOnce_projection (t : Compiler) (es : List Expr) :
    t.EvaluatesOnce
      (fun known => Projection.compile t (Expr.answeredFrom known 0 es))
      (Expr.capturesFrom 0 es) := by
  have all := evaluatesOnce_bind (evaluatesOnce_items t 0 es) fun parts _ =>
    evaluatesOnce_lift (t := t) (Projection.ofItems parts.flatten)
  rwa [List.append_nil] at all

/-- **Captured values are evaluated once.** Whatever sources answer, and whatever was read before: a
compilation in a clause, of an item of a projection or of a whole projection evaluates the captured
value in each place at most once, and all of them where it succeeds. Its result, whether a fragment
or a refusal, is that of the expression in which those that were evaluated are replaced by the
values they gave. -/
theorem captured_values_once (t : Compiler) (before : List Nat) :
    (∀ position e, ∃ log, t.CapturedOnce e.captures before log (t.compile position e)
        (t.compile position (e.answered (Evaluation.answers log)))) ∧
      (∀ e, ∃ log, t.CapturedOnce e.captures before log (t.projectionItems e)
        (t.projectionItems (e.answered (Evaluation.answers log)))) ∧
      ∀ items, ∃ log, t.CapturedOnce (Expr.capturesFrom 0 items) before log
        (Projection.compile t items)
        (Projection.compile t (Expr.answeredFrom (Evaluation.answers log) 0 items)) := by
  refine ⟨fun position e => ?_, fun e => ?_, fun items => ?_⟩
  · have once := (evaluatesOnce_clause t position e).capturedOnce e.nodup_captures before
    rwa [Expr.answered_none] at once
  · have once := (evaluatesOnce_item t e).capturedOnce e.nodup_captures before
    rwa [Expr.answered_none] at once
  · have once := (evaluatesOnce_projection t items).capturedOnce
      (Expr.nodup_capturesFrom 0 items) before
    rwa [Expr.answeredFrom_none] at once

/-- Of two readings of a counter the one on the right comes first, ahead of the one inside of the
left operand. -/
example (c : Catalog) :
    let t : Compiler := ⟨c, .sqlite, .empty, none, fun before _ => .int (.ofNat before.length)⟩
    (t.compile .predicate (.compare .lt (.negate (.captured 4)) (.captured 4))).outcome =
      .ok (.operation ((Fragment.param (.int 1)).wrap "(-" ")") "<" (.param (.int 0))) := rfl

end Compiler

end RowGraph
