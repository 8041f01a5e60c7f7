import RowGraph.Database.Basic

/-!
# Conversations that follow a computation

A computation against a database can be carried out at once, or as a conversation that waits for
each answer. The conversation follows the computation if, held with the database that the
computation uses, it ends in the same way from every state: with the same result, the same state,
and the same effects on the database. The lemmas below say so for each way in which computations are
put together.

Results:
* `follows_answer`: a statement that is waited for.
* `follows_bind`: one part after the other.
* `follows_forM`, `follows_loop`: loops.
* `follows_fold`: a loop that collects in a variable what the other side returns.
-/

namespace RowGraph

variable {m : Type → Type} [Monad m] {ε S α β γ δ : Type}

section Run

variable [LawfulMonad m]

theorem run_get (s : S) :
    (get : ExceptT ε (StateT S m) S).run.run s = pure (.ok s, s) := by
  change (Except.ok <$> (get : StateT S m S)).run s = _
  simp

theorem run_set (t s : S) :
    (set t : ExceptT ε (StateT S m) PUnit).run.run s = pure (.ok ⟨⟩, t) := by
  change (Except.ok <$> (set t : StateT S m PUnit)).run s = _
  simp

theorem run_modify (f : S → S) (s : S) :
    (modify f : ExceptT ε (StateT S m) PUnit).run.run s = pure (.ok ⟨⟩, f s) := by
  change (Except.ok <$> (modify f : StateT S m PUnit)).run s = _
  simp

variable (k : PUnit → ExceptT ε (StateT S m) α)

theorem run_get_bind (f : S → ExceptT ε (StateT S m) α) (s : S) :
    (get >>= f).run.run s = (f s).run.run s := by
  rw [ExceptT.run_bind, StateT.run_bind, run_get, pure_bind]

theorem run_set_bind (t s : S) : (set t >>= k).run.run s = (k ⟨⟩).run.run t := by
  rw [ExceptT.run_bind, StateT.run_bind, run_set, pure_bind]

theorem run_modify_bind (f : S → S) (s : S) :
    (modify f >>= k).run.run s = (k ⟨⟩).run.run (f s) := by
  rw [ExceptT.run_bind, StateT.run_bind, run_modify, pure_bind]

/-- What stands behind a failure is not reached. -/
theorem run_throw_bind (why : ε) (f : β → ExceptT ε (StateT S m) α) (s : S) :
    (throw why >>= f).run.run s = pure (.error why, s) := by
  have failed : (throw why : ExceptT ε (StateT S m) β).run.run s = pure (.error why, s) := rfl
  rw [ExceptT.run_bind, StateT.run_bind, failed, pure_bind]
  rfl

end Run

/-- Held with the database, the conversation ends as the computation does. -/
def Follows (db : Database m) (x : ExceptT ε (StateT S Conversation) α)
    (y : ExceptT ε (StateT S m) α) : Prop :=
  ∀ s, Conversation.run db (x.run.run s) = y.run.run s

variable {db : Database m}

theorem follows_pure (a : α) : Follows db (pure a : ExceptT ε (StateT S Conversation) α) (pure a) :=
  fun _ => rfl

theorem follows_throw (why : ε) :
    Follows db (throw why : ExceptT ε (StateT S Conversation) α) (throw why) :=
  fun _ => rfl

variable [LawfulMonad m]

theorem follows_bind {x : ExceptT ε (StateT S Conversation) α} {y : ExceptT ε (StateT S m) α}
    {f : α → ExceptT ε (StateT S Conversation) β} {g : α → ExceptT ε (StateT S m) β}
    (h : Follows db x y) (k : ∀ a, Follows db (f a) (g a)) : Follows db (x >>= f) (y >>= g) := by
  intro s
  simp only [ExceptT.run_bind, StateT.run_bind, Conversation.run_bind, h s]
  refine bind_congr fun p => ?_
  rcases p with ⟨r, t⟩
  cases r with
  | error why => rfl
  | ok a => exact k a t

theorem follows_get : Follows db (get : ExceptT ε (StateT S Conversation) S) get := by
  intro s
  rw [run_get, run_get]
  rfl

theorem follows_modify (f : S → S) :
    Follows db (modify f : ExceptT ε (StateT S Conversation) Unit) (modify f) := by
  intro s
  rw [run_modify, run_modify]
  rfl

theorem follows_set (t : S) :
    Follows db (set t : ExceptT ε (StateT S Conversation) PUnit) (set t) := by
  intro s
  rw [run_set, run_set]
  rfl

/-- An answer that is waited for is the database's. -/
theorem follows_answer {x : Conversation α} {y : m α} (h : Conversation.run db x = y) :
    Follows db (ExceptT.lift (StateT.lift x) : ExceptT ε (StateT S Conversation) α)
      (ExceptT.lift (StateT.lift y)) := by
  intro s
  have here : (ExceptT.lift (StateT.lift x) : ExceptT ε (StateT S Conversation) α).run.run s =
      (x >>= fun a => pure (a, s)) >>= fun p => pure (.ok p.1, p.2) := rfl
  have there : (ExceptT.lift (StateT.lift y) : ExceptT ε (StateT S m) α).run.run s =
      (Except.ok <$> (StateT.lift y : StateT S m α)).run s := rfl
  rw [here, there, Conversation.run_bind, Conversation.run_bind, h]
  simp [Conversation.run, pure]

/-! ## Loops -/

theorem follows_forM {f : γ → ExceptT ε (StateT S Conversation) Unit}
    {g : γ → ExceptT ε (StateT S m) Unit} {as : List γ} (h : ∀ a ∈ as, Follows db (f a) (g a)) :
    Follows db (as.forM f) (as.forM g) := by
  induction as with
  | nil => exact follows_pure ()
  | cons a rest ih =>
    rw [List.forM, List.forM]
    exact follows_bind (h a List.mem_cons_self) fun _ =>
      ih fun b hb => h b (List.mem_cons_of_mem a hb)

theorem follows_mapM {f : γ → ExceptT ε (StateT S Conversation) δ}
    {g : γ → ExceptT ε (StateT S m) δ} {as : List γ} (h : ∀ a ∈ as, Follows db (f a) (g a)) :
    Follows db (as.mapM f) (as.mapM g) := by
  induction as with
  | nil => exact follows_pure []
  | cons a rest ih =>
    rw [List.mapM_cons, List.mapM_cons]
    exact follows_bind (h a List.mem_cons_self) fun b =>
      follows_bind (ih fun d hd => h d (List.mem_cons_of_mem a hd)) fun bs => follows_pure (b :: bs)

/-- A loop without a variable. -/
theorem follows_loop {f : γ → PUnit → ExceptT ε (StateT S Conversation) (ForInStep PUnit)}
    {g : γ → ExceptT ε (StateT S m) Unit}
    (h : ∀ a, Follows db (f a ⟨⟩) (do g a; return .yield ⟨⟩)) (as : List γ) :
    Follows db (forIn as ⟨⟩ f) (as.forM g) := by
  induction as with
  | nil => exact follows_pure ()
  | cons a rest ih =>
    have next : (a :: rest).forM g = (do
        let step ← (do g a; return ForInStep.yield PUnit.unit)
        match step with
        | .done _ => return
        | .yield _ => rest.forM g) := by
      rw [List.forM]
      simp only [bind_assoc, pure_bind]
    rw [List.forIn_cons, next]
    refine follows_bind (h a) fun step => ?_
    cases step with
    | done u => exact follows_pure u
    | yield u => exact ih

/-- A loop whose variable takes in what the other side returns in a list. -/
theorem follows_fold {f : γ → β → ExceptT ε (StateT S Conversation) (ForInStep β)}
    {g : γ → ExceptT ε (StateT S m) δ} (add : β → δ → β)
    (h : ∀ a b, Follows db (f a b) (do return .yield (add b (← g a)))) (as : List γ) (b : β) :
    Follows db (forIn as b f) (do return (← as.mapM g).foldl add b) := by
  induction as generalizing b with
  | nil =>
    rw [List.mapM_nil, pure_bind]
    exact follows_pure b
  | cons a rest ih =>
    have next : (do return (← (a :: rest).mapM g).foldl add b) = (do
        let step ← (do return ForInStep.yield (add b (← g a)))
        match step with
        | .done b => return b
        | .yield b => do return (← rest.mapM g).foldl add b) := by
      simp only [List.mapM_cons, bind_assoc, pure_bind, List.foldl_cons]
    rw [List.forIn_cons, next]
    refine follows_bind (h a b) fun step => ?_
    cases step with
    | done b => exact follows_pure b
    | yield b => exact ih b

end RowGraph
