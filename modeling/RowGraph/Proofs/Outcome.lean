import RowGraph.Graph.Session

/-!
# How computations against a database end

Saving and loading are computations that can fail, over a state that is kept when they do. The
database is any machine: what it answers to a statement, rows or a failure, is up to its own state,
which a statement may change. The lemmas below open a computation piece by piece, so no later proof
looks at how the layers are put together.

* `outcome x s w`: how `x` ends from the state `s` and the database state `w`.
* `Runs x s w a s' w'`: `x` succeeds with `a` and leaves `s'` and `w'`; `runs_bind` and its like say
  what a success consists of.
* `after x s w`: the state that `x` leaves, whether it fails or not; `after_bind`, `after_forM` and
  `after_mapM` carry a preorder of states through a computation.
* `Keeps P x`: `x` keeps a property of the state.
* `Ends F Q x s w`: a success of `x` has the property `Q`, and what a failure leaves the property
  `F`; `ends_bind` and its like follow a computation through both.
* `Yields may Q x s w`: `x` succeeds with the property `Q`, or fails where it may.
* `outcome_bind_congr` and its like compare two computations step by step from one state, `Matches`
  with what a success says besides, `Agree` from states that are related.
-/

namespace RowGraph

/-- A computation over a state, against a database with states `σ`. -/
abbrev Process (σ S α : Type) := ExceptT GraphError (StateT S (StateM σ)) α

namespace Process

variable {σ S α β : Type}

/-- The result, the state and the state of the database in the end. -/
def outcome (x : Process σ S α) (s : S) (w : σ) : (Except GraphError α × S) × σ :=
  (x.run.run s).run w

/-- The computation succeeds. -/
def Runs (x : Process σ S α) (s : S) (w : σ) (a : α) (s' : S) (w' : σ) : Prop :=
  outcome x s w = ((.ok a, s'), w')

/-- The state in the end. -/
def after (x : Process σ S α) (s : S) (w : σ) : S := (outcome x s w).1.2

/-! ## Outcomes -/

@[simp] theorem outcome_pure (a : α) (s : S) (w : σ) :
    outcome (pure a : Process σ S α) s w = ((.ok a, s), w) := rfl

@[simp] theorem outcome_throw (why : GraphError) (s : S) (w : σ) :
    outcome (throw why : Process σ S α) s w = ((.error why, s), w) := rfl

@[simp] theorem outcome_get (s : S) (w : σ) :
    outcome (get : Process σ S S) s w = ((.ok s, s), w) := rfl

@[simp] theorem outcome_set (s' s : S) (w : σ) :
    outcome (set s' : Process σ S Unit) s w = ((.ok (), s'), w) := rfl

@[simp] theorem outcome_get_bind (f : S → Process σ S α) (s : S) (w : σ) :
    outcome (get >>= f) s w = outcome (f s) s w := rfl

@[simp] theorem after_get_bind (f : S → Process σ S α) (s : S) (w : σ) :
    after (get >>= f) s w = after (f s) s w := rfl

@[simp] theorem outcome_set_bind (s' : S) (f : Unit → Process σ S α) (s : S) (w : σ) :
    outcome (set s' >>= f) s w = outcome (f ()) s' w := rfl

@[simp] theorem outcome_modify (f : S → S) (s : S) (w : σ) :
    outcome (modify f : Process σ S Unit) s w = ((.ok (), f s), w) := rfl

@[simp] theorem outcome_lift (answer : StateM σ α) (s : S) (w : σ) :
    outcome (ExceptT.lift (StateT.lift answer) : Process σ S α) s w =
      ((.ok (answer.run w).1, s), (answer.run w).2) := rfl

theorem outcome_bind (x : Process σ S α) (f : α → Process σ S β) (s : S) (w : σ) :
    outcome (x >>= f) s w =
      match outcome x s w with
      | ((.ok a, s'), w') => outcome (f a) s' w'
      | ((.error why, s'), w') => ((.error why, s'), w') := by
  simp only [outcome, ExceptT.run_bind, StateT.run_bind]
  rcases (x.run.run s).run w with ⟨⟨r, s'⟩, w'⟩
  cases r <;> rfl

theorem discard_eq_bind (x : Process σ S α) : discard x = x >>= fun _ => pure () := by
  rw [Functor.discard, map_const]
  simp [Function.comp]

/-! ## What a success consists of -/

/-- After a success it goes on with the result. -/
theorem outcome_bind_of_runs {x : Process σ S α} {a : α} {s t : S} {w v : σ}
    (h : Runs x s w a t v) (f : α → Process σ S β) : outcome (x >>= f) s w = outcome (f a) t v := by
  rw [outcome_bind, h]

@[simp] theorem runs_pure {a b : α} {s s' : S} {w w' : σ} :
    Runs (pure a : Process σ S α) s w b s' w' ↔ a = b ∧ s = s' ∧ w = w' := by
  simp [Runs, and_assoc]

@[simp] theorem runs_throw {why : GraphError} {a : α} {s s' : S} {w w' : σ} :
    ¬ Runs (throw why : Process σ S α) s w a s' w' := by
  simp [Runs]

@[simp] theorem runs_modify {f : S → S} {s s' : S} {u : Unit} {w w' : σ} :
    Runs (modify f : Process σ S Unit) s w u s' w' ↔ f s = s' ∧ w = w' := by
  simp [Runs]

theorem runs_get_bind {f : S → Process σ S α} {a : α} {s s' : S} {w w' : σ} :
    Runs (get >>= f) s w a s' w' ↔ Runs (f s) s w a s' w' :=
  Iff.rfl

theorem runs_set_bind {t : S} {f : Unit → Process σ S α} {a : α} {s s' : S} {w w' : σ} :
    Runs (set t >>= f) s w a s' w' ↔ Runs (f ()) t w a s' w' :=
  Iff.rfl

theorem runs_bind {x : Process σ S α} {f : α → Process σ S β} {b : β} {s s' : S} {w w' : σ} :
    Runs (x >>= f) s w b s' w' ↔
      ∃ a t v, Runs x s w a t v ∧ Runs (f a) t v b s' w' := by
  unfold Runs
  rw [outcome_bind]
  rcases outcome x s w with ⟨⟨r, t⟩, v⟩
  cases r with
  | error why => simp
  | ok a =>
    refine ⟨fun h => ⟨a, t, v, rfl, h⟩, ?_⟩
    rintro ⟨a', t', v', he, h⟩
    cases he
    exact h

theorem runs_discard {x : Process σ S α} {u : Unit} {s s' : S} {w w' : σ} :
    Runs (discard x) s w u s' w' ↔ ∃ a, Runs x s w a s' w' := by
  simp only [discard_eq_bind, runs_bind, runs_pure]
  constructor
  · rintro ⟨a, t, v, h, -, rfl, rfl⟩
    exact ⟨a, h⟩
  · rintro ⟨a, h⟩
    exact ⟨a, s', w', h, trivial, rfl, rfl⟩

/-- A success of a loop is a success of each of its steps. -/
theorem runs_forM_cons {f : α → Process σ S Unit} {a : α} {as : List α} {u : Unit} {s s' : S}
    {w w' : σ} : Runs ((a :: as).forM f) s w u s' w' ↔
      ∃ t v, Runs (f a) s w () t v ∧ Runs (as.forM f) t v () s' w' := by
  rw [List.forM, runs_bind]
  exact ⟨fun ⟨_, t, v, ha, has⟩ => ⟨t, v, ha, has⟩, fun ⟨t, v, ha, has⟩ => ⟨(), t, v, ha, has⟩⟩

theorem runs_forM_append {f : α → Process σ S Unit} {as bs : List α} {u : Unit} {s s' : S}
    {w w' : σ} : Runs ((as ++ bs).forM f) s w u s' w' ↔
      ∃ t v, Runs (as.forM f) s w () t v ∧ Runs (bs.forM f) t v () s' w' := by
  induction as generalizing s w with
  | nil =>
    refine ⟨fun h => ⟨s, w, runs_pure.mpr ⟨rfl, rfl, rfl⟩, h⟩, ?_⟩
    rintro ⟨t, v, hnil, h⟩
    obtain ⟨-, rfl, rfl⟩ := runs_pure.mp hnil
    exact h
  | cons a as ih =>
    simp only [List.cons_append, runs_forM_cons, ih]
    constructor
    · rintro ⟨t, v, ha, t', v', has, hbs⟩
      exact ⟨t', v', ⟨t, v, ha, has⟩, hbs⟩
    · rintro ⟨t', v', ⟨t, v, ha, has⟩, hbs⟩
      exact ⟨t, v, ha, t', v', has, hbs⟩

theorem runs_mapM_cons {f : α → Process σ S β} {a : α} {as : List α} {bs : List β} {s s' : S}
    {w w' : σ} : Runs ((a :: as).mapM f) s w bs s' w' ↔
      ∃ b rest t v, bs = b :: rest ∧ Runs (f a) s w b t v ∧
        Runs (as.mapM f) t v rest s' w' := by
  rw [List.mapM_cons, runs_bind]
  simp only [runs_bind, runs_pure]
  constructor
  · rintro ⟨b, t, v, hb, rest, t', v', hr, rfl, rfl, rfl⟩
    exact ⟨b, rest, t, v, rfl, hb, hr⟩
  · rintro ⟨b, rest, t, v, rfl, hb, hr⟩
    exact ⟨b, t, v, hb, rest, s', w', hr, rfl, rfl, rfl⟩

/-- A loop whose steps do nothing does nothing. -/
theorem outcome_forM_of_return {f : α → Process σ S Unit} {as : List α} {s : S} {w : σ}
    (h : ∀ a ∈ as, outcome (f a) s w = ((.ok (), s), w)) :
    outcome (as.forM f) s w = ((.ok (), s), w) := by
  induction as with
  | nil => rfl
  | cons a as ih =>
    rw [List.forM, outcome_bind_of_runs (h a List.mem_cons_self)]
    exact ih fun b hb => h b (List.mem_cons_of_mem a hb)

/-- A computation that succeeds leaves the state that its success says. -/
theorem after_of_runs {x : Process σ S α} {a : α} {s s' : S} {w w' : σ}
    (h : Runs x s w a s' w') : after x s w = s' := by
  rw [after, h]

@[simp] theorem after_discard (x : Process σ S α) (s : S) (w : σ) :
    after (discard x) s w = after x s w := by
  rw [discard_eq_bind, after, after, outcome_bind]
  rcases outcome x s w with ⟨⟨r, t⟩, v⟩
  cases r <;> rfl

/-! ## Preorders of states -/

/-- What holds of the state when the first part is over, and of every state in which a second part
that is reached leaves off, holds in the end. -/
theorem pred_after_bind {P : S → Prop} {x : Process σ S α} {f : α → Process σ S β} {s : S} {w : σ}
    (hx : P (after x s w)) (hf : ∀ a t v, Runs x s w a t v → P (after (f a) t v)) :
    P (after (x >>= f) s w) := by
  unfold after at hx ⊢
  rw [outcome_bind]
  rcases h : outcome x s w with ⟨⟨r, t⟩, v⟩
  rw [h] at hx
  cases r with
  | error why => exact hx
  | ok a => exact hf a t v h

section Preorder

variable {R : S → S → Prop} (refl : ∀ s, R s s) (trans : ∀ {s t u}, R s t → R t u → R s u)
include trans

theorem rel_after_bind {x : Process σ S α} {f : α → Process σ S β} {s : S} {w : σ}
    (hx : R s (after x s w)) (hf : ∀ a t v, Runs x s w a t v → R t (after (f a) t v)) :
    R s (after (x >>= f) s w) :=
  pred_after_bind hx fun a t v h => trans (after_of_runs h ▸ hx) (hf a t v h)

include refl

theorem rel_after_forM {f : α → Process σ S Unit} {as : List α}
    (h : ∀ a ∈ as, ∀ s w, R s (after (f a) s w)) (s : S) (w : σ) :
    R s (after (as.forM f) s w) := by
  induction as generalizing s w with
  | nil => exact refl s
  | cons a as ih =>
    rw [List.forM]
    exact rel_after_bind (R := R) trans (h a List.mem_cons_self s w) fun _ t v _ =>
      ih (fun b hb => h b (List.mem_cons_of_mem a hb)) t v

theorem rel_after_mapM {f : α → Process σ S β} {as : List α}
    (h : ∀ a ∈ as, ∀ s w, R s (after (f a) s w)) (s : S) (w : σ) :
    R s (after (as.mapM f) s w) := by
  induction as generalizing s w with
  | nil => exact refl s
  | cons a as ih =>
    rw [List.mapM_cons]
    refine rel_after_bind (R := R) trans (h a List.mem_cons_self s w) fun _ t v _ => ?_
    exact rel_after_bind (R := R) trans (ih (fun b hb => h b (List.mem_cons_of_mem a hb)) t v)
      fun _ u _ _ => refl u

end Preorder

/-- The computation keeps a property of the state, whether it fails or not. -/
def Keeps (P : S → Prop) (x : Process σ S α) : Prop := ∀ s w, P s → P (after x s w)

section Keeps

variable {P : S → Prop}

theorem keeps_pure (a : α) : Keeps P (pure a : Process σ S α) := fun _ _ hs => hs

theorem keeps_throw (why : GraphError) : Keeps P (throw why : Process σ S α) := fun _ _ hs => hs

theorem keeps_bind {x : Process σ S α} {f : α → Process σ S β} (hx : Keeps P x)
    (hf : ∀ a, Keeps P (f a)) : Keeps P (x >>= f) :=
  fun s w hs => pred_after_bind (hx s w hs) fun a t v run =>
    hf a t v (after_of_runs run ▸ hx s w hs)

/-- What follows is looked at from the state that is read. -/
theorem keeps_get_bind {f : S → Process σ S α} (h : ∀ s w, P s → P (after (f s) s w)) :
    Keeps P (get >>= f) := h

theorem keeps_forM {f : α → Process σ S Unit} {as : List α} (h : ∀ a ∈ as, Keeps P (f a)) :
    Keeps P (as.forM f) :=
  rel_after_forM (R := fun s t => P s → P t) (fun _ hs => hs) (fun h k hs => k (h hs)) h

theorem keeps_mapM {f : α → Process σ S β} {as : List α} (h : ∀ a ∈ as, Keeps P (f a)) :
    Keeps P (as.mapM f) :=
  rel_after_mapM (R := fun s t => P s → P t) (fun _ hs => hs) (fun h k hs => k (h hs)) h

end Keeps

/-! ## What a computation ends in -/

/-- A success has the property `Q`, and what a failure leaves the property `F`. -/
def Ends (F : S → σ → Prop) (Q : α → S → σ → Prop) (x : Process σ S α) (s : S) (w : σ) : Prop :=
  match outcome x s w with
  | ((.ok a, t), v) => Q a t v
  | ((.error _, t), v) => F t v

section Ends

variable {F : S → σ → Prop} {Q : α → S → σ → Prop} {T : β → S → σ → Prop} {P : S → σ → Prop}
  {x : Process σ S α} {s : S} {w : σ}

theorem ends_get_bind {f : S → Process σ S α} :
    Ends F Q (get >>= f) s w ↔ Ends F Q (f s) s w :=
  Iff.rfl

/-- What holds of every end holds of what is left. -/
theorem Ends.after (h : Ends F (fun _ => F) x s w) : F (after x s w) (outcome x s w).2 := by
  unfold Ends at h
  unfold Process.after
  rcases run : outcome x s w with ⟨⟨r, t⟩, v⟩
  rw [run] at h
  cases r <;> exact h

/-- What holds of every success. -/
theorem Ends.done (h : Ends F Q x s w) {a : α} {t : S} {v : σ} (run : Runs x s w a t v) :
    Q a t v := by
  rw [Runs] at run
  rwa [Ends, run] at h

theorem Ends.mono (h : Ends F Q x s w) {F' : S → σ → Prop} {Q' : α → S → σ → Prop}
    (failed : ∀ t v, F t v → F' t v) (done : ∀ a t v, Q a t v → Q' a t v) : Ends F' Q' x s w := by
  unfold Ends at h ⊢
  rcases run : outcome x s w with ⟨⟨r, t⟩, v⟩
  rw [run] at h
  cases r with
  | error why => exact failed t v h
  | ok a => exact done a t v h

/-- What follows is looked at from the ends of the first part that are successes. -/
theorem ends_bind {f : α → Process σ S β} (h : Ends F Q x s w)
    (k : ∀ a t v, Runs x s w a t v → Q a t v → Ends F T (f a) t v) : Ends F T (x >>= f) s w := by
  unfold Ends at h ⊢
  rw [outcome_bind]
  rcases run : outcome x s w with ⟨⟨r, t⟩, v⟩
  rw [run] at h
  cases r with
  | error why => exact h
  | ok a => exact k a t v run h

theorem ends_forM {f : α → Process σ S Unit} {as : List α}
    (step : ∀ a ∈ as, ∀ s w, P s w → Ends F (fun _ => P) (f a) s w) (h : P s w) :
    Ends F (fun _ => P) (as.forM f) s w := by
  induction as generalizing s w with
  | nil => exact h
  | cons a as ih =>
    rw [List.forM]
    exact ends_bind (step a List.mem_cons_self s w h) fun _ _ _ _ ht =>
      ih (fun b hb => step b (List.mem_cons_of_mem a hb)) ht

/-- A loop with results, each of which has a property. -/
theorem ends_mapM {R : β → Prop} {f : α → Process σ S β} {as : List α}
    (step : ∀ a ∈ as, ∀ s w, P s w → Ends F (fun b t v => R b ∧ P t v) (f a) s w)
    (h : P s w) : Ends F (fun bs t v => (∀ b ∈ bs, R b) ∧ P t v) (as.mapM f) s w := by
  induction as generalizing s w with
  | nil => exact ⟨fun _ hb => absurd hb List.not_mem_nil, h⟩
  | cons a as ih =>
    rw [List.mapM_cons]
    refine ends_bind (step a List.mem_cons_self s w h) fun b _ _ _ ht => ?_
    refine ends_bind (ih (fun d hd => step d (List.mem_cons_of_mem a hd)) ht.2)
      fun bs _ _ _ hu => ?_
    exact ⟨List.forall_mem_cons.mpr ⟨ht.1, hu.1⟩, hu.2⟩

end Ends

/-- The computation succeeds, and with the property `Q`; where it may, it can also fail. -/
def Yields (may : Prop) (Q : α → S → σ → Prop) (x : Process σ S α) (s : S) (w : σ) : Prop :=
  match outcome x s w with
  | ((.ok a, t), v) => Q a t v
  | ((.error _, _), _) => may

section Yields

variable {may : Prop} {Q : α → S → σ → Prop} {x : Process σ S α} {s : S} {w : σ}

@[simp] theorem yields_pure {a : α} :
    Yields may Q (pure a : Process σ S α) s w ↔ Q a s w :=
  Iff.rfl

@[simp] theorem yields_throw {why : GraphError} :
    Yields may Q (throw why : Process σ S α) s w ↔ may :=
  Iff.rfl

theorem yields_get_bind {f : S → Process σ S α} :
    Yields may Q (get >>= f) s w ↔ Yields may Q (f s) s w :=
  Iff.rfl

/-- Where a computation succeeds, it yields what its success has. -/
theorem yields_of_runs {a : α} {t : S} {v : σ} (run : Runs x s w a t v) :
    Yields may Q x s w ↔ Q a t v := by
  rw [Yields, run]

/-- Where it may fail, only a success has to have the property. -/
theorem yields_true : Yields True Q x s w ↔ ∀ a t v, Runs x s w a t v → Q a t v := by
  constructor
  · exact fun h a t v run => (yields_of_runs run).mp h
  · intro h
    unfold Yields
    rcases run : outcome x s w with ⟨⟨r, t⟩, v⟩
    cases r with
    | error why => trivial
    | ok a => exact h a t v run

/-- Where it may not fail, it succeeds. -/
theorem yields_false : Yields False Q x s w ↔ ∃ a t v, Runs x s w a t v ∧ Q a t v := by
  constructor
  · intro h
    unfold Yields at h
    rcases run : outcome x s w with ⟨⟨r, t⟩, v⟩
    rw [run] at h
    cases r with
    | error why => exact h.elim
    | ok a => exact ⟨a, t, v, run, h⟩
  · rintro ⟨a, t, v, run, h⟩
    exact (yields_of_runs run).mpr h

theorem Yields.mono (h : Yields may Q x s w) {Q' : α → S → σ → Prop}
    (k : ∀ a t v, Q a t v → Q' a t v) : Yields may Q' x s w :=
  Ends.mono h (fun _ _ may => may) k

/-- What a computation yields is a matter of its outcome. -/
theorem yields_congr {y : Process σ S α} {t : S} {v : σ} (h : outcome x s w = outcome y t v) :
    Yields may Q x s w ↔ Yields may Q y t v := by
  rw [Yields, Yields, h]

theorem yields_bind {T : β → S → σ → Prop} {f : α → Process σ S β} (h : Yields may Q x s w)
    (k : ∀ a t v, Q a t v → Yields may T (f a) t v) : Yields may T (x >>= f) s w :=
  ends_bind h fun a t v _ ht => k a t v ht

theorem yields_forM {P : S → σ → Prop} {f : α → Process σ S Unit} {as : List α}
    (step : ∀ a ∈ as, ∀ s w, P s w → Yields may (fun _ => P) (f a) s w) (h : P s w) :
    Yields may (fun _ => P) (as.forM f) s w :=
  ends_forM step h

end Yields

/-! ## Two computations side by side -/

theorem outcome_bind_congr {x y : Process σ S α} {f g : α → Process σ S β} {s : S} {w : σ}
    (hx : outcome x s w = outcome y s w)
    (hf : ∀ a t v, Runs x s w a t v → outcome (f a) t v = outcome (g a) t v) :
    outcome (x >>= f) s w = outcome (y >>= g) s w := by
  rw [outcome_bind, outcome_bind, ← hx]
  rcases h : outcome x s w with ⟨⟨r, t⟩, v⟩
  cases r with
  | error why => rfl
  | ok a => exact hf a t v h

section Loops

variable {P : S → Prop}

/-- Loops agree whose steps agree on the states with a property that the steps keep. -/
theorem outcome_forM_congr {f g : α → Process σ S Unit} {as : List α}
    (same : ∀ a ∈ as, ∀ s w, P s → outcome (f a) s w = outcome (g a) s w)
    (keep : ∀ a ∈ as, ∀ s w, P s → P (after (f a) s w)) {s : S} (hs : P s) (w : σ) :
    outcome (as.forM f) s w = outcome (as.forM g) s w := by
  induction as generalizing s w with
  | nil => rfl
  | cons a as ih =>
    rw [List.forM, List.forM]
    refine outcome_bind_congr (same a List.mem_cons_self s w hs) fun _ t v h => ?_
    have ht : P t := after_of_runs h ▸ keep a List.mem_cons_self s w hs
    exact ih (fun b hb => same b (List.mem_cons_of_mem a hb))
      (fun b hb => keep b (List.mem_cons_of_mem a hb)) ht v

theorem outcome_mapM_congr {f g : α → Process σ S β} {as : List α}
    (same : ∀ a ∈ as, ∀ s w, P s → outcome (f a) s w = outcome (g a) s w)
    (keep : ∀ a ∈ as, ∀ s w, P s → P (after (f a) s w)) {s : S} (hs : P s) (w : σ) :
    outcome (as.mapM f) s w = outcome (as.mapM g) s w := by
  induction as generalizing s w with
  | nil => rfl
  | cons a as ih =>
    rw [List.mapM_cons, List.mapM_cons]
    refine outcome_bind_congr (same a List.mem_cons_self s w hs) fun b t v h => ?_
    have ht : P t := after_of_runs h ▸ keep a List.mem_cons_self s w hs
    exact outcome_bind_congr (ih (fun b hb => same b (List.mem_cons_of_mem a hb))
      (fun b hb => keep b (List.mem_cons_of_mem a hb)) ht v) fun _ _ _ _ => rfl

end Loops

/-- From here the two computations end in the same way, and a success has the property `Q`. -/
def Matches (Q : α → S → Prop) (x y : Process σ S α) (s : S) (w : σ) : Prop :=
  outcome x s w = outcome y s w ∧ ∀ a t v, Runs y s w a t v → Q a t

section Matches

variable {Q : α → S → Prop} {T : β → S → Prop} {P : S → Prop} {s : S} {w : σ}

theorem matches_self {x : Process σ S α} (h : ∀ a t v, Runs x s w a t v → Q a t) :
    Matches Q x x s w :=
  ⟨rfl, h⟩

theorem matches_pure {a : α} (h : Q a s) : Matches Q (pure a : Process σ S α) (pure a) s w := by
  refine matches_self fun b t v run => ?_
  obtain ⟨rfl, rfl, -⟩ := runs_pure.mp run
  exact h

theorem matches_get_bind {f g : S → Process σ S α} :
    Matches Q (get >>= f) (get >>= g) s w ↔ Matches Q (f s) (g s) s w :=
  Iff.rfl

theorem matches_set_bind {s' : S} {f g : Unit → Process σ S α} :
    Matches Q (set s' >>= f) (set s' >>= g) s w ↔ Matches Q (f ()) (g ()) s' w :=
  Iff.rfl

theorem Matches.mono {x y : Process σ S α} (h : Matches Q x y s w) {Q' : α → S → Prop}
    (k : ∀ a t, Q a t → Q' a t) : Matches Q' x y s w :=
  ⟨h.1, fun a t v run => k a t (h.2 a t v run)⟩

theorem matches_bind {x y : Process σ S α} {f g : α → Process σ S β} (h : Matches Q x y s w)
    (k : ∀ a t v, Q a t → Matches T (f a) (g a) t v) : Matches T (x >>= f) (y >>= g) s w := by
  refine ⟨outcome_bind_congr h.1 fun a t v run => ?_, fun b t v run => ?_⟩
  · have run' : Runs y s w a t v := h.1.symm.trans run
    exact (k a t v (h.2 a t v run')).1
  · obtain ⟨a, t', v', first, rest⟩ := runs_bind.mp run
    exact (k a t' v' (h.2 a t' v' first)).2 b t v rest

/-- Loops match whose steps match on the states with a property that the steps keep. -/
theorem matches_forM {f g : α → Process σ S Unit} {as : List α}
    (step : ∀ a ∈ as, ∀ s w, P s → Matches (fun _ => P) (f a) (g a) s w) (hs : P s) :
    Matches (fun _ => P) (as.forM f) (as.forM g) s w := by
  induction as generalizing s w with
  | nil => exact matches_pure hs
  | cons a as ih =>
    rw [List.forM, List.forM]
    exact matches_bind (step a List.mem_cons_self s w hs) fun _ t v ht =>
      ih (fun b hb => step b (List.mem_cons_of_mem a hb)) ht

theorem matches_mapM {f g : α → Process σ S β} {as : List α}
    (step : ∀ a ∈ as, ∀ s w, P s → Matches (fun _ => P) (f a) (g a) s w) (hs : P s) :
    Matches (fun _ => P) (as.mapM f) (as.mapM g) s w := by
  induction as generalizing s w with
  | nil => exact matches_pure hs
  | cons a as ih =>
    rw [List.mapM_cons, List.mapM_cons]
    refine matches_bind (step a List.mem_cons_self s w hs) fun b t v ht => ?_
    exact matches_bind (ih (fun b hb => step b (List.mem_cons_of_mem a hb)) ht)
      fun bs u x hu => matches_pure hu

end Matches

/-- From related states the computations end with the same result and in related states, whatever
the databases answer. -/
def Agree (P : S → S → Prop) (x y : Process σ S α) : Prop :=
  ∀ s t w v, P s t →
    (outcome x s w).1.1 = (outcome y t v).1.1 ∧ P (after x s w) (after y t v)

theorem agree_pure {P : S → S → Prop} (a : α) : Agree P (pure a : Process σ S α) (pure a) :=
  fun _ _ _ _ h => ⟨rfl, h⟩

theorem agree_bind {P : S → S → Prop} {x y : Process σ S α} {f g : α → Process σ S β}
    (h : Agree P x y) (k : ∀ a, Agree P (f a) (g a)) : Agree P (x >>= f) (y >>= g) := by
  intro s t w v hst
  obtain ⟨hr, hp⟩ := h s t w v hst
  unfold after at hp ⊢
  rw [outcome_bind, outcome_bind]
  rcases hx : outcome x s w with ⟨⟨r, s'⟩, w'⟩
  rcases hy : outcome y t v with ⟨⟨r', t'⟩, v'⟩
  rw [hx, hy] at hr hp
  obtain rfl : r = r' := hr
  cases r with
  | error why => exact ⟨rfl, hp⟩
  | ok a => exact k a s' t' w' v' hp

theorem agree_forM {P : S → S → Prop} {f g : α → Process σ S Unit} {as : List α}
    (h : ∀ a ∈ as, Agree P (f a) (g a)) : Agree P (as.forM f) (as.forM g) := by
  induction as with
  | nil => exact agree_pure ()
  | cons a as ih =>
    exact agree_bind (h a List.mem_cons_self) fun _ =>
      ih fun b hb => h b (List.mem_cons_of_mem a hb)

end Process

end RowGraph
