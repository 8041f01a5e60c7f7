import RowGraph.Query.Builder

/-!
# How computations over a state end

Compiling an expression and building a query are computations that can fail, over a state that is
kept when they do: the captured values that have been read, and the query. The lemmas below open
such a computation piece by piece.

* `ending x s`: the result of `x` from the state `s`, and the state that it leaves.
* `Runs x s a t`: `x` succeeds with `a` and leaves `t`; `runs_bind` says what a success consists of.
* `Gives P x`: every result of `x` has the property `P`; `gives_bind` composes.
* `Coincide x y`: the two computations succeed alike; `coincide_bind` composes.
* `Atomic x`: a failure of `x` leaves the state as it was.
* `Moves R x`: the state that `x` leaves is related by `R` to the one it started from, whether it
  fails or not; `moves_bind` composes.
* `Maintains Inv P x`: `x` keeps a property of the state and its results have `P`; `maintains_bind`
  composes.
* `Agree P R x y`: from states related by `P` the two computations fail with the same error, or
  succeed with results related by `R`, and leave states related by `P`; `agree_bind` composes.
-/

namespace RowGraph

/-- A computation that can fail, over a state that it keeps also then. -/
abbrev Attempt (ε S α : Type) := ExceptT ε (StateM S) α

namespace Attempt

variable {ε S T α β γ δ : Type}

/-- The result, and the state in the end. -/
def ending (x : Attempt ε S α) (s : S) : Except ε α × S := x.run.run s

/-- The computation succeeds. -/
def Runs (x : Attempt ε S α) (s : S) (a : α) (t : S) : Prop := ending x s = (.ok a, t)

/-! ## Endings -/

@[simp] theorem ending_pure (a : α) (s : S) :
    ending (pure a : Attempt ε S α) s = (.ok a, s) := rfl

@[simp] theorem ending_throw (why : ε) (s : S) :
    ending (throw why : Attempt ε S α) s = (.error why, s) := rfl

@[simp] theorem ending_lift (r : Except ε α) (s : S) :
    ending (liftM r : Attempt ε S α) s = (r, s) := rfl

@[simp] theorem ending_modify (f : S → S) (s : S) :
    ending (modify f : Attempt ε S Unit) s = (.ok (), f s) := rfl

@[simp] theorem ending_get_bind (f : S → Attempt ε S α) (s : S) :
    ending (get >>= f) s = ending (f s) s := rfl

theorem ending_bind (x : Attempt ε S α) (f : α → Attempt ε S β) (s : S) :
    ending (x >>= f) s =
      match ending x s with
      | (.ok a, t) => ending (f a) t
      | (.error why, t) => (.error why, t) := by
  simp only [ending, ExceptT.run_bind, StateT.run_bind]
  rcases x.run.run s with ⟨r, t⟩
  cases r <;> rfl

/-! ## What a success consists of -/

@[simp] theorem runs_pure {a b : α} {s t : S} :
    Runs (pure a : Attempt ε S α) s b t ↔ a = b ∧ s = t := by
  simp [Runs]

@[simp] theorem runs_throw {why : ε} {a : α} {s t : S} :
    ¬ Runs (throw why : Attempt ε S α) s a t := by
  simp [Runs]

@[simp] theorem runs_lift {r : Except ε α} {a : α} {s t : S} :
    Runs (liftM r : Attempt ε S α) s a t ↔ r = .ok a ∧ s = t := by
  simp [Runs]

theorem runs_bind {x : Attempt ε S α} {f : α → Attempt ε S β} {b : β} {s u : S} :
    Runs (x >>= f) s b u ↔ ∃ a t, Runs x s a t ∧ Runs (f a) t b u := by
  unfold Runs
  rw [ending_bind]
  rcases ending x s with ⟨r, t⟩
  cases r with
  | error why => simp
  | ok a =>
    constructor
    · intro h
      exact ⟨a, t, rfl, h⟩
    · rintro ⟨a', t', he, h⟩
      cases he
      exact h

/-- A success whose result goes through a function. -/
theorem runs_return {x : Attempt ε S α} {f : α → β} {b : β} {s u : S} :
    Runs (do return f (← x)) s b u ↔ ∃ a, Runs x s a u ∧ f a = b := by
  rw [runs_bind]
  constructor
  · rintro ⟨a, t, hx, hb⟩
    obtain ⟨rfl, rfl⟩ := runs_pure.mp hb
    exact ⟨a, hx, rfl⟩
  · rintro ⟨a, hx, rfl⟩
    exact ⟨a, u, hx, runs_pure.mpr ⟨rfl, rfl⟩⟩

/-! ## What every result is like -/

/-- Every result has the property, from whichever state. -/
def Gives (P : α → Prop) (x : Attempt ε S α) : Prop := ∀ s a t, Runs x s a t → P a

section Gives

variable {P : α → Prop} {Q : β → Prop} {x : Attempt ε S α}

theorem Gives.mono {P' : α → Prop} (h : Gives P x) (k : ∀ a, P a → P' a) : Gives P' x :=
  fun s a t run => k a (h s a t run)

theorem gives_true (x : Attempt ε S α) : Gives (fun _ => True) x := fun _ _ _ _ => trivial

theorem gives_pure {a : α} (h : P a) : Gives P (pure a : Attempt ε S α) := by
  rintro s _ t run
  exact (runs_pure.mp run).1 ▸ h

theorem gives_throw (why : ε) : Gives P (throw why : Attempt ε S α) :=
  fun _ _ _ run => (runs_throw run).elim

theorem gives_lift {r : Except ε α} (h : ∀ a, r = .ok a → P a) :
    Gives P (liftM r : Attempt ε S α) :=
  fun _ a _ run => h a (runs_lift.mp run).1

theorem gives_bind {f : α → Attempt ε S β} (h : Gives P x) (k : ∀ a, P a → Gives Q (f a)) :
    Gives Q (x >>= f) := by
  intro s b u run
  obtain ⟨a, t, hx, hb⟩ := runs_bind.mp run
  exact k a (h s a t hx) t b u hb

/-- A refusal in front gives nothing. -/
theorem gives_unless (refused : Prop) [Decidable refused] (why : ε)
    {f : PUnit → Attempt ε S α} (h : Gives P (f ⟨⟩)) :
    Gives P (if refused then throw why >>= f else f ⟨⟩) := by
  split
  · exact gives_bind (P := fun _ => False) (gives_throw why) fun _ hfalse => hfalse.elim
  · exact h

theorem gives_return {f : α → β} (h : Gives P x) (k : ∀ a, P a → Q (f a)) :
    Gives Q (do return f (← x)) :=
  gives_bind h fun a ha => gives_pure (k a ha)

theorem gives_mapM {Q : β → Prop} {f : α → Attempt ε S β} {as : List α}
    (h : ∀ a ∈ as, Gives Q (f a)) : Gives (fun bs => ∀ b ∈ bs, Q b) (as.mapM f) := by
  induction as with
  | nil => exact gives_pure fun _ hb => (List.not_mem_nil hb).elim
  | cons a as ih =>
    rw [List.forall_mem_cons] at h
    rw [List.mapM_cons]
    exact gives_bind h.1 fun b hb => gives_return (ih h.2) fun bs hbs =>
      List.forall_mem_cons.mpr ⟨hb, hbs⟩

end Gives

/-! ## Computations that succeed alike -/

/-- The computations succeed from the same states, with the same results and the same states in the
end. Their failures may differ. -/
def Coincide (x y : Attempt ε S α) : Prop := ∀ s a t, Runs x s a t ↔ Runs y s a t

section Coincide

variable {x y : Attempt ε S α}

theorem Coincide.refl (x : Attempt ε S α) : Coincide x x := fun _ _ _ => Iff.rfl

theorem coincide_lift {r r' : Except ε α} (h : ∀ a, r = .ok a ↔ r' = .ok a) :
    Coincide (liftM r : Attempt ε S α) (liftM r') := by
  intro s a t
  rw [runs_lift, runs_lift, h a]

theorem coincide_bind {f g : α → Attempt ε S β} (h : Coincide x y)
    (k : ∀ a, Coincide (f a) (g a)) : Coincide (x >>= f) (y >>= g) := by
  intro s b u
  rw [runs_bind, runs_bind]
  exact exists_congr fun a => exists_congr fun t => and_congr (h s a t) (k a t b u)

theorem coincide_return (f : α → β) (h : Coincide x y) :
    Coincide (do return f (← x)) (do return f (← y)) :=
  coincide_bind h fun a => .refl (pure (f a))

/-- The same refusal in front of what follows. -/
theorem coincide_unless (refused : Prop) [Decidable refused] (why : ε)
    {f g : PUnit → Attempt ε S α} (h : Coincide (f ⟨⟩) (g ⟨⟩)) :
    Coincide (if refused then throw why >>= f else f ⟨⟩)
      (if refused then throw why >>= g else g ⟨⟩) := by
  split
  · exact coincide_bind (.refl _) fun _ => h
  · exact h

end Coincide

/-! ## Failures that leave the state -/

/-- A failure leaves the state as it was. -/
def Atomic (x : Attempt ε S α) : Prop := ∀ s why t, ending x s = (.error why, t) → t = s

/-- The computation does not change the state. -/
def Reads (x : Attempt ε S α) : Prop := ∀ s, (ending x s).2 = s

/-- The computation does not fail. -/
def Total (x : Attempt ε S α) : Prop := ∀ s, ∃ a t, Runs x s a t

theorem Total.atomic {x : Attempt ε S α} (h : Total x) : Atomic x := by
  intro s why t failed
  obtain ⟨a, u, run⟩ := h s
  rw [Runs, failed] at run
  cases run

theorem Reads.atomic {x : Attempt ε S α} (h : Reads x) : Atomic x := by
  intro s why t failed
  have unchanged := h s
  rw [failed] at unchanged
  exact unchanged

theorem total_modify (f : S → S) : Total (modify f : Attempt ε S Unit) :=
  fun s => ⟨(), f s, rfl⟩

theorem reads_lift (r : Except ε α) : Reads (liftM r : Attempt ε S α) := fun _ => rfl

/-- A step that is atomic, and then one that cannot fail. -/
theorem Atomic.bind_total {x : Attempt ε S α} {f : α → Attempt ε S β} (hx : Atomic x)
    (hf : ∀ a, Total (f a)) : Atomic (x >>= f) := by
  intro s why u failed
  rw [ending_bind] at failed
  rcases hend : ending x s with ⟨r, t⟩
  rw [hend] at failed
  cases r with
  | error reason =>
    obtain ⟨-, rfl⟩ := Prod.mk.inj failed
    exact hx s reason t hend
  | ok a =>
    obtain ⟨b, v, run⟩ := hf a t
    change ending (f a) t = _ at failed
    rw [run] at failed
    cases failed

/-! ## The state before and after -/

/-- The state in the end is related to the one at the start, also where the computation fails. -/
def Moves (R : S → S → Prop) (x : Attempt ε S α) : Prop := ∀ s, R s (ending x s).2

section Moves

variable {R : S → S → Prop}

theorem Reads.moves {x : Attempt ε S α} (h : Reads x) (refl : ∀ s, R s s) : Moves R x := by
  intro s
  rw [h s]
  exact refl s

theorem moves_modify {f : S → S} (h : ∀ s, R s (f s)) :
    Moves R (modify f : Attempt ε S Unit) := h

theorem moves_bind {x : Attempt ε S α} {f : α → Attempt ε S β}
    (trans : ∀ {s t u}, R s t → R t u → R s u) (hx : Moves R x) (hf : ∀ a, Moves R (f a)) :
    Moves R (x >>= f) := by
  intro s
  have first := hx s
  rw [ending_bind]
  rcases hend : ending x s with ⟨r, t⟩
  rw [hend] at first
  cases r with
  | error why => exact first
  | ok a => exact trans first (hf a t)

end Moves

/-- From a state with a property the computation leaves one with it, whether it fails or not, and
every result has a property of its own. -/
def Maintains (Inv : S → Prop) (P : α → Prop) (x : Attempt ε S α) : Prop :=
  ∀ s, Inv s → Inv (ending x s).2 ∧ ∀ a, (ending x s).1 = .ok a → P a

section Maintains

variable {Inv : S → Prop} {P : α → Prop} {Q : β → Prop}

theorem maintains_pure {a : α} (h : P a) : Maintains Inv P (pure a : Attempt ε S α) :=
  fun _ hs => ⟨hs, fun _ ha => Except.ok.inj ha ▸ h⟩

theorem maintains_throw (why : ε) : Maintains Inv P (throw why : Attempt ε S α) :=
  fun _ hs => ⟨hs, fun _ ha => nomatch ha⟩

theorem maintains_lift {r : Except ε α} (h : ∀ a, r = .ok a → P a) :
    Maintains Inv P (liftM r : Attempt ε S α) := fun _ hs => ⟨hs, h⟩

theorem maintains_modify {f : S → S} (h : ∀ s, Inv s → Inv (f s)) :
    Maintains Inv (fun _ => True) (modify f : Attempt ε S Unit) :=
  fun s hs => ⟨h s hs, fun _ _ => trivial⟩

theorem maintains_get_bind {f : S → Attempt ε S α} (h : ∀ s, Inv s → Maintains Inv P (f s)) :
    Maintains Inv P (get >>= f) := fun s hs => h s hs s hs

theorem maintains_bind {x : Attempt ε S α} {f : α → Attempt ε S β} (hx : Maintains Inv P x)
    (hf : ∀ a, P a → Maintains Inv Q (f a)) : Maintains Inv Q (x >>= f) := by
  intro s hs
  obtain ⟨ht, hresult⟩ := hx s hs
  rw [ending_bind]
  rcases hend : ending x s with ⟨r, t⟩
  rw [hend] at ht hresult
  cases r with
  | error why => exact ⟨ht, fun _ hb => nomatch hb⟩
  | ok a => exact hf a (hresult a rfl) t ht

end Maintains

/-! ## Two computations side by side -/

/-- Two results: the same error, or related values. -/
inductive Results (R : α → β → Prop) : Except ε α → Except ε β → Prop
  | ok {a : α} {b : β} (h : R a b) : Results R (.ok a) (.ok b)
  | error (why : ε) : Results R (.error why) (.error why)

theorem Results.refl {R : α → α → Prop} (h : ∀ a, R a a) (r : Except ε α) : Results R r r := by
  cases r with
  | error why => exact .error why
  | ok a => exact .ok (h a)

theorem Results.eq_of_unit {R : Unit → Unit → Prop} {r r' : Except ε Unit} (h : Results R r r') :
    r = r' := by
  cases h <;> rfl

/-- Steps from related results to related results. -/
theorem Results.bind {R : α → β → Prop} {Q : γ → δ → Prop} {r : Except ε α} {r' : Except ε β}
    {f : α → Except ε γ} {g : β → Except ε δ} (h : Results R r r')
    (k : ∀ a b, R a b → Results Q (f a) (g b)) : Results Q (r >>= f) (r' >>= g) := by
  cases h with
  | error why => exact .error why
  | ok hab => exact k _ _ hab

/-- Results that a function makes equal. -/
theorem results_of_map_eq {f : α → γ} {g : β → γ} {r : Except ε α} {r' : Except ε β}
    (h : r.map f = r'.map g) : Results (fun a b => f a = g b) r r' := by
  cases r with
  | error why =>
    cases r' with
    | error why' =>
      cases h
      exact .error why
    | ok b => cases h
  | ok a =>
    cases r' with
    | error why' => cases h
    | ok b => exact .ok (Except.ok.inj h)

/-- From related states the computations end with related results, in related states. -/
def Agree (P : S → T → Prop) (R : α → β → Prop) (x : Attempt ε S α)
    (y : Attempt ε T β) : Prop :=
  ∀ s t, P s t → Results R (ending x s).1 (ending y t).1 ∧ P (ending x s).2 (ending y t).2

section Agree

variable {P : S → T → Prop} {R : α → β → Prop} {Q : γ → δ → Prop}

theorem agree_pure {a : α} {b : β} (h : R a b) :
    Agree P R (pure a : Attempt ε S α) (pure b) :=
  fun _ _ hst => ⟨.ok h, hst⟩

theorem agree_modify {f : S → S} {g : T → T} (h : ∀ s t, P s t → P (f s) (g t)) :
    Agree P (fun _ _ => True) (modify f : Attempt ε S Unit) (modify g) :=
  fun s t hst => ⟨.ok trivial, h s t hst⟩

/-- A computation and itself. -/
theorem agree_self {P : α → α → Prop} (h : ∀ a, P a a) (x : Attempt ε S α) :
    Agree Eq P x x := by
  rintro s _ rfl
  exact ⟨.refl h _, rfl⟩

theorem agree_throw (why : ε) : Agree P R (throw why : Attempt ε S α) (throw why) :=
  fun _ _ hst => ⟨.error why, hst⟩

theorem agree_lift {r : Except ε α} {r' : Except ε β} (h : Results R r r') :
    Agree P R (liftM r : Attempt ε S α) (liftM r') :=
  fun _ _ hst => ⟨h, hst⟩

theorem agree_bind {x : Attempt ε S α} {y : Attempt ε T β} {f : α → Attempt ε S γ}
    {g : β → Attempt ε T δ} (h : Agree P R x y) (k : ∀ a b, R a b → Agree P Q (f a) (g b)) :
    Agree P Q (x >>= f) (y >>= g) := by
  intro s t hst
  obtain ⟨hr, hp⟩ := h s t hst
  rw [ending_bind, ending_bind]
  rcases hx : ending x s with ⟨r, s'⟩
  rcases hy : ending y t with ⟨r', t'⟩
  rw [hx, hy] at hr hp
  cases hr with
  | error why => exact ⟨.error why, hp⟩
  | ok hab => exact k _ _ hab s' t' hp

/-- The same refusal in front of what follows. -/
theorem agree_unless {refused : Prop} [Decidable refused] (why : ε)
    {f : PUnit → Attempt ε S α} {g : PUnit → Attempt ε T β} (h : Agree P R (f ⟨⟩) (g ⟨⟩)) :
    Agree P R (if refused then throw why >>= f else f ⟨⟩)
      (if refused then throw why >>= g else g ⟨⟩) := by
  split
  · exact fun _ _ hst => ⟨.error why, hst⟩
  · exact h

/-- Results that go through functions which keep the relation. -/
theorem agree_return {x : Attempt ε S α} {y : Attempt ε T β} {f : α → γ} {g : β → δ}
    (h : Agree P R x y) (k : ∀ a b, R a b → Q (f a) (g b)) :
    Agree P Q (do return f (← x)) (do return g (← y)) :=
  agree_bind h fun a b hab => agree_pure (k a b hab)

end Agree

end Attempt

end RowGraph
