/-!
# Settings

Settings say how rows and references are read. They hold for everything that is done while they are
in force: applying new ones yields a guard, and when a guard is released the settings that were in
force when it was made come back, in whatever order guards are released.

Main statements: `apply_eq` (what an application does), `inForce_release` (a released guard brings
back what it holds) and `isValid_apply` (settings that are not valid never come into force).

Modelled: `OrmSettings` with its default (`standard`) and its validation (`IsValid`, `validated`),
`apply`, `current` (`inForce`) and `SettingsGuard`, whose drop is `release`.

Left out: the lock around the settings in force: applications and releases come one after the other.
-/

namespace RowGraph

/-- How rows and references are read. -/
structure Settings where
  /-- Keys that are texts match in any case. -/
  caseInsensitive : Bool
  /-- A field without a column is an error. -/
  strictColumnMapping : Bool
  /-- The most keys that one query for references asks for. -/
  inBatchSize : Nat
deriving DecidableEq, Repr

/-- What can be wrong with settings. -/
inductive ConfigError
  | parse (field value source : String)
  | batchSize
deriving DecidableEq, Repr

/-- The kind of a settings error. -/
def ConfigError.kind : ConfigError → String
  | .parse _ _ _ => "Parse"
  | .batchSize => "Validation"

/-- The wording of a settings error. -/
def ConfigError.message : ConfigError → String
  | .parse field value source => "Parse error for " ++ field ++ ": " ++ value ++ " - " ++ source
  | .batchSize => "Validation error: in_batch_size: IN batch size must be between 1 and 100000"

namespace Settings

/-- The settings when nothing is said. -/
def standard : Settings := ⟨false, false, 1000⟩

/-- The largest batch. -/
def largestBatch : Nat := 100000

/-- Whether the settings may come into force. -/
def IsValid (s : Settings) : Prop := 1 ≤ s.inBatchSize ∧ s.inBatchSize ≤ largestBatch

instance (s : Settings) : Decidable s.IsValid := inferInstanceAs (Decidable (_ ∧ _))

/-- The settings, if they may come into force. -/
def validated (s : Settings) : Except ConfigError Settings :=
  if s.IsValid then .ok s else .error .batchSize

theorem isValid_standard : standard.IsValid := by decide

end Settings

/-- The settings in force, and for each guard made so far the settings that it holds, as long as it
has not been released. -/
structure Ambient where
  inForce : Settings
  guards : List (Option Settings)
deriving DecidableEq, Repr

namespace Ambient

/-- The standard settings and no guard. -/
def initial : Ambient := ⟨.standard, []⟩

/-- New settings put in force, if they are valid. One more guard, whose number is the result, keeps
those that were in force. -/
def putInForce (s : Settings) : ExceptT ConfigError (StateM Ambient) Nat := do
  let s ← (liftM s.validated : ExceptT ConfigError (StateM Ambient) Settings)
  let a ← get
  set ({ inForce := s, guards := a.guards ++ [some a.inForce] } : Ambient)
  return a.guards.length

/-- New settings applied: the number of the guard, or what is wrong with them, and the settings
afterwards. -/
def apply (a : Ambient) (s : Settings) : Except ConfigError Nat × Ambient :=
  (putInForce s).run.run a

/-- A guard released. One that is not there or was released before changes nothing. -/
def release (a : Ambient) (guard : Nat) : Ambient :=
  match a.guards[guard]? with
  | some (some held) => ⟨held, a.guards.set guard none⟩
  | _ => a

/-- The last guard released and forgotten. -/
def releaseLast (a : Ambient) : Ambient :=
  let b := a.release (a.guards.length - 1)
  { b with guards := b.guards.dropLast }

/-- All settings that are in force or can come back. -/
def IsValid (a : Ambient) : Prop :=
  a.inForce.IsValid ∧ ∀ s, some s ∈ a.guards → s.IsValid

theorem isValid_initial : initial.IsValid := ⟨Settings.isValid_standard, by simp [initial]⟩

/-- Valid settings come into force under the next guard, and others change nothing. -/
theorem apply_eq (a : Ambient) (s : Settings) :
    a.apply s = if s.IsValid then (.ok a.guards.length, ⟨s, a.guards ++ [some a.inForce]⟩)
      else (.error .batchSize, a) := by
  by_cases hs : s.IsValid
  · rw [if_pos hs, apply, putInForce, Settings.validated, if_pos hs]
    rfl
  · rw [if_neg hs, apply, putInForce, Settings.validated, if_neg hs]
    rfl

theorem isValid_apply {a : Ambient} (ha : a.IsValid) (s : Settings) : (a.apply s).2.IsValid := by
  rw [apply_eq]
  split
  · next hs =>
    refine ⟨hs, fun t ht => ?_⟩
    simp only [List.mem_append, List.mem_singleton, Option.some.injEq] at ht
    rcases ht with ht | rfl
    · exact ha.2 t ht
    · exact ha.1
  · exact ha

theorem isValid_release {a : Ambient} (ha : a.IsValid) (guard : Nat) :
    (a.release guard).IsValid := by
  unfold release
  split
  · next held h =>
    refine ⟨ha.2 held (List.mem_of_getElem? h), fun s hs => ?_⟩
    rcases List.mem_or_eq_of_mem_set hs with hs | hs
    · exact ha.2 s hs
    · cases hs
  · exact ha

/-- Releasing the guard of the settings applied last brings back those before. -/
theorem inForce_release {a : Ambient} {s : Settings} {guard : Nat}
    (h : (a.apply s).1 = .ok guard) : ((a.apply s).2.release guard).inForce = a.inForce := by
  rw [apply_eq] at h ⊢
  split at h
  · next hs =>
    cases h
    rw [if_pos hs]
    simp [release]
  · cases h

end Ambient

end RowGraph
