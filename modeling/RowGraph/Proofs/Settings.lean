import RowGraph.Settings.Basic

/-!
# Settings come back

A guard keeps the settings that were in force before the ones it was made for, and nothing else is
remembered: there is no stack of settings. Whether the right settings come back is therefore a
matter of whole runs.

For one guard the order does not matter: whatever happens between an application and the release of
its guard, other guards released too early or too late included, the release brings back the
settings from before the application (`inForce_after_release`). What needs the order is the end of a
run. If guards are released innermost first, `Ambient.base n`, the settings that the first guard
still held from the `n`-th on keeps, or those in force when there is none, never changes
(`base_after`, `base_run`), and once these guards are gone it is what is in force.

Settings that are refused leave no trace, so they may stand anywhere in a run.

Main statements: `base_run` and `settings_come_back`.
-/

namespace RowGraph

namespace Ambient

variable {a : Ambient} {s : Settings} {n guard : Nat}

/-- What a program does to the settings. -/
inductive Event
  | apply (s : Settings)
  | release (guard : Nat)
deriving DecidableEq, Repr

/-- The settings behind an event. -/
def after (a : Ambient) : Event → Ambient
  | .apply s => (a.apply s).2
  | .release guard => a.release guard

/-- The settings behind a list of events. -/
def run (a : Ambient) (events : List Event) : Ambient := events.foldl after a

/-- The guard was made and has not been released. -/
def Holds (a : Ambient) (guard : Nat) : Prop := ∃ held, a.guards[guard]? = some (some held)

/-- Each guard is released after every guard that was made later. -/
def Nested : Ambient → List Event → Prop
  | _, [] => True
  | a, .apply s :: events => Nested (a.after (.apply s)) events
  | a, .release guard :: events =>
    (∀ later, guard < later → ¬ a.Holds later) ∧ Nested (a.after (.release guard)) events

/-- The settings from before the guards that are held from the `n`-th on. -/
def base (n : Nat) (a : Ambient) : Settings :=
  ((a.guards.drop n).findSome? id).getD a.inForce

/-! ### One event -/

/-- An application is refused and leaves everything as it was, or its guard is the next one. -/
theorem after_apply (a : Ambient) (s : Settings) :
    (¬ s.IsValid ∧ a.after (.apply s) = a) ∨
    (s.IsValid ∧ a.after (.apply s) = ⟨s, a.guards ++ [some a.inForce]⟩) := by
  rw [after, apply_eq]
  by_cases hs : s.IsValid
  · exact .inr ⟨hs, by rw [if_pos hs]⟩
  · exact .inl ⟨hs, by rw [if_neg hs]⟩

/-- A failing application changes nothing, and it fails for settings that are not valid. -/
theorem apply_of_error {why : ConfigError} (h : (a.apply s).1 = .error why) :
    (a.apply s).2 = a ∧ ¬ s.IsValid := by
  rw [apply_eq] at h ⊢
  split at h
  · cases h
  · next hs => exact ⟨by rw [if_neg hs], hs⟩

/-- An application that succeeds puts the settings in force, under the next guard. -/
theorem apply_of_ok (h : (a.apply s).1 = .ok guard) :
    guard = a.guards.length ∧ (a.apply s).2 = ⟨s, a.guards ++ [some a.inForce]⟩ := by
  rw [apply_eq] at h ⊢
  split at h
  · next hs =>
    cases h
    exact ⟨rfl, by rw [if_pos hs]⟩
  · cases h

/-- A release brings back what the guard holds, or does nothing when it holds nothing. -/
theorem after_release (a : Ambient) (guard : Nat) :
    (¬ a.Holds guard ∧ a.after (.release guard) = a) ∨
    (∃ held, a.guards[guard]? = some (some held) ∧
      a.after (.release guard) = ⟨held, a.guards.set guard none⟩) := by
  by_cases h : a.Holds guard
  · obtain ⟨held, hheld⟩ := h
    exact .inr ⟨held, hheld, by simp [after, release, hheld]⟩
  · refine .inl ⟨h, ?_⟩
    simp only [after, release]
    split
    · next held hheld => exact absurd ⟨held, hheld⟩ h
    · rfl

theorem IsValid.after (ha : a.IsValid) (e : Event) : (a.after e).IsValid := by
  cases e with
  | apply s => exact isValid_apply ha s
  | release guard => exact isValid_release ha guard

/-- A guard keeps what it holds until it is released. -/
theorem getElem?_guards_after {held : Settings} {e : Event}
    (h : a.guards[guard]? = some (some held)) (he : e ≠ .release guard) :
    (a.after e).guards[guard]? = some (some held) := by
  cases e with
  | apply s =>
    obtain ⟨-, ha⟩ | ⟨-, ha⟩ := after_apply a s
    · rwa [ha]
    · rw [ha, List.getElem?_append_left (List.getElem?_eq_some_iff.1 h).1, h]
  | release other =>
    have hne : other ≠ guard := fun hog => he (hog ▸ rfl)
    obtain ⟨-, ha⟩ | ⟨_, -, ha⟩ := after_release a other
    · rwa [ha]
    · rw [ha]
      exact (List.getElem?_set_ne hne).trans h

/-! ### Guards released innermost first -/

/-- Of guards that are all released, none holds anything. -/
theorem findSome?_guards_drop (h : ∀ guard, n ≤ guard → ¬ a.Holds guard) :
    (a.guards.drop n).findSome? id = none := by
  rw [List.findSome?_eq_none_iff]
  intro kept hkept
  obtain ⟨i, hi⟩ := List.mem_iff_getElem?.1 hkept
  rw [List.getElem?_drop] at hi
  cases kept with
  | none => rfl
  | some s => exact absurd ⟨s, hi⟩ (h _ (by omega))

/-- The innermost guard released: what it held takes the place of the settings in force. -/
theorem base_release_last {held : Settings} (hn : n ≤ guard)
    (h : a.guards[guard]? = some (some held)) (hlater : ∀ later, guard < later → ¬ a.Holds later) :
    base n ⟨held, a.guards.set guard none⟩ = base n a := by
  obtain ⟨hlt, hget⟩ := List.getElem?_eq_some_iff.1 h
  have hrest : (a.guards.drop (guard + 1)).findSome? id = none :=
    findSome?_guards_drop fun later hlt => hlater later hlt
  have hsplit : a.guards = a.guards.take guard ++ some held :: a.guards.drop (guard + 1) := by
    rw [← hget, List.getElem_cons_drop, List.take_append_drop]
  have hlength : (a.guards.take guard).length = guard := by simp; omega
  have hset : a.guards.set guard none =
      a.guards.take guard ++ none :: a.guards.drop (guard + 1) :=
    List.set_eq_take_append_cons_drop.trans (if_pos hlt)
  unfold base
  rw [hset]
  conv => rhs; rw [hsplit]
  rw [List.drop_append_of_le_length (by omega), List.drop_append_of_le_length (by omega)]
  simp only [List.findSome?_append, List.findSome?_cons, id, hrest]
  cases ((a.guards.take guard).drop n).findSome? id <;> rfl

/-- An application puts the settings that were in force behind all that are held, so what the first
guard held is stays. -/
theorem base_apply (hn : n ≤ a.guards.length) :
    base n ⟨s, a.guards ++ [some a.inForce]⟩ = base n a := by
  unfold base
  rw [List.drop_append_of_le_length hn, List.findSome?_append]
  cases (a.guards.drop n).findSome? id <;> rfl

/-- The settings that are in force and those that can come back, of the guards from the `n`-th on:
no event takes the outermost away, as long as older guards are kept and guards are released
innermost first. -/
theorem base_after {e : Event} {events : List Event} (hn : n ≤ a.guards.length)
    (hnested : a.Nested (e :: events)) (hkept : ∀ guard, e = .release guard → n ≤ guard) :
    base n (a.after e) = base n a := by
  cases e with
  | apply s =>
    obtain ⟨-, h⟩ | ⟨-, h⟩ := after_apply a s
    · rw [h]
    · rw [h, base_apply hn]
  | release guard =>
    obtain ⟨-, h⟩ | ⟨held, hheld, h⟩ := after_release a guard
    · rw [h]
    · rw [h, base_release_last (hkept guard rfl) hheld hnested.1]

theorem length_guards_after (a : Ambient) (e : Event) :
    a.guards.length ≤ (a.after e).guards.length := by
  cases e with
  | apply s =>
    obtain ⟨-, h⟩ | ⟨-, h⟩ := after_apply a s <;> simp [h]
  | release guard =>
    obtain ⟨-, h⟩ | ⟨_, -, h⟩ := after_release a guard <;> simp [h]

theorem Nested.tail {e : Event} {events : List Event} (h : a.Nested (e :: events)) :
    (a.after e).Nested events := by
  cases e with
  | apply s => exact h
  | release guard => exact h.2

/-! ### Runs -/

theorem IsValid.run (ha : a.IsValid) (events : List Event) : (a.run events).IsValid := by
  induction events generalizing a with
  | nil => exact ha
  | cons e events ih => exact ih (ha.after e)

theorem getElem?_guards_run {held : Settings} {events : List Event}
    (h : a.guards[guard]? = some (some held)) (hkept : .release guard ∉ events) :
    (a.run events).guards[guard]? = some (some held) := by
  induction events generalizing a with
  | nil => exact h
  | cons e events ih =>
    rw [List.mem_cons, not_or] at hkept
    exact ih (getElem?_guards_after h (Ne.symm hkept.1)) hkept.2

/-- The release of a guard brings back the settings from before its application, whatever happened
in between. -/
theorem inForce_after_release {between : List Event} (h : (a.apply s).1 = .ok guard)
    (hkept : .release guard ∉ between) :
    (((a.apply s).2.run between).after (.release guard)).inForce = a.inForce := by
  obtain ⟨rfl, happlied⟩ := apply_of_ok h
  have hheld : (a.apply s).2.guards[a.guards.length]? = some (some a.inForce) := by
    simp [happlied]
  simp only [after, release, getElem?_guards_run hheld hkept]

theorem base_run {events : List Event} (hn : n ≤ a.guards.length) (hnested : a.Nested events)
    (hkept : ∀ guard, .release guard ∈ events → n ≤ guard) :
    base n (a.run events) = base n a := by
  induction events generalizing a with
  | nil => rfl
  | cons e events ih =>
    calc base n ((a.after e).run events)
        = base n (a.after e) :=
          ih (Nat.le_trans hn (length_guards_after a e)) hnested.tail
            fun guard h => hkept guard (List.mem_cons_of_mem _ h)
      _ = base n a :=
          base_after hn hnested fun guard h => hkept guard (h ▸ List.mem_cons_self)

/-- Once the guards from the `n`-th on are gone, what they began with is in force. -/
theorem base_eq_inForce (h : ∀ guard, n ≤ guard → ¬ a.Holds guard) : base n a = a.inForce := by
  rw [base, findSome?_guards_drop h, Option.getD_none]

/-- In every state that a program reaches, the settings in force are valid; an application that
fails changes nothing and fails for settings that are not valid; one that succeeds puts its settings
in force, and the release of its guard brings back those from right before it; and when guards are
released innermost first, once all that were made since are gone, the settings are those of that
state again. -/
theorem settings_come_back (before : List Event) :
    let a := initial.run before
    (1 ≤ a.inForce.inBatchSize ∧ a.inForce.inBatchSize ≤ 100000) ∧
    (∀ s why, (a.apply s).1 = .error why → (a.apply s).2 = a ∧ ¬ s.IsValid) ∧
    (∀ s guard, (a.apply s).1 = .ok guard →
      guard = a.guards.length ∧ (a.apply s).2.inForce = s ∧
      ∀ between, .release guard ∉ between →
        (((a.apply s).2.run between).after (.release guard)).inForce = a.inForce) ∧
    (∀ events, a.Nested events → (∀ guard, .release guard ∈ events → a.guards.length ≤ guard) →
      (∀ guard, a.guards.length ≤ guard → ¬ (a.run events).Holds guard) →
      (a.run events).inForce = a.inForce) := by
  intro a
  refine ⟨(isValid_initial.run before).1, fun s why => apply_of_error, ?released, ?nested⟩
  case released =>
    intro s guard h
    obtain ⟨hguard, happlied⟩ := apply_of_ok h
    exact ⟨hguard, by rw [happlied], fun between => inForce_after_release h⟩
  case nested =>
    intro events hnested hkept hgone
    calc (a.run events).inForce
        = base a.guards.length (a.run events) := (base_eq_inForce hgone).symm
      _ = base a.guards.length a := base_run (Nat.le_refl _) hnested hkept
      _ = a.inForce := by simp [base]

/-- Two applications, one inside the other and one refused between them, under settings that were
applied before. -/
theorem settings_come_back_nested :
    let a := initial.run [.apply ⟨true, false, 5⟩]
    let inner : List Event := [.apply ⟨false, false, 0⟩, .apply ⟨true, true, 9⟩, .release 2]
    (a.apply ⟨false, false, 0⟩).2 = a ∧
    (a.run (.apply ⟨false, true, 7⟩ :: inner)).inForce = ⟨false, true, 7⟩ ∧
    (a.run (.apply ⟨false, true, 7⟩ :: inner ++ [.release 1])).inForce = ⟨true, false, 5⟩ := by
  intro a inner
  obtain ⟨-, hrefused, -, hnested⟩ := settings_come_back [.apply ⟨true, false, 5⟩]
  have hcome := (settings_come_back [.apply ⟨true, false, 5⟩, .apply ⟨false, true, 7⟩]).2.2.1
  refine ⟨(hrefused ⟨false, false, 0⟩ .batchSize rfl).1,
    (hcome ⟨true, true, 9⟩ 2 rfl).2.2 [] (by simp), hnested _ ?innermost ?since ?gone⟩
  case innermost =>
    refine ⟨?two, ?one, trivial⟩
    case two =>
      rintro later hlater ⟨held, h⟩
      rw [List.getElem?_eq_none (by exact hlater)] at h
      cases h
    case one =>
      rintro later hlater ⟨held, h⟩
      match later, hlater with
      | 2, _ => cases h
      | k + 3, _ => cases h
  case since =>
    intro guard hguard
    have h : guard = 2 ∨ guard = 1 := by simpa [inner] using hguard
    show 1 ≤ guard
    omega
  case gone =>
    rintro guard hguard ⟨held, h⟩
    match guard, hguard with
    | 1, _ => cases h
    | 2, _ => cases h
    | k + 3, _ => cases h

end Ambient

end RowGraph
