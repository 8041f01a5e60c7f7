import RowGraph.Proofs.Columns.Rules

/-!
# What column plans look like

A plan is made in one pass over the fields, which carries the list of the columns that are taken. It
follows the rules, and what holds of plans is read off the rules.

Results:
* `guessMissing_cons`, `guesses_guessMissing`: one field, and all fields.
* `isPlan_of_columnPlan`, `columnPlan_eq_error_iff`: every plan follows the rules, and strict mode
  refuses exactly the fields that would have to guess.
* `columnPlan_of_columns`: the plan for columns among which every field finds its own.
* **`columnPlan_in_both_modes`**: when strict mode fails and with what, and what lenient mode does
  instead.
-/

namespace RowGraph

/-! ## Guesses in order -/

section InOrder

variable {columns : List String} {taken : List Nat} {claims : List (Field × Option Nat)} {i : Nat}

/-- **One field**: it has the column that it claims, else the one that it guesses, which is taken
from then on. -/
theorem guessMissing_cons (names : List (List Char)) (f : Field) {claim : Option Nat}
    (rest : List (Field × Option Nat)) (known : ∀ c, claim = some c → c ∈ taken) :
    ∃ taken', guessMissing names taken ((f, claim) :: rest) =
        claim.or (f.guess? names taken) :: guessMissing names taken' rest ∧
      ∀ c, c ∈ taken' ↔ c ∈ taken ∨ claim.or (f.guess? names taken) = some c := by
  cases claim with
  | some k =>
    refine ⟨taken, rfl, fun c => ⟨.inl, ?_⟩⟩
    rintro (before | own)
    · exact before
    · exact known c own
  | none =>
    rw [guessMissing, Option.none_or]
    cases f.guess? names taken with
    | none => exact ⟨taken, rfl, by simp⟩
    | some k => exact ⟨k :: taken, rfl, by simp [eq_comm, or_comm]⟩

/-- The places in front of the next one, with the first of them apart. -/
theorem exists_lt_succ_cons {α : Type} {a b : α} {l : List α} :
    (∃ j < i + 1, (a :: l)[j]? = some b) ↔ a = b ∨ ∃ j < i, l[j]? = some b := by
  constructor
  · rintro ⟨_ | j, before, at_j⟩
    · exact .inl (Option.some.inj at_j)
    · exact .inr ⟨j, Nat.lt_of_succ_lt_succ before, at_j⟩
  · rintro (rfl | ⟨j, before, at_j⟩)
    · exact ⟨0, Nat.zero_lt_succ i, rfl⟩
    · exact ⟨j + 1, Nat.succ_lt_succ before, at_j⟩

/-- Fields have what they claim. -/
theorem getElem?_guessMissing_of_claim {f : Field} {c : Nat} (names : List (List Char))
    (known : ∀ g c, (g, some c) ∈ claims → c ∈ taken) (at_i : claims[i]? = some (f, some c)) :
    (guessMissing names taken claims)[i]? = some (some c) := by
  induction claims generalizing taken i with
  | nil => cases at_i
  | cons claim rest ih =>
    obtain ⟨g, k⟩ := claim
    obtain ⟨taken', step, grown⟩ := guessMissing_cons names g rest
      fun c own => known g c (own ▸ List.mem_cons_self)
    rw [step]
    cases i with
    | zero =>
      cases at_i
      rfl
    | succ i =>
      exact ih (fun g c inside => (grown c).mpr (.inl (known g c (List.mem_cons_of_mem _ inside))))
        at_i

/-- **All fields**: those without a claim guess by the rules, with everything taken that was so at
the start or that a field before them has. -/
theorem guesses_guessMissing {f : Field} (known : ∀ g c, (g, some c) ∈ claims → c ∈ taken)
    (at_i : claims[i]? = some (f, none)) :
    let plan := guessMissing (columns.map bareName) taken claims
    ∃ guess, plan[i]? = some guess ∧
      f.Guesses columns {c | c ∈ taken ∨ ∃ j < i, plan[j]? = some (some c)} guess := by
  intro plan
  induction claims generalizing taken i with
  | nil => cases at_i
  | cons claim rest ih =>
    obtain ⟨g, k⟩ := claim
    obtain ⟨taken', step, grown⟩ := guessMissing_cons (columns.map bareName) g rest
      fun c own => known g c (own ▸ List.mem_cons_self)
    rw [show plan = _ from step]
    cases i with
    | zero =>
      cases at_i
      refine ⟨_, rfl, ?_⟩
      simpa using f.guesses_guess? columns taken
    | succ i =>
      obtain ⟨guess, found, guesses⟩ := ih (fun g c inside =>
        (grown c).mpr (.inl (known g c (List.mem_cons_of_mem _ inside)))) at_i
      refine ⟨guess, found, ?_⟩
      simpa only [exists_lt_succ_cons, grown, or_assoc] using guesses

end InOrder

/-! ## Plans -/

namespace Entity

variable {e : Entity} {strict : Bool} {columns : List String} {plan : List (Option Nat)}

/-- The columns that the field at a place cannot guess: those that a field claims, and those that a
field before it has. -/
def taken (e : Entity) (columns : List String) (plan : List (Option Nat)) (i : Nat) : Set Nat :=
  {c | (∃ g ∈ e.fields, g.Claims columns c) ∨ ∃ j < i, plan[j]? = some (some c)}

/-- **The rules for a plan.** -/
structure IsPlan (e : Entity) (columns : List String) (plan : List (Option Nat)) : Prop where
  /-- There is a place for each field. -/
  length_eq : plan.length = e.fields.length
  /-- A field has what it claims. -/
  claimed : ∀ {i : Nat} {f : Field} {c : Nat}, e.fields[i]? = some f → f.Claims columns c → plan[i]? = some (some c)
  /-- A field that claims nothing has what it guesses. -/
  guessed : ∀ {i : Nat} {f : Field}, e.fields[i]? = some f → f.Unmatched columns →
    ∃ guess, plan[i]? = some guess ∧ f.Guesses columns (e.taken columns plan i) guess

theorem mem_filterMap_claims {c : Nat} :
    c ∈ (e.claims columns).filterMap Prod.snd ↔ ∃ g ∈ e.fields, g.Claims columns c := by
  simp only [claims, List.filterMap_map, List.mem_filterMap, Function.comp_apply,
    Field.claim?_eq_some_iff]

theorem isPlan_guessMissing (e : Entity) (columns : List String) :
    e.IsPlan columns (guessMissing (columns.map bareName)
      ((e.claims columns).filterMap Prod.snd) (e.claims columns)) := by
  have known : ∀ g c, (g, some c) ∈ e.claims columns →
      c ∈ (e.claims columns).filterMap Prod.snd :=
    fun g c inside => List.mem_filterMap.mpr ⟨_, inside, rfl⟩
  have at_i : ∀ {i : Nat} {f : Field}, e.fields[i]? = some f →
      (e.claims columns)[i]? = some (f, f.claim? columns) := by
    intro i f at_i
    rw [claims, List.getElem?_map, at_i]
    rfl
  refine ⟨by simp [claims], ?_, ?_⟩
  · intro i f c here own
    refine getElem?_guessMissing_of_claim _ known (f := f) ?_
    rw [at_i here, Field.claim?_eq_some_iff.mpr own]
  · intro i f here unmatched
    have unclaimed := at_i here
    rw [Field.claim?_eq_none_iff.mpr unmatched] at unclaimed
    obtain ⟨guess, found, guesses⟩ := guesses_guessMissing known unclaimed
    simp only [mem_filterMap_claims] at guesses
    exact ⟨guess, found, guesses⟩

theorem unmatched_eq (e : Entity) (columns : List String) :
    e.unmatched columns = (e.fields.filter fun f => f.Unmatched columns).map Field.name := by
  rw [unmatched]
  refine congrArg _ (List.filter_congr fun f _ => ?_)
  rw [Bool.eq_iff_iff, Option.isNone_iff_eq_none, Field.claim?_eq_none_iff, decide_eq_true_eq]

/-- **Strict mode refuses exactly the fields that would have to guess**; lenient mode refuses
nothing. -/
theorem columnPlan_eq_error_iff {why : MappingError} :
    e.columnPlan strict columns = .error why ↔
      strict = true ∧ (∃ f ∈ e.fields, f.Unmatched columns) ∧
        why = .unmatchedFields e.name
          ((e.fields.filter fun f => f.Unmatched columns).map Field.name) := by
  have some_unmatched : (e.unmatched columns).isEmpty = false ↔
      ∃ f ∈ e.fields, f.Unmatched columns := by
    simp [unmatched_eq]
  rw [columnPlan, ← some_unmatched, ← unmatched_eq]
  cases strict <;> cases (e.unmatched columns).isEmpty <;> simp [eq_comm]

/-- **Every plan follows the rules.** -/
theorem isPlan_of_columnPlan (h : e.columnPlan strict columns = .ok plan) :
    e.IsPlan columns plan := by
  unfold columnPlan at h
  split at h
  · cases h
  · cases h
    exact e.isPlan_guessMissing columns

/-- Lenient mode always has a plan. -/
theorem exists_columnPlan (e : Entity) (columns : List String) :
    ∃ plan, e.columnPlan false columns = .ok plan :=
  ⟨_, rfl⟩

/-- A plan of strict mode is the plan of lenient mode. -/
theorem columnPlan_lenient (h : e.columnPlan strict columns = .ok plan) :
    e.columnPlan false columns = .ok plan := by
  unfold columnPlan at h
  split at h
  · cases h
  · exact h

/-! ## Laws of plans -/

namespace IsPlan

variable {i : Nat} {f : Field} {c : Nat}

/-- A column that a field has is claimed, or guessed. -/
theorem claims_or_guesses (h : e.IsPlan columns plan) (here : e.fields[i]? = some f)
    (has : plan[i]? = some (some c)) :
    f.Claims columns c ∨
      f.Unmatched columns ∧ f.Guesses columns (e.taken columns plan i) (some c) := by
  by_cases unmatched : f.Unmatched columns
  · obtain ⟨guess, found, guesses⟩ := h.guessed here unmatched
    rw [found, Option.some_inj] at has
    exact .inr ⟨unmatched, has ▸ guesses⟩
  · obtain ⟨d, claims⟩ := Field.exists_claims unmatched
    have found := h.claimed here claims
    rw [found, Option.some_inj, Option.some_inj] at has
    exact .inl (has ▸ claims)

/-- Every place of the plan is a field's. -/
theorem exists_field (h : e.IsPlan columns plan) {column : Option Nat}
    (has : plan[i]? = some column) : ∃ f, e.fields[i]? = some f := by
  obtain ⟨inside, -⟩ := List.getElem?_eq_some_iff.mp has
  rw [h.length_eq] at inside
  exact ⟨_, List.getElem?_eq_getElem inside⟩

/-- A guessed column was left. -/
theorem not_mem_taken (h : e.IsPlan columns plan) (here : e.fields[i]? = some f)
    (unmatched : f.Unmatched columns) (has : plan[i]? = some (some c)) :
    c ∉ e.taken columns plan i := by
  obtain claims | ⟨-, guesses⟩ := h.claims_or_guesses here has
  · exact absurd claims unmatched.not_claims
  · exact guesses.mem.2

/-- A guessed column is no other field's. -/
theorem eq_of_guessed (h : e.IsPlan columns plan) (here : e.fields[i]? = some f)
    (unmatched : f.Unmatched columns) (has : plan[i]? = some (some c)) {j : Nat}
    (has_j : plan[j]? = some (some c)) : j = i := by
  have left := h.not_mem_taken here unmatched has
  obtain ⟨g, here_j⟩ := h.exists_field has_j
  obtain claims | ⟨-, guesses⟩ := h.claims_or_guesses here_j has_j
  · exact absurd (.inl ⟨g, List.mem_of_getElem? here_j, claims⟩) left
  · rcases Nat.lt_trichotomy j i with before | same | behind
    · exact absurd (.inr ⟨j, before, has_j⟩) left
    · exact same
    · exact absurd (.inr ⟨i, behind, has⟩) guesses.mem.2

/-- A taken column is in the plan. -/
theorem exists_of_mem_taken (h : e.IsPlan columns plan) (taken : c ∈ e.taken columns plan i) :
    ∃ j : Nat, plan[j]? = some (some c) := by
  rcases taken with ⟨g, inside, claims⟩ | ⟨j, -, has⟩
  · obtain ⟨j, at_j⟩ := List.mem_iff_getElem?.mp inside
    exact ⟨j, h.claimed at_j claims⟩
  · exact ⟨j, has⟩

end IsPlan

/-- Where every field has a column with its column's name, both modes have the same plan, in which
nothing is guessed. -/
theorem columnPlan_of_columns
    (has : ∀ f ∈ e.fields, (columns.findIdx? (Text.sameName · f.column)).isSome) (strict : Bool) :
    e.columnPlan strict columns =
      .ok (e.fields.map fun f => columns.findIdx? (Text.sameName · f.column)) := by
  have claimed : ∀ {f : Field}, f ∈ e.fields → ∃ c, f.Claims columns c ∧
      columns.findIdx? (Text.sameName · f.column) = some c := by
    intro f inside
    obtain ⟨c, found⟩ := Option.isSome_iff_exists.mp (has f inside)
    exact ⟨c, .column (findIdx?_eq_some_iff_isLeast.mp found), found⟩
  cases made : e.columnPlan strict columns with
  | error why =>
    obtain ⟨-, ⟨f, inside, unmatched⟩, -⟩ := columnPlan_eq_error_iff.mp made
    obtain ⟨c, claims, -⟩ := claimed inside
    exact absurd claims unmatched.not_claims
  | ok plan =>
    have h := isPlan_of_columnPlan made
    refine congrArg Except.ok (List.ext_getElem? fun i => ?_)
    rw [List.getElem?_map]
    cases here : e.fields[i]? with
    | none =>
      rw [List.getElem?_eq_none_iff, ← h.length_eq] at here
      exact List.getElem?_eq_none here
    | some f =>
      obtain ⟨c, claims, found⟩ := claimed (List.mem_of_getElem? here)
      rw [h.claimed here claims, Option.map_some, found]

/-! ## The two modes -/

/-- What lenient mode promises of its plans. -/
structure IsLenientPlan (e : Entity) (columns : List String) (plan : List (Option Nat)) :
    Prop where
  /-- There is a place for each field. -/
  length_eq : plan.length = e.fields.length
  /-- A field that strict mode accepts has the column that it has there. -/
  matched : ∀ {i : Nat} {f : Field}, e.fields[i]? = some f → ¬ f.Unmatched columns →
    ∃ c, f.Claims columns c ∧ plan[i]? = some (some c)
  /-- A column that another one guesses ends with one of its names, and no field claims it or has
  it besides. -/
  guessed : ∀ {i : Nat} {f : Field} {c : Nat}, e.fields[i]? = some f → f.Unmatched columns →
    plan[i]? = some (some c) →
      c ∈ placesWith columns f.Ends ∧ (∀ g ∈ e.fields, ¬ g.Claims columns c) ∧
        ∀ j : Nat, plan[j]? = some (some c) → j = i
  /-- A field without a column found none: those that end with one of its names are all in the
  plan. -/
  missing : ∀ {i : Nat} {f : Field}, e.fields[i]? = some f → plan[i]? = some none →
    f.Unmatched columns ∧ ∀ c ∈ placesWith columns f.Ends, ∃ j : Nat, plan[j]? = some (some c)

theorem IsPlan.isLenientPlan (h : e.IsPlan columns plan) : e.IsLenientPlan columns plan where
  length_eq := h.length_eq
  matched := by
    intro i f here matched
    obtain ⟨c, claims⟩ := Field.exists_claims matched
    exact ⟨c, claims, h.claimed here claims⟩
  guessed := by
    intro i f c here unmatched has
    have left := h.not_mem_taken here unmatched has
    obtain claims | ⟨-, guesses⟩ := h.claims_or_guesses here has
    · exact absurd claims unmatched.not_claims
    · exact ⟨guesses.mem.1, fun g inside claims => left (.inl ⟨g, inside, claims⟩),
        fun j has_j => h.eq_of_guessed here unmatched has has_j⟩
  missing := by
    intro i f here has
    have unmatched : f.Unmatched columns := by
      by_contra matched
      obtain ⟨c, claims⟩ := Field.exists_claims matched
      rw [h.claimed here claims] at has
      cases has
    obtain ⟨guess, found, guesses⟩ := h.guessed here unmatched
    rw [found, Option.some_inj] at has
    subst has
    cases guesses with
    | nothing none_left => exact ⟨unmatched, fun c ends => h.exists_of_mem_taken (none_left ends)⟩

/-- **Both modes, for every entity and every list of columns.** Strict mode fails exactly if some
field has neither a column with its column's name nor, where that differs, one with its own name,
and the error lists all such fields in order. Lenient mode never fails; where strict mode does not
either they have the same plan, and otherwise every field that is not listed still has the column
that the rules of strict mode give it, the guessed columns are all different and none of them is
claimed, and a field is left without a column only if every column that ends with one of its bare
names is in the plan. -/
theorem columnPlan_in_both_modes (e : Entity) (columns : List String) :
    (∀ why, e.columnPlan true columns = .error why ↔
      (∃ f ∈ e.fields, f.Unmatched columns) ∧
        why = .unmatchedFields e.name
          ((e.fields.filter fun f => f.Unmatched columns).map Field.name)) ∧
      ∃ plan, e.columnPlan false columns = .ok plan ∧ e.IsLenientPlan columns plan ∧
        ∀ strictPlan, e.columnPlan true columns = .ok strictPlan → strictPlan = plan := by
  refine ⟨fun why => columnPlan_eq_error_iff.trans (and_iff_right rfl), ?_⟩
  obtain ⟨plan, made⟩ := e.exists_columnPlan columns
  refine ⟨plan, made, (isPlan_of_columnPlan made).isLenientPlan, fun strictPlan made_strict => ?_⟩
  have same := columnPlan_lenient made_strict
  rw [made, Except.ok.injEq] at same
  exact same.symm

end Entity

end RowGraph
