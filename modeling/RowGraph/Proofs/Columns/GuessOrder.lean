import Mathlib.Data.Finset.Dedup
import Mathlib.Data.Finset.Order
import RowGraph.Proofs.Columns.Plans
import RowGraph.Sample

/-!
# The order of guesses

A field that guesses prefers a column with one of its bare names to one that only ends with it. This
is a preference of each field by itself: the fields choose one after another, and a field that finds
no column of its name takes one that ends with it, be it the only one with the name of a later field.

Results:
* `IsPlan.names_iff`: a guessing field gets a column of its name exactly if one is left when its turn
  comes.
* `taken_replicate`: of equal columns every field that they fit gets the next one.
* **`guesses_by_strength`**: no column ever goes to a field with whose name it only ends, while the
  field whose name it has gets none of its name, exactly if the bare names of a field end with one of
  an earlier field only where the earlier field has them too.
* `Sample.not_strongerFirst_address`: an address, whose key is guessed from the column of the
  customer's key.
-/

namespace RowGraph

/-! ## What a guess depends on -/

namespace Field

variable {f : Field} {column name : String}

theorem names_congr (same : bareName column = bareName name) : f.Names column ↔ f.Names name := by
  rw [Names, Names, same]

theorem ends_congr (same : bareName column = bareName name) : f.Ends column ↔ f.Ends name := by
  rw [Ends, Ends, same]

theorem names_of_own (own : name ∈ [f.name, f.column]) (nonempty : bareName name ≠ []) :
    f.Names name :=
  ⟨name, own, nonempty, rfl⟩

theorem Ends.ne_nil (h : f.Ends column) : bareName column ≠ [] := by
  obtain ⟨own, -, nonempty, ends⟩ := h
  intro empty
  rw [empty, List.suffix_nil] at ends
  exact nonempty ends

end Field

namespace Entity

variable {e : Entity} {columns : List String} {plan : List (Option Nat)}

theorem taken_mono {i j : Nat} (le : i ≤ j) :
    e.taken columns plan i ⊆ e.taken columns plan j := by
  rintro c (claimed | ⟨k, before, has⟩)
  · exact .inl claimed
  · exact .inr ⟨k, before.trans_le le, has⟩

theorem mem_taken_succ {i c : Nat} : c ∈ e.taken columns plan (i + 1) ↔
    c ∈ e.taken columns plan i ∨ plan[i]? = some (some c) := by
  constructor
  · rintro (claimed | ⟨k, before, has⟩)
    · exact .inl (.inl claimed)
    · rcases Nat.lt_succ_iff_lt_or_eq.mp before with earlier | rfl
      · exact .inl (.inr ⟨k, earlier, has⟩)
      · exact .inr has
  · rintro (before | has)
    · exact taken_mono (Nat.le_succ i) before
    · exact .inr ⟨i, Nat.lt_succ_self i, has⟩

/-- **A guessing field gets a column of its name exactly if one is left**, that is, neither claimed
nor guessed by a field before it. -/
theorem IsPlan.names_iff (h : e.IsPlan columns plan) {i : Nat} {f : Field}
    (here : e.fields[i]? = some f) (unmatched : f.Unmatched columns) :
    (∃ c ∈ placesWith columns f.Names, plan[i]? = some (some c)) ↔
      (placesWith columns f.Names \ e.taken columns plan i).Nonempty := by
  constructor
  · rintro ⟨c, names, has⟩
    exact ⟨c, names, h.not_mem_taken here unmatched has⟩
  · rintro ⟨d, names, left⟩
    obtain ⟨guess, found, guesses⟩ := h.guessed here unmatched
    cases guesses with
    | @same c first => exact ⟨c, first.1.1, found⟩
    | ending none_same _ => exact absurd (none_same names) left
    | nothing none_left =>
      obtain ⟨column, at_d, names⟩ := names
      exact absurd (none_left ⟨column, at_d, names.ends⟩) left

/-! ## Where no weaker guess comes first -/

/-- **A weaker guess never beats a stronger one**: where `c` is a column that nobody claims and that
has a bare name of `f`, which has to guess, `c` does not go to a field whose name only ends it, unless
`f` gets a column of its name. -/
def StrongerFirst (e : Entity) : Prop :=
  ∀ columns plan, e.columnPlan false columns = .ok plan →
    ∀ c, (∀ g ∈ e.fields, ¬ g.Claims columns c) →
      ∀ (i : Nat) (f : Field), e.fields[i]? = some f → f.Unmatched columns →
        c ∈ placesWith columns f.Names →
        ∀ (j : Nat) (g : Field), e.fields[j]? = some g → plan[j]? = some (some c) →
          c ∉ placesWith columns g.Names →
            ∃ d ∈ placesWith columns f.Names, plan[i]? = some (some d)

/-- A bare name of a field ends with one of an earlier field only if it is one of that field's as
well. -/
def EndingsApart (e : Entity) : Prop :=
  e.fields.Pairwise fun g f => ∀ name ∈ [f.name, f.column], g.Ends name → g.Names name

instance (e : Entity) : Decidable e.EndingsApart :=
  inferInstanceAs (Decidable (List.Pairwise _ _))

theorem strongerFirst_of_apart (apart : e.EndingsApart) : e.StrongerFirst := by
  intro columns plan made c unclaimed i f here unmatched names j g here_j has only_ends
  have h := isPlan_of_columnPlan made
  by_contra without
  have none_left := (h.names_iff here unmatched).not.mp without
  -- The column is gone when the turn of `f` comes, so `g` was first.
  have gone : c ∈ e.taken columns plan i := by
    by_contra left
    exact none_left ⟨c, names, left⟩
  obtain claims | ⟨unmatched_j, guesses⟩ := h.claims_or_guesses here_j has
  · exact unclaimed g (List.mem_of_getElem? here_j) claims
  obtain ⟨g', inside, claims⟩ | ⟨k, before, has_k⟩ := gone
  · exact unclaimed g' inside claims
  obtain rfl := h.eq_of_guessed here_j unmatched_j has has_k
  obtain ⟨inside_j, rfl⟩ := List.getElem?_eq_some_iff.mp here_j
  obtain ⟨inside_i, rfl⟩ := List.getElem?_eq_some_iff.mp here
  -- So a bare name of `g` ends the one that `f` shares with the column.
  obtain ⟨column, at_c, name, own, -, same⟩ := names
  obtain ⟨⟨_, at_c', ends⟩, -⟩ := guesses.mem
  rw [at_c, Option.some_inj] at at_c'
  subst at_c'
  have named := List.pairwise_iff_getElem.mp apart k i inside_j inside_i before name own
    ((Field.ends_congr same).mpr ends)
  exact only_ends ⟨column, at_c, (Field.names_congr same).mp named⟩

/-! ## Where a weaker guess comes first -/

/-- A name with underscores behind it. -/
def padded (name : String) (n : Nat) : String :=
  .ofList (name.toList ++ List.replicate n '_')

theorem bareName_padded (name : String) (n : Nat) : bareName (padded name n) = bareName name := by
  have none_kept : (List.replicate n '_').filter Char.isAlphanum = [] :=
    List.filter_eq_nil_iff.mpr fun ch inside => by
      rw [List.eq_of_mem_replicate inside]
      decide
  rw [bareName, padded, String.toList_ofList, List.filter_append, none_kept, List.append_nil,
    bareName]

/-- Enough underscores make a name different from a given one. -/
theorem sameName_padded {name other : String} {n : Nat} (longer : other.toList.length < n) :
    Text.sameName (padded name n) other = false := by
  rw [Bool.eq_false_iff, ne_eq, Text.sameName_iff]
  intro same
  have lengths := congrArg (fun text : String => text.toList.length) same
  simp only [Text.asciiLower, padded, String.toList_ofList, List.length_map, List.length_append,
    List.length_replicate] at lengths
  omega

/-- There is a column with a given bare name that no field claims. -/
theorem exists_unclaimed (e : Entity) (name : String) : ∃ column, bareName column = bareName name ∧
    ∀ m, ∀ f ∈ e.fields, f.Unmatched (List.replicate m column) := by
  let names := e.fields.flatMap fun f => [f.name, f.column]
  obtain ⟨n, longest⟩ := Finset.exists_le (names.map fun other => other.toList.length).toFinset
  have other : ∀ other ∈ names, Text.sameName (padded name (n + 1)) other = false := by
    intro other inside
    have := longest other.toList.length (by simpa using ⟨other, inside, rfl⟩)
    exact sameName_padded (by omega)
  refine ⟨padded name (n + 1), bareName_padded name _, fun m f inside => ⟨?_, fun _ => ?_⟩⟩
  · intro column copy
    rw [List.eq_of_mem_replicate copy]
    exact other _ (List.mem_flatMap.mpr ⟨f, inside, by simp⟩)
  · intro column copy
    rw [List.eq_of_mem_replicate copy]
    exact other _ (List.mem_flatMap.mpr ⟨f, inside, by simp⟩)

theorem mem_placesWith_replicate {m i : Nat} {column : String} {p : String → Prop} :
    i ∈ placesWith (List.replicate m column) p ↔ i < m ∧ p column := by
  simp [placesWith, List.getElem?_replicate]

/-- Of equal columns a field that they fit guesses the first one left. -/
theorem guesses_replicate {f : Field} {m k : Nat} {column : String} {guess : Option Nat}
    (left : k < m) (ends : f.Ends column)
    (h : f.Guesses (List.replicate m column) {c | c < k} guess) : guess = some k := by
  have free : k ∈ placesWith (List.replicate m column) f.Ends \ {c | c < k} :=
    ⟨mem_placesWith_replicate.mpr ⟨left, ends⟩, Nat.lt_irrefl k⟩
  cases h with
  | @same c first =>
    have names : f.Names column := (mem_placesWith_replicate.mp first.1.1).2
    have least : c ≤ k := first.2 ⟨mem_placesWith_replicate.mpr ⟨left, names⟩, free.2⟩
    exact congrArg some (le_antisymm least (not_lt.mp first.1.2))
  | @ending c _ first =>
    exact congrArg some (le_antisymm (first.2 free) (not_lt.mp first.1.2))
  | nothing none_left => exact absurd (none_left free.1) free.2

/-- How many of the first fields a column fits. -/
def fitting (e : Entity) (column : String) (i : Nat) : Nat :=
  (e.fields.take i).countP fun f => f.Ends column

theorem fitting_mono {column : String} {i j : Nat} (le : i ≤ j) :
    e.fitting column i ≤ e.fitting column j :=
  ((List.take_prefix_take_left le).sublist).countP_le

theorem fitting_succ {column : String} {i : Nat} {f : Field} (here : e.fields[i]? = some f) :
    e.fitting column (i + 1) = e.fitting column i + if f.Ends column then 1 else 0 := by
  rw [fitting, List.take_add_one, here, List.countP_append, fitting]
  simp [List.countP_cons]

/-- **Of equal columns every field that they fit gets the next one**, as long as there are some. -/
theorem taken_replicate {m : Nat} {column : String}
    (h : e.IsPlan (List.replicate m column) plan)
    (unmatched : ∀ f ∈ e.fields, f.Unmatched (List.replicate m column)) {i : Nat}
    (enough : e.fitting column i ≤ m) :
    e.taken (List.replicate m column) plan i = {c | c < e.fitting column i} := by
  induction i with
  | zero =>
    ext c
    constructor
    · rintro (⟨g, inside, claims⟩ | ⟨j, before, -⟩)
      · exact absurd claims (unmatched g inside).not_claims
      · exact absurd before (Nat.not_lt_zero j)
    · intro before
      exact absurd before (Nat.not_lt_zero c)
  | succ i ih =>
    have before := ih ((fitting_mono (Nat.le_succ i)).trans enough)
    ext c
    rw [mem_taken_succ, before]
    cases here : e.fields[i]? with
    | none =>
      have end_plan : plan[i]? = none := by
        rw [List.getElem?_eq_none_iff, h.length_eq]
        exact List.getElem?_eq_none_iff.mp here
      have end_fields : e.fields.length ≤ i := List.getElem?_eq_none_iff.mp here
      rw [end_plan, fitting, fitting, List.take_of_length_le end_fields,
        List.take_of_length_le (end_fields.trans (Nat.le_succ i))]
      simp
    | some f =>
      obtain ⟨guess, found, guesses⟩ := h.guessed here (unmatched f (List.mem_of_getElem? here))
      rw [before] at guesses
      rw [found, fitting_succ here]
      rw [fitting_succ here] at enough
      by_cases ends : f.Ends column
      · rw [if_pos ends] at enough ⊢
        rw [guesses_replicate (by omega) ends guesses]
        simp only [Set.mem_ofPred_eq, Option.some_inj]
        omega
      · have nothing : guess = none := by
          cases guess with
          | none => rfl
          | some d => exact absurd (mem_placesWith_replicate.mp guesses.mem.1).2 ends
        rw [if_neg ends, nothing]
        simp

theorem apart_of_strongerFirst (stronger : e.StrongerFirst) : e.EndingsApart := by
  rw [EndingsApart, List.pairwise_iff_getElem]
  intro j i inside_j inside_i before name own ends
  by_contra only_ends
  -- As many columns of this name as there are fields up to `g` that they fit: none is left for `f`.
  obtain ⟨column, same, unmatched⟩ := e.exists_unclaimed name
  have here_j : e.fields[j]? = some e.fields[j] := List.getElem?_eq_getElem inside_j
  have here_i : e.fields[i]? = some e.fields[i] := List.getElem?_eq_getElem inside_i
  have ends_column : e.fields[j].Ends column := (Field.ends_congr same).mpr ends
  let m := e.fitting column (j + 1)
  have last : m = e.fitting column j + 1 := by
    rw [show m = _ from fitting_succ here_j, if_pos ends_column]
  obtain ⟨plan, made⟩ := e.exists_columnPlan (List.replicate m column)
  have h := isPlan_of_columnPlan made
  obtain ⟨guess, found, guesses⟩ := h.guessed here_j (unmatched m _ (List.getElem_mem inside_j))
  rw [taken_replicate h (unmatched m) (by omega)] at guesses
  rw [guesses_replicate (by omega) ends_column guesses] at found
  have names : e.fields[i].Names column := by
    rw [Field.names_congr same]
    exact Field.names_of_own own ends.ne_nil
  obtain ⟨d, names_d, has⟩ := stronger _ plan made (e.fitting column j)
    (fun g inside => (unmatched m g inside).not_claims) i _ here_i
    (unmatched m _ (List.getElem_mem inside_i)) (mem_placesWith_replicate.mpr ⟨by omega, names⟩)
    j _ here_j found
    fun names_g => only_ends ((Field.names_congr same).mp (mem_placesWith_replicate.mp names_g).2)
  have taken : d ∈ e.taken (List.replicate m column) plan (j + 1) := by
    rw [taken_replicate h (unmatched m) le_rfl]
    exact (mem_placesWith_replicate.mp names_d).1
  exact h.not_mem_taken here_i (unmatched m _ (List.getElem_mem inside_i)) has
    (taken_mono before taken)

/-- **The order of guesses.** In every plan of lenient mode, a field that has to guess gets a column
with one of its bare names exactly if one is neither claimed nor guessed by a field before it. For
every list of columns a weaker guess leaves such a column to a stronger one exactly if the bare names
of a field end with one of an earlier field only where the earlier field has them too. -/
theorem guesses_by_strength (e : Entity) :
    (∀ columns plan, e.columnPlan false columns = .ok plan →
      ∀ (i : Nat) (f : Field), e.fields[i]? = some f → f.Unmatched columns →
        ((∃ c ∈ placesWith columns f.Names, plan[i]? = some (some c)) ↔
          ∃ c ∈ placesWith columns f.Names, (∀ g ∈ e.fields, ¬ g.Claims columns c) ∧
            ∀ j < i, plan[j]? ≠ some (some c))) ∧
      (e.StrongerFirst ↔ e.EndingsApart) := by
  refine ⟨?_, apart_of_strongerFirst, strongerFirst_of_apart⟩
  intro columns plan made i f here unmatched
  rw [(isPlan_of_columnPlan made).names_iff here unmatched, Set.Nonempty]
  refine exists_congr fun c => and_congr Iff.rfl ?_
  simp [taken, not_or]

end Entity

namespace Sample

/-- A region's code and name are guessed as well as they can be. -/
example : (catalog.entity (type "Region")).EndingsApart := by decide

/-- The key of an address is guessed from the column of the customer's key. -/
theorem not_strongerFirst_address :
    (catalog.entity (type "CustomerAddress")).columnPlan false ["customer_id", "city"] =
        .ok [some 0, none, some 1] ∧
      ¬ (catalog.entity (type "CustomerAddress")).StrongerFirst := by
  have made : (catalog.entity (type "CustomerAddress")).columnPlan false ["customer_id", "city"] =
      .ok [some 0, none, some 1] := by decide
  refine ⟨made, fun stronger => ?_⟩
  have unclaimed : ∀ g ∈ (catalog.entity (type "CustomerAddress")).fields,
      ¬ g.Claims ["customer_id", "city"] 0 := by
    simp only [← Field.claim?_eq_some_iff]
    decide
  obtain ⟨d, -, has⟩ := stronger _ _ made 0 unclaimed 1
    (foreignKey "CustomerId" "Customer" .owning false) rfl (by decide)
    ⟨"customer_id", rfl, by decide⟩ 0 generatedKey rfl rfl
    (by rintro ⟨column, at_0, names⟩; cases at_0; revert names; decide)
  cases has

end Sample

end RowGraph
