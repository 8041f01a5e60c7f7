import RowGraph.Proofs.Columns.Plans
import RowGraph.Sample

/-!
# Columns with the name of a field's column

A column that some field has by the name of its column is meant for the fields of this column name
only. Guesses leave it alone: it is taken before the first of them. A field whose column has another
name than itself can get it all the same, since nobody asks what is taken when it looks for its own
name.

Results:
* `IsPlan.has_exact_iff`: when a field with another column name has the column.
* **`exact_columns`**: in no plan it has, exactly for the entities in which no field is called like
  the column of another one while its own column is called something else.
* `Sample.not_exclusiveColumns_incident`: an entity of the other kind, whose status and status text
  are both read from the column of the text.
-/

namespace RowGraph

namespace Entity

variable {e : Entity} {columns : List String} {plan : List (Option Nat)}

/-- **Exact columns are exclusive**: where `c` is the first column with the name of the column of
some field, no field has it whose column name differs from the name of `c`. -/
def ExclusiveColumns (e : Entity) : Prop :=
  ∀ strict columns plan, e.columnPlan strict columns = .ok plan →
    ∀ g ∈ e.fields, ∀ c, IsLeast (placesWith columns (Text.sameName · g.column = true)) c →
      ∀ (i : Nat) (f : Field) (column : String), e.fields[i]? = some f → columns[c]? = some column →
        Text.sameName column f.column = false → plan[i]? ≠ some (some c)

/-- Where a field with a column name of its own bears the name of another one's column, that is the
name of its column as well. -/
def OwnNamesApart (e : Entity) : Prop :=
  ∀ f ∈ e.fields, f.columnAlias.isSome = true → ∀ g ∈ e.fields,
    Text.sameName f.name g.column = true → Text.sameName g.column f.column = true

instance (e : Entity) : Decidable e.OwnNamesApart :=
  inferInstanceAs (Decidable (∀ f ∈ e.fields, _))

/-- A field with another column name has the column only by its own name, in the absence of its
column. -/
theorem IsPlan.has_exact_iff (h : e.IsPlan columns plan) {g : Field} (hg : g ∈ e.fields) {c : Nat}
    (exact_c : IsLeast (placesWith columns (Text.sameName · g.column = true)) c) {i : Nat}
    {f : Field} (here : e.fields[i]? = some f) {column : String} (at_c : columns[c]? = some column)
    (other : Text.sameName column f.column = false) :
    plan[i]? = some (some c) ↔
      f.columnAlias.isSome = true ∧ (∀ column ∈ columns, Text.sameName column f.column = false) ∧
        IsLeast (placesWith columns (Text.sameName · f.name = true)) c := by
  constructor
  · intro has
    obtain claims | ⟨-, guesses⟩ := h.claims_or_guesses here has
    · cases claims with
      | column first =>
        obtain ⟨own, at_c', same⟩ := first.1
        rw [at_c, Option.some_inj] at at_c'
        rw [at_c', same] at other
        cases other
      | name absent renamed first => exact ⟨renamed, absent, first⟩
    · exact absurd (.inl ⟨g, hg, .column exact_c⟩) guesses.mem.2
  · rintro ⟨renamed, absent, first⟩
    exact h.claimed here (.name absent renamed first)

theorem exclusiveColumns_of_apart (apart : e.OwnNamesApart) : e.ExclusiveColumns := by
  intro strict columns plan made g hg c exact_c i f column here at_c other has
  obtain ⟨renamed, -, first⟩ :=
    ((isPlan_of_columnPlan made).has_exact_iff hg exact_c here at_c other).mp has
  -- The column bears both names, so these are one name, and the column is the field's after all.
  obtain ⟨_, at_own, own⟩ := first.1
  obtain ⟨_, at_exact, same⟩ := exact_c.1
  rw [at_c, Option.some_inj] at at_own at_exact
  subst at_own at_exact
  have shared := apart f (List.mem_of_getElem? here) renamed g hg
    (Text.sameName_trans (Text.sameName_symm own) same)
  rw [Text.sameName_trans same shared] at other
  cases other

theorem apart_of_exclusiveColumns (exclusive : e.ExclusiveColumns) : e.OwnNamesApart := by
  intro f hf renamed g hg shared
  by_contra differ
  rw [Bool.not_eq_true] at differ
  -- The one column of a result bears the name that the two fields share.
  obtain ⟨plan, made⟩ := e.exists_columnPlan [g.column]
  obtain ⟨i, here⟩ := List.mem_iff_getElem?.mp hf
  have only : ∀ {name : String}, Text.sameName g.column name = true →
      IsLeast (placesWith [g.column] (Text.sameName · name = true)) 0 :=
    fun same => ⟨⟨g.column, rfl, same⟩, fun _ _ => Nat.zero_le _⟩
  refine exclusive false _ plan made g hg 0 (only (Text.sameName_refl _)) i f g.column here rfl
    differ ?_
  exact (isPlan_of_columnPlan made).claimed here
    (.name (by simpa using differ) renamed (only (Text.sameName_symm shared)))

/-- **Who has a column with the name of a field's column.** Of the fields with another column name,
in both modes, exactly those that have such a name besides their own, that miss their column, and
for whose own name the column is the first one: so never by a guess. None ever has one exactly if no
field is called like the column of another one while its own column is called something else. -/
theorem exact_columns (e : Entity) :
    (∀ strict columns plan, e.columnPlan strict columns = .ok plan →
      ∀ g ∈ e.fields, ∀ c, IsLeast (placesWith columns (Text.sameName · g.column = true)) c →
        ∀ (i : Nat) (f : Field) (column : String), e.fields[i]? = some f →
          columns[c]? = some column → Text.sameName column f.column = false →
            (plan[i]? = some (some c) ↔
              f.columnAlias.isSome = true ∧
                (∀ column ∈ columns, Text.sameName column f.column = false) ∧
                IsLeast (placesWith columns (Text.sameName · f.name = true)) c)) ∧
      (e.ExclusiveColumns ↔ e.OwnNamesApart) := by
  refine ⟨?_, apart_of_exclusiveColumns, exclusiveColumns_of_apart⟩
  intro strict columns plan made g hg c exact_c i f column here at_c other
  exact (isPlan_of_columnPlan made).has_exact_iff hg exact_c here at_c other

end Entity

namespace Sample

/-- No field of a person is called like the column of another one. -/
example : (catalog.entity (type "Staff")).OwnNamesApart := by decide

/-- The type of incidents. -/
def incident : EntityType := ⟨names.length, "Incident"⟩

/-- Incidents with the number of their status and, in a column that is called like the number's
field, its text. -/
def incidents : Catalog :=
  .ofDescriptions [(incident, ⟨"Incident", [.field generatedKey,
    .field (renamed "Status" "status_code" .int), .field (renamed "StatusText" "Status" .text)]⟩)]

/-- Where the number is not among the columns it is read from the column of the text. -/
theorem not_exclusiveColumns_incident :
    (incidents.entity incident).columnPlan false ["Id", "Status"] =
        .ok [some 0, some 1, some 1] ∧
      ¬ (incidents.entity incident).ExclusiveColumns := by
  have made : (incidents.entity incident).columnPlan false ["Id", "Status"] =
      .ok [some 0, some 1, some 1] := by decide
  refine ⟨made, fun exclusive => ?_⟩
  have text : renamed "StatusText" "Status" .text ∈ (incidents.entity incident).fields := by decide
  refine exclusive false _ _ made _ text 1 ?_ 1 (renamed "Status" "status_code" .int) "Status" rfl
    rfl (by decide) rfl
  exact findIdx?_eq_some_iff_isLeast.mp (by decide)

end Sample

end RowGraph
