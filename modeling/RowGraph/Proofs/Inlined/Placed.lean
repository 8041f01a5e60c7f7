import RowGraph.Proofs.Inlined.Openers
import RowGraph.Proofs.Numbering

/-!
# Where the literals of a fragment stand

A fragment is written twice: with placeholders for a statement, with its literals to be read. Both
are the same texts with marks between them, and a mark leaves the reader free, so a literal stands
in the same place in both, `Fragment.placed`.

If no literal stands in quotes, the two writings have the comments that begin in the texts. The
inlined one has one more for each negative number right behind a hyphen, `Fragment.fused`, and no
other: a literal has no opener in it, and neither its end nor its beginning completes another one.

Main statements: `openers_weave`, `openersOf_inlined` and `sql_ofFragment`.
-/

namespace RowGraph

open Dialect

namespace Fragment

variable (d : Dialect)

/-- Where a fragment leads a reader, who is free behind each literal. -/
def reach (t : Trail) : Fragment → Trail
  | .empty => t
  | .text s rest => rest.reach (d.ends t s.toList)
  | .literal _ rest => rest.reach .free
  | .subQuery inner rest => rest.reach (inner.reach t)

/-- The literals, and where each of them stands. -/
def placed (t : Trail) : Fragment → List (Trail × Value)
  | .empty => []
  | .text s rest => rest.placed (d.ends t s.toList)
  | .literal v rest => (t, v) :: rest.placed .free
  | .subQuery inner rest => inner.placed t ++ rest.placed (inner.reach d t)

/-- How many comments begin in the texts of a fragment. -/
def bareOpeners (t : Trail) : Fragment → Nat
  | .empty => 0
  | .text s rest => d.openers t s.toList + rest.bareOpeners (d.ends t s.toList)
  | .literal _ rest => rest.bareOpeners .free
  | .subQuery inner rest => inner.bareOpeners t + rest.bareOpeners (inner.reach d t)

/-- No literal stands in quotes, and right behind a hyphen there are allowed ones only. -/
def Fits (allowed : Value → Prop) (t : Trail) (f : Fragment) : Prop :=
  ∀ p ∈ f.placed d t, p.1.IsOpen ∧ (p.1 = .hyphen → allowed p.2)

/-- The negative numbers that stand right behind a hyphen. -/
def fused (f : Fragment) : List Value :=
  ((f.placed d .free).filter fun p => p.1 = .hyphen ∧ p.2.isNegative = true).map Prod.snd

variable {d} {allowed : Value → Prop} {t : Trail} {f g : Fragment}

theorem mem_fused {v : Value} :
    v ∈ f.fused d ↔ (.hyphen, v) ∈ f.placed d .free ∧ v.isNegative = true := by
  simp only [fused, List.mem_map, List.mem_filter, decide_eq_true_eq]
  constructor
  · rintro ⟨⟨t, v⟩, ⟨hp, rfl, hv⟩, rfl⟩
    exact ⟨hp, hv⟩
  · exact fun ⟨hp, hv⟩ => ⟨(.hyphen, v), ⟨hp, rfl, hv⟩, rfl⟩

theorem length_placed (t : Trail) (f : Fragment) : (f.placed d t).length = f.count := by
  induction f generalizing t with
  | empty => rfl
  | text s rest ih => exact ih _
  | literal v rest ih => simp [placed, count, ih]
  | subQuery inner rest ihi ih => simp [placed, count, ihi, ih]

/-- The literals in order. -/
theorem map_snd_placed (t : Trail) (f : Fragment) :
    (f.placed d t).map Prod.snd = f.literals := by
  induction f generalizing t with
  | empty => rfl
  | text s rest ih => exact ih _
  | literal v rest ih => simp [placed, literals, ih]
  | subQuery inner rest ihi ih => simp [placed, literals, ihi, ih]

/-- **The texts of a fragment with marks between them**: no mark changes where the reader stands,
and besides the comments that begin in the texts there is one for each mark that has a minus in
front and a hyphen before it. -/
theorem openers_weave {marks : List String} (hmarks : ∀ m ∈ marks, d.IsMark m.toList)
    (hlength : marks.length = f.count) (hopen : ∀ p ∈ f.placed d t, p.1.IsOpen) :
    d.ends t (weave f.gaps marks).toList = f.reach d t ∧
      d.openers t (weave f.gaps marks).toList = f.bareOpeners d t +
        ((f.placed d t).zip marks).countP
          fun (p, m) => p.1 = .hyphen ∧ m.toList.head? = some '-' := by
  induction f generalizing t marks with
  | empty =>
    obtain rfl : marks = [] := List.eq_nil_of_length_eq_zero hlength
    exact ⟨rfl, rfl⟩
  | text s rest ih =>
    obtain ⟨hends, hopeners⟩ := ih hmarks hlength hopen
    rw [weave_gaps_text, String.toList_append, ends_append, openers_append, hends, hopeners]
    exact ⟨rfl, (Nat.add_assoc _ _ _).symm⟩
  | literal v rest ih =>
    cases marks with
    | nil => cases hlength
    | cons m marks =>
      rw [List.forall_mem_cons] at hmarks
      simp only [placed, List.forall_mem_cons] at hopen
      obtain ⟨hends, hopeners⟩ := ih hmarks.2 (Nat.succ.inj hlength) hopen.2
      rw [weave_gaps_literal, String.toList_append, ends_append, openers_append,
        hmarks.1.ends_eq t hopen.1, hmarks.1.openers_eq t hopen.1, hends, hopeners]
      refine ⟨rfl, ?_⟩
      simp only [placed, bareOpeners, List.zip_cons_cons, List.countP_cons, decide_eq_true_eq]
      omega
  | subQuery inner rest ihi ih =>
    -- the marks of the embedded query come before those of the rest
    obtain ⟨ms, others, rfl, hms⟩ : ∃ ms others, marks = ms ++ others ∧ ms.length = inner.count :=
      ⟨marks.take inner.count, marks.drop inner.count, (List.take_append_drop _ _).symm,
        List.length_take_of_le (by rw [hlength]; exact Nat.le_add_right _ _)⟩
    rw [List.forall_mem_append] at hmarks
    simp only [placed, List.forall_mem_append] at hopen
    obtain ⟨hendsi, hopenersi⟩ := ihi hmarks.1 hms hopen.1
    have hothers : others.length = rest.count := by
      rw [List.length_append, hms, count] at hlength
      omega
    obtain ⟨hends, hopeners⟩ := ih hmarks.2 hothers hopen.2
    rw [weave_gaps_subQuery hms, String.toList_append, ends_append, openers_append, hendsi,
      hopenersi, hends, hopeners]
    refine ⟨rfl, ?_⟩
    rw [placed, List.zip_append (by rw [length_placed, hms]), List.countP_append, bareOpeners]
    omega

/-- Literals are written between the texts. -/
theorem inlined_eq_weave (d : Dialect) (f : Fragment) :
    f.inlined d = weave f.gaps (f.literals.map d.literal) := by
  induction f with
  | empty => rfl
  | text s rest ih => rw [inlined, ih, weave_gaps_text, literals]
  | literal v rest ih => rw [inlined, ih, literals, List.map_cons, weave_gaps_literal]
  | subQuery inner rest ihi ih =>
    rw [inlined, ihi, ih, literals, List.map_append,
      weave_gaps_subQuery (by rw [List.length_map, count_eq])]

end Fragment

namespace Statement

/-- The text of a statement has the placeholders between the texts. -/
theorem sql_ofFragment (d : Dialect) (f : Fragment) (shape : Shape) :
    (ofFragment d f shape).sql = weave f.gaps ((List.range f.count).map d.placeholder) := by
  have hsql := Draft.sql_pushFrom d .outer f Draft.empty
  rw [Draft.empty, List.length_nil, ← List.range_eq_range', String.empty_append] at hsql
  exact hsql

end Statement

namespace Fragment

variable {d : Dialect} {allowed : Value → Prop} {t : Trail} {f g : Fragment}

/-- **The inlined text has the comments that the statement has, and one for each negative number
right behind a hyphen**, if no literal stands in quotes. -/
theorem openersOf_inlined (hopen : ∀ p ∈ f.placed d .free, p.1.IsOpen) (shape : Shape) :
    d.openersOf (f.inlined d) =
      d.openersOf (Statement.ofFragment d f shape).sql + (f.fused d).length := by
  have hplaceholders : ∀ m ∈ (List.range f.count).map d.placeholder, d.IsUnsigned m.toList := by
    simpa using fun index _ => isUnsigned_placeholder d index
  have hliterals : ∀ m ∈ f.literals.map d.literal, d.IsMark m.toList := by
    simpa using fun v _ => (isMark_literal d v).1
  have hnone : ((f.placed d .free).zip ((List.range f.count).map d.placeholder)).countP
      (fun (p, m) => p.1 = .hyphen ∧ m.toList.head? = some '-') = 0 := by
    rw [List.countP_eq_zero]
    rintro ⟨p, m⟩ hpm
    simpa using fun _ => (hplaceholders m (List.of_mem_zip hpm).2).2
  have hfused : ((f.placed d .free).zip (f.literals.map d.literal)).countP
      (fun (p, m) => p.1 = .hyphen ∧ m.toList.head? = some '-') = (f.fused d).length := by
    rw [← map_snd_placed (d := d) .free f, List.map_map, fused, List.length_map,
      ← List.countP_eq_length_filter]
    conv => lhs; rw [← List.map_id (f.placed d .free), List.map_map, List.zip_map', List.countP_map]
    refine List.countP_congr fun p _ => ?_
    simp [(isMark_literal d _).2]
  rw [openersOf, openersOf, inlined_eq_weave, Statement.sql_ofFragment,
    (openers_weave hliterals (by rw [List.length_map, count_eq]) hopen).2, hfused,
    (openers_weave (fun m hm => (hplaceholders m hm).1) (by simp) hopen).2, hnone, Nat.add_zero]

end Fragment

end RowGraph
