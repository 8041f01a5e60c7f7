import RowGraph.Statement

/-!
# Placeholders are numbered in the order of the text

A fragment without its literals is a row of texts, `gaps`: one before the first literal, one between
each two neighbours, one after the last; embedded queries are read in their place. `weave` puts
marks between the texts. With question marks it gives the shown text, with placeholders the text of
the statement.

Results:
* `weave_seam`: two rows of texts joined end to end are woven one after the other.
* `sql_pushFrom`, `slots_pushFrom`: what a fragment adds to a draft, whatever is in it already.
* **`merge_numbers_literals`**: a statement is the gaps of its fragments woven with the placeholders
  `0, 1, …`; its slots list the literals, and a later fragment adds what it yields alone, shifted.
-/

namespace RowGraph

/-! ## Texts and what stands between them -/

/-- The texts with the marks between them. -/
def weave : (texts marks : List String) → String
  | [], _ => ""
  | [text], _ => text
  | text :: texts, [] => text ++ weave texts []
  | text :: texts, mark :: marks => text ++ mark ++ weave texts marks

/-- Two rows of texts as one: the last of the first and the first of the second become one text. -/
def seam : List String → List String → List String
  | [], others => others
  | [text], [] => [text]
  | [text], other :: others => (text ++ other) :: others
  | text :: next :: texts, others => text :: seam (next :: texts) others

theorem seam_ne_nil {texts : List String} (h : texts ≠ []) (others : List String) :
    seam texts others ≠ [] := by
  match texts, others, h with
  | [_], [], _ => simp [seam]
  | [_], _ :: _, _ => simp [seam]
  | _ :: _ :: _, _, _ => simp [seam]

theorem length_seam {texts others : List String} (ht : texts ≠ []) (ho : others ≠ []) :
    (seam texts others).length + 1 = texts.length + others.length := by
  induction texts with
  | nil => exact absurd rfl ht
  | cons text rest ih =>
    cases rest with
    | nil =>
      cases others with
      | nil => exact absurd rfl ho
      | cons other others => simp only [seam, List.length_cons, List.length_nil]; omega
    | cons next rest =>
      have hl := ih (List.cons_ne_nil _ _)
      simp only [seam, List.length_cons] at hl ⊢
      omega

/-- Rows of texts joined end to end are woven one after the other. -/
theorem weave_seam {texts marks : List String} (h : texts.length = marks.length + 1)
    {others : List String} (ho : others ≠ []) (more : List String) :
    weave (seam texts others) (marks ++ more) = weave texts marks ++ weave others more := by
  induction texts generalizing marks with
  | nil => simp at h
  | cons text rest ih =>
    cases rest with
    | nil =>
      obtain rfl : marks = [] := List.eq_nil_of_length_eq_zero (by simpa using h.symm)
      match others, more, ho with
      | [other], _, _ => simp [seam, weave]
      | other :: next :: others, [], _ => simp [seam, weave, String.append_assoc]
      | other :: next :: others, mark :: more, _ => simp [seam, weave, String.append_assoc]
    | cons next rest =>
      cases marks with
      | nil => simp at h
      | cons mark marks =>
        have hl : (next :: rest).length = marks.length + 1 := by simpa using h
        have woven := ih hl
        obtain ⟨t, ts, ht⟩ :=
          List.exists_cons_of_ne_nil (seam_ne_nil (List.cons_ne_nil next rest) others)
        simp only [seam, List.cons_append]
        rw [ht] at woven ⊢
        simp only [weave, woven, String.append_assoc]

namespace Fragment

/-- The texts before, between and after the literals. -/
def gaps : Fragment → List String
  | .empty => [""]
  | .text s rest => seam [s] rest.gaps
  | .literal _ rest => seam ["", ""] rest.gaps
  | .subQuery inner rest => seam inner.gaps rest.gaps

/-- For each literal in how many embedded queries it lies. -/
def depths : Fragment → List Nat
  | .empty => []
  | .text _ rest => rest.depths
  | .literal _ rest => 0 :: rest.depths
  | .subQuery inner rest => inner.depths.map (· + 1) ++ rest.depths

/-- The texts before, between and after the literals of several fragments. -/
def gapsOf : List Fragment → List String
  | [] => [""]
  | f :: rest => seam f.gaps (gapsOf rest)

theorem gaps_ne_nil : ∀ f : Fragment, f.gaps ≠ []
  | .empty => by simp [gaps]
  | .text _ _ => seam_ne_nil (by simp) _
  | .literal _ _ => seam_ne_nil (by simp) _
  | .subQuery inner _ => seam_ne_nil (gaps_ne_nil inner) _

theorem length_gaps (f : Fragment) : f.gaps.length = f.count + 1 := by
  induction f with
  | empty => rfl
  | text s rest ih =>
    have hl := length_seam (List.cons_ne_nil s []) (gaps_ne_nil rest)
    simp only [gaps, count, List.length_cons, List.length_nil] at hl ⊢
    omega
  | literal v rest ih =>
    have hl := length_seam (List.cons_ne_nil "" [""]) (gaps_ne_nil rest)
    simp only [gaps, count, List.length_cons, List.length_nil] at hl ⊢
    omega
  | subQuery inner rest ihi ih =>
    have hl := length_seam (gaps_ne_nil inner) (gaps_ne_nil rest)
    simp only [gaps, count] at hl ⊢
    omega

theorem gapsOf_ne_nil : ∀ fs : List Fragment, gapsOf fs ≠ []
  | [] => by simp [gapsOf]
  | f :: _ => seam_ne_nil (gaps_ne_nil f) _

/-- The number of literals of some fragments. -/
def total : List Fragment → Nat
  | [] => 0
  | f :: rest => f.count + total rest

theorem length_gapsOf (fs : List Fragment) :
    (gapsOf fs).length = total fs + 1 := by
  induction fs with
  | nil => rfl
  | cons f rest ih =>
    have hl := length_seam (gaps_ne_nil f) (gapsOf_ne_nil rest)
    rw [length_gaps] at hl
    simp only [gapsOf, total]
    omega

@[simp] theorem weave_gaps_text (s : String) (rest : Fragment) (marks : List String) :
    weave (text s rest).gaps marks = s ++ weave rest.gaps marks :=
  weave_seam (show [s].length = [].length + 1 from rfl) (gaps_ne_nil rest) marks

@[simp] theorem weave_gaps_literal (v : Value) (rest : Fragment) (mark : String)
    (marks : List String) :
    weave (literal v rest).gaps (mark :: marks) = mark ++ weave rest.gaps marks := by
  have woven := weave_seam (show ["", ""].length = [mark].length + 1 from rfl)
    (gaps_ne_nil rest) marks
  simpa [weave, gaps] using woven

theorem weave_gaps_subQuery {inner : Fragment} {marks : List String}
    (h : marks.length = inner.count) (rest : Fragment) (more : List String) :
    weave (subQuery inner rest).gaps (marks ++ more) =
      weave inner.gaps marks ++ weave rest.gaps more :=
  weave_seam (by rw [length_gaps, h]) (gaps_ne_nil rest) more

/-- A question mark for each literal gives the text that is shown. -/
theorem render_eq_weave (f : Fragment) : f.render = weave f.gaps (List.replicate f.count "?") := by
  induction f with
  | empty => rfl
  | text s rest ih => rw [render, ih, count, weave_gaps_text]
  | literal v rest ih => rw [render, ih, count, List.replicate_succ, weave_gaps_literal]
  | subQuery inner rest ihi ih =>
    rw [render, ihi, ih, count, ← List.replicate_append_replicate,
      weave_gaps_subQuery List.length_replicate]

end Fragment

/-! ## What a fragment adds to a draft -/

/-- The origin of a literal in so many embedded queries. -/
def Origin.ofDepth : Nat → Origin
  | 0 => .outer
  | _ + 1 => .subQuery

/-- The slot with an index that is greater by `n`. -/
def Slot.shift (n : Nat) (s : Slot) : Slot := { s with index := n + s.index }

@[simp] theorem Slot.shift_shift (n k : Nat) (s : Slot) :
    (s.shift k).shift n = s.shift (n + k) := by
  simp [shift, Nat.add_assoc]

namespace Draft

open Fragment

/-- A fragment adds its texts with the next placeholders between them. -/
theorem sql_pushFrom (d : Dialect) (origin : Origin) (f : Fragment) (m : Draft) :
    (pushFrom d origin f m).sql =
      m.sql ++ weave f.gaps ((List.range' m.slots.length f.count).map d.placeholder) := by
  induction f generalizing origin m with
  | empty => simp [pushFrom, gaps, weave]
  | text s rest ih => rw [pushFrom, ih, weave_gaps_text]; simp [addText, count, String.append_assoc]
  | literal v rest ih =>
    rw [pushFrom, ih, count, List.range'_succ, List.map_cons, weave_gaps_literal]
    simp [addLiteral, String.append_assoc]
  | subQuery inner rest ihi ih =>
    rw [pushFrom, ih, ihi, length_slots_pushFrom, count, ← List.range'_append_1, List.map_append,
      weave_gaps_subQuery (by simp), String.append_assoc]

/-- A text in front is added first. -/
theorem pushFrom_textThen (d : Dialect) (origin : Origin) (text : String) (f : Fragment)
    (m : Draft) : pushFrom d origin (textThen text f) m = pushFrom d origin f (m.addText text) := by
  unfold textThen
  split
  · next h => simp [addText, String.isEmpty_iff.mp h]
  · cases f <;> simp [pushFrom, addText, String.append_assoc]

/-- A fragment adds the slots that it has alone, behind those that are there. -/
theorem slots_pushFrom (d : Dialect) (origin : Origin) (f : Fragment) (m : Draft) :
    (pushFrom d origin f m).slots =
      m.slots ++ (pushFrom d origin f empty).slots.map (Slot.shift m.slots.length) := by
  induction f generalizing origin m with
  | empty => simp [pushFrom, empty]
  | text s rest ih =>
    rw [pushFrom, ih, pushFrom, ih _ (empty.addText s)]
    simp [addText, empty, Function.comp_def]
  | literal v rest ih =>
    rw [pushFrom, ih, pushFrom, ih _ (empty.addLiteral d origin v)]
    simp [addLiteral, empty, Slot.shift, Function.comp_def, Nat.add_assoc]
  | subQuery inner rest ihi ih =>
    rw [pushFrom, ih, ihi, pushFrom, ih _ (pushFrom d .subQuery inner empty)]
    simp [length_slots_pushFrom, empty, Function.comp_def]

/-- The origins of the literals that a fragment adds: all are embedded if the fragment is. -/
theorem origins_pushFrom (d : Dialect) (f : Fragment) (m : Draft) :
    (pushFrom d .outer f m).slots.map Slot.origin =
        m.slots.map Slot.origin ++ f.depths.map Origin.ofDepth ∧
      (pushFrom d .subQuery f m).slots.map Slot.origin =
        m.slots.map Slot.origin ++ f.depths.map fun n => Origin.ofDepth (n + 1) := by
  induction f generalizing m with
  | empty => simp [pushFrom, depths]
  | text s rest ih => exact ih (m.addText s)
  | literal v rest ih =>
    refine ⟨?_, ?_⟩
    · simp [pushFrom, (ih _).1, addLiteral, depths, Origin.ofDepth]
    · simp [pushFrom, (ih _).2, addLiteral, depths, Origin.ofDepth]
  | subQuery inner rest ihi ih =>
    refine ⟨?_, ?_⟩
    · simp [pushFrom, (ih _).1, (ihi _).2, depths, Function.comp_def]
    · simp [pushFrom, (ih _).2, (ihi _).2, depths, Function.comp_def, Origin.ofDepth]

/-! ## Several fragments -/

theorem merge_append (d : Dialect) (before fs : List Fragment) :
    merge d (before ++ fs) = fs.foldl (push d) (merge d before) := by
  simp [merge]

theorem length_slots_foldl_push (d : Dialect) (fs : List Fragment) (m : Draft) :
    (fs.foldl (push d) m).slots.length = m.slots.length + total fs := by
  induction fs generalizing m with
  | nil => rfl
  | cons f rest ih => rw [List.foldl_cons, ih, length_slots_push, total, Nat.add_assoc]

theorem sql_foldl_push (d : Dialect) (fs : List Fragment) (m : Draft) :
    (fs.foldl (push d) m).sql =
      m.sql ++
        weave (gapsOf fs) ((List.range' m.slots.length (total fs)).map d.placeholder) := by
  induction fs generalizing m with
  | nil => simp [gapsOf, weave, total]
  | cons f rest ih =>
    have hl : f.gaps.length =
        ((List.range' m.slots.length f.count).map d.placeholder).length + 1 := by
      simp [length_gaps]
    rw [List.foldl_cons, ih, length_slots_push, push, sql_pushFrom, total,
      ← List.range'_append_1, List.map_append, gapsOf, weave_seam hl (gapsOf_ne_nil rest),
      String.append_assoc]

theorem slots_foldl_push (d : Dialect) (fs : List Fragment) (m : Draft) :
    (fs.foldl (push d) m).slots =
      m.slots ++ (merge d fs).slots.map (Slot.shift m.slots.length) := by
  induction fs generalizing m with
  | nil => simp [merge, empty]
  | cons f rest ih =>
    have alone := ih (push d empty f)
    rw [List.foldl_cons, ih, length_slots_push, push, slots_pushFrom]
    rw [push, length_slots_pushFrom] at alone
    simp only [merge, List.foldl_cons, push] at alone ⊢
    rw [alone]
    simp [empty, Function.comp_def]

theorem length_slots_merge (d : Dialect) (fs : List Fragment) :
    (merge d fs).slots.length = total fs := by
  rw [merge, length_slots_foldl_push]
  simp [empty]

theorem sql_merge (d : Dialect) (fs : List Fragment) :
    (merge d fs).sql =
      weave (gapsOf fs) ((List.range (total fs)).map d.placeholder) := by
  rw [merge, sql_foldl_push]
  simp [empty, List.range_eq_range']

theorem index_slots_merge (d : Dialect) (fs : List Fragment) :
    (merge d fs).slots.map Slot.index = List.range (merge d fs).slots.length := by
  suffices h : ∀ m : Draft, m.slots.map Slot.index = List.range m.slots.length →
      (fs.foldl (push d) m).slots.map Slot.index =
        List.range (fs.foldl (push d) m).slots.length from h empty rfl
  induction fs with
  | nil => exact fun m h => h
  | cons f rest ih => exact fun m h => ih _ (index_slots_push d f m h)

theorem values_merge (d : Dialect) (fs : List Fragment) :
    (merge d fs).slots.map Slot.value = fs.flatMap literals := by
  suffices h : ∀ m : Draft, (fs.foldl (push d) m).slots.map Slot.value =
      m.slots.map Slot.value ++ fs.flatMap literals from h empty
  induction fs with
  | nil => simp
  | cons f rest ih => intro m; rw [List.foldl_cons, ih, values_push]; simp

theorem origins_merge (d : Dialect) (fs : List Fragment) :
    (merge d fs).slots.map Slot.origin = (fs.flatMap depths).map Origin.ofDepth := by
  suffices h : ∀ m : Draft, (fs.foldl (push d) m).slots.map Slot.origin =
      m.slots.map Slot.origin ++ (fs.flatMap depths).map Origin.ofDepth from h empty
  induction fs with
  | nil => simp
  | cons f rest ih => intro m; rw [List.foldl_cons, ih, push, (origins_pushFrom d f m).1]; simp

theorem render_gapsOf (fs : List Fragment) :
    String.join (fs.map render) =
      weave (gapsOf fs) (List.replicate (total fs) "?") := by
  induction fs with
  | nil => rfl
  | cons f rest ih =>
    have hl : f.gaps.length = (List.replicate f.count "?").length + 1 := by simp [length_gaps]
    rw [List.map_cons, String.join_cons, ih, render_eq_weave, gapsOf, total,
      ← List.replicate_append_replicate, weave_seam hl (gapsOf_ne_nil rest)]

/-- **A statement numbers the literals of its fragments in the order of the text.** With `n` the
number of all literals, embedded queries included:
* there are `n` slots, slot `i` has index `i`, and they hold the literals in order;
* a slot is an outer one exactly if its literal lies in no embedded query;
* `gapsOf` are the `n + 1` texts around the literals: question marks between them give the shown
  text, the placeholders of `0, …, n - 1` the text of the statement;
* fragments that come after others add the text and the slots that they yield alone, with every
  index greater by the number of literals before them. -/
theorem merge_numbers_literals (d : Dialect) (fs : List Fragment) :
    let n := total fs
    (merge d fs).slots.length = n ∧
      (∀ (i : Nat) (slot : Slot), (merge d fs).slots[i]? = some slot →
        slot.index = i ∧ (slot.origin = .outer ↔ (fs.flatMap depths)[i]? = some 0)) ∧
      (merge d fs).slots.map Slot.value = fs.flatMap literals ∧
      (gapsOf fs).length = n + 1 ∧
      String.join (fs.map render) = weave (gapsOf fs) (List.replicate n "?") ∧
      (merge d fs).sql = weave (gapsOf fs) ((List.range n).map d.placeholder) ∧
      ∀ before : List Fragment,
        let k := total before
        (merge d (before ++ fs)).sql = (merge d before).sql ++
            weave (gapsOf fs) ((List.range n).map fun i => d.placeholder (k + i)) ∧
          (merge d (before ++ fs)).slots =
            (merge d before).slots ++ (merge d fs).slots.map (Slot.shift k) := by
  intro n
  refine ⟨length_slots_merge d fs, fun i slot h => ⟨?_, ?_⟩, values_merge d fs, length_gapsOf fs,
    render_gapsOf fs, sql_merge d fs, fun before => ⟨?_, ?_⟩⟩
  · obtain ⟨hi, -⟩ := List.getElem?_eq_some_iff.mp h
    have at_i : ((merge d fs).slots.map Slot.index)[i]? = some i := by
      rw [index_slots_merge, List.getElem?_range hi]
    rw [List.getElem?_map, h] at at_i
    exact Option.some.inj at_i
  · have at_i := congrArg (·[i]?) (origins_merge d fs)
    simp only [List.getElem?_map, h, Option.map_some] at at_i
    cases hd : (fs.flatMap depths)[i]? with
    | none => rw [hd] at at_i; cases at_i
    | some depth =>
      rw [hd] at at_i
      have ho : slot.origin = Origin.ofDepth depth := Option.some.inj at_i
      cases depth <;> simp [ho, Origin.ofDepth]
  · rw [merge_append, sql_foldl_push, length_slots_merge, List.range'_eq_map_range, List.map_map]
    rfl
  · rw [merge_append, slots_foldl_push, length_slots_merge]

end Draft

end RowGraph
