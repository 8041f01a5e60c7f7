import RowGraph.Proofs.Attempt

/-!
# Constructs that look at their parts

Two constructs look at an operand before it is compiled. A comparison reads those of its operands
that are values, writes a test for null where one of them is null, and compiles the others then. A
search for a text reads its pattern and goes on only where that is a text. A function counts its
compiled arguments.

* `ending_value?`: what reading an operand gives.
* `ending_compare`: a comparison is `comparison` of what has been read.
* `comparison_eq`, `comparison_cases`: the forms of a comparison; `comparison_related`, two of one
  form.
* `ending_like_of_text`, `ending_like_of_ne_text`: a search with and without a text to look for.
* `function_eq`: what a function becomes, by its name and the number of its arguments.
-/

namespace RowGraph

open Attempt

namespace Expr

/-- Whether the expression is a value, written down or captured. -/
def isValue : Expr → Bool
  | .literal _ | .captured _ => true
  | _ => false

/-- The source of a captured value. -/
def ownReads : Expr → List Nat
  | .captured source => [source]
  | _ => []

theorem ownReads_of_isValue {e : Expr} (h : e.isValue = false) : e.ownReads = [] := by
  cases e with
  | captured source => cases h
  | _ => rfl

end Expr

namespace Compiler

variable (t : Compiler)

/-- The value of an expression that is one, when these sources have been read before. -/
def valueAt (before : List Nat) : Expr → Option Value
  | .literal v => some v
  | .captured source => some (t.readings before source)
  | _ => none

@[simp] theorem isSome_valueAt (before : List Nat) (e : Expr) :
    (t.valueAt before e).isSome = e.isValue := by
  cases e <;> rfl

theorem valueAt_of_isValue {e : Expr} (h : e.isValue = false) (before : List Nat) :
    t.valueAt before e = none := by
  rw [← Option.isNone_iff_eq_none, ← Option.not_isSome, isSome_valueAt, h]
  rfl

/-- A value is read at once, and nothing else is. -/
@[simp] theorem ending_value? (e : Expr) (before : List Nat) :
    ending (t.value? e) before = (.ok (t.valueAt before e), before ++ e.ownReads) := by
  cases e with
  | captured source => rfl
  | _ => simp [value?, valueAt, Expr.ownReads]

/-- An operand of a comparison: the value that has been read, or the compiled part. -/
def operand (x : Context) (e : Expr) : Option Value → Compilation Fragment
  | some v => return t.literal x.value v
  | none => t.part x.value e

/-- A comparison whose values have been read. -/
def comparison (x : Context) (op : Comparison) (left right : Expr) (l r : Option Value) :
    Compilation Fragment :=
  match op.nullTest?, l, r with
  | some test, l, some .null => return (← t.operand x left l).wrap "(" test
  | some test, some .null, r => return (← t.operand x right r).wrap "(" test
  | _, l, r => do
    let a ← t.operand x left l
    let b ← t.operand x right r
    return .operation a op.operator b

theorem part_compare (x : Context) (op : Comparison) (left right : Expr) :
    t.part x (.compare op left right) =
      (do
        let l ← t.value? left
        let r ← t.value? right
        t.comparison x op left right l r) := by
  rw [part]
  refine bind_congr fun l => bind_congr fun r => ?_
  unfold comparison operand
  generalize op.nullTest? = test
  cases r with
  | none =>
    cases l with
    | none => cases test <;> rfl
    | some v => cases test <;> cases v <;> rfl
  | some w =>
    cases l with
    | none => cases test <;> cases w <;> rfl
    | some v => cases test <;> cases w <;> cases v <;> rfl

/-- A comparison reads its values first and compiles its other operands then. -/
theorem ending_compare (x : Context) (op : Comparison) (left right : Expr) (before : List Nat) :
    ending (t.part x (.compare op left right)) before =
      ending
        (t.comparison x op left right (t.valueAt before left)
          (t.valueAt (before ++ left.ownReads) right))
        (before ++ left.ownReads ++ right.ownReads) := by
  rw [part_compare, ending_bind, ending_value?]
  dsimp only
  rw [ending_bind, ending_value?]

/-- A comparison is a test for null of one operand where the other one is null and the operator has
such a test; else both operands with the operator between them. -/
theorem comparison_eq (x : Context) (op : Comparison) (left right : Expr) (l r : Option Value) :
    t.comparison x op left right l r =
      match op.nullTest? with
      | some test =>
        if r = some .null then (do return (← t.operand x left l).wrap "(" test)
        else if l = some .null then (do return (← t.operand x right r).wrap "(" test)
        else (do
          let a ← t.operand x left l
          let b ← t.operand x right r
          return .operation a op.operator b)
      | none => (do
        let a ← t.operand x left l
        let b ← t.operand x right r
        return .operation a op.operator b) := by
  unfold comparison
  split
  · next htest =>
    rw [htest]
    exact (if_pos rfl).symm
  · next htest hr =>
    rw [htest]
    exact ((if_neg hr).trans (if_pos rfl)).symm
  · next hr hl =>
    cases htest : op.nullTest? with
    | none => rfl
    | some test =>
      dsimp only
      rw [if_neg fun h => hr test htest h, if_neg fun h => hl test htest h]

/-- The forms of a comparison: a test for null of one operand where the other one is null, or both
operands with the operator between them. -/
theorem comparison_cases (x : Context) (op : Comparison) (left right : Expr)
    (l r : Option Value) :
    (∃ test, r = some .null ∧ t.comparison x op left right l r =
        (do return (← t.operand x left l).wrap "(" test)) ∨
      (∃ test, l = some .null ∧ t.comparison x op left right l r =
        (do return (← t.operand x right r).wrap "(" test)) ∨
      t.comparison x op left right l r =
        (do
          let a ← t.operand x left l
          let b ← t.operand x right r
          return .operation a op.operator b) := by
  rw [comparison_eq]
  cases op.nullTest? with
  | none => exact .inr (.inr rfl)
  | some test =>
    by_cases hr : r = some .null
    · exact .inl ⟨test, hr, if_pos hr⟩
    · by_cases hl : l = some .null
      · exact .inr (.inl ⟨test, hl, (if_neg hr).trans (if_pos hl)⟩)
      · exact .inr (.inr ((if_neg hr).trans (if_neg hl)))

/-- Two comparisons with null on the same sides take the same form, so they are related as their
operands are, in any way that a test for null and an operator between two operands keep. -/
theorem comparison_related {R : Compilation Fragment → Compilation Fragment → Prop}
    {x : Context} {op : Comparison}
    (tested : ∀ {f g} (test : String), R f g →
      R (do return (← f).wrap "(" test) (do return (← g).wrap "(" test))
    (between : ∀ {f g f' g'}, R f f' → R g g' →
      R (do
          let a ← f
          let b ← g
          return .operation a op.operator b)
        (do
          let a ← f'
          let b ← g'
          return .operation a op.operator b))
    {u : Compiler} {left left' right right' : Expr} {l l' r r' : Option Value}
    (hl : l = some .null ↔ l' = some .null) (hr : r = some .null ↔ r' = some .null)
    (hleft : R (t.operand x left l) (u.operand x left' l'))
    (hright : R (t.operand x right r) (u.operand x right' r')) :
    R (t.comparison x op left right l r) (u.comparison x op left' right' l' r') := by
  rw [comparison_eq, comparison_eq]
  cases op.nullTest? with
  | none => exact between hleft hright
  | some test =>
    simp only [hl, hr]
    split
    · exact tested test hleft
    · split
      · exact tested test hright
      · exact between hleft hright

/-- A comparison with neither side null has both operands. -/
theorem comparison_of_ne_null {x : Context} {op : Comparison} {left right : Expr}
    {l r : Option Value} (hl : l ≠ some .null) (hr : r ≠ some .null) :
    t.comparison x op left right l r = (do
      let a ← t.operand x left l
      let b ← t.operand x right r
      return .operation a op.operator b) := by
  rw [comparison_eq]
  cases op.nullTest? with
  | none => rfl
  | some test => exact (if_neg hr).trans (if_neg hl)

/-- A search reads its pattern first; where that is a text, it goes on with the searched part. -/
theorem ending_like_of_text {x : Context} {kind : LikeKind} {e pattern : Expr} {before : List Nat}
    {text : String} (h : t.valueAt before pattern = some (.text text)) :
    ending (t.part x (.like kind e pattern)) before =
      ending (do return like kind (← t.part x.value e) text) (before ++ pattern.ownReads) := by
  rw [part, ending_bind, ending_value?, h]

theorem ending_like_of_ne_text {x : Context} {kind : LikeKind} {e pattern : Expr}
    {before : List Nat} (h : ∀ text, t.valueAt before pattern ≠ some (.text text)) :
    ending (t.part x (.like kind e pattern)) before =
      (.error (.unknownPattern kind), before ++ pattern.ownReads) := by
  rw [part, ending_bind, ending_value?]
  dsimp only
  split
  · next text hv => exact absurd hv (h text)
  · rfl

/-! ## Functions -/

/-- A function in small letters: four are written in a way of their own, if they have enough
arguments; all others have a name in the dialect or none. -/
theorem function_eq (name : String) (args : List Fragment) :
    t.function name args =
      if Text.lowerCase name = "concat" then .ok (t.dialect.concat args)
      else if Text.lowerCase name = "coalesce" ∧ 2 ≤ args.length then .ok (t.dialect.coalesce args)
      else if Text.lowerCase name = "lower" ∧ args.length = 1 then .ok (.call "LOWER" args)
      else if Text.lowerCase name = "upper" ∧ args.length = 1 then .ok (.call "UPPER" args)
      else
        match t.dialect.function? name with
        | some f => .ok (.call f.sqlName (f.rule.apply args))
        | none => .error (.unmappedFunction name t.dialect) := by
  unfold function
  generalize Text.lowerCase name = word
  split
  · simp
  · simp
  · simp [Dialect.lower]
  · simp [Dialect.upper]
  · next hconcat hcoalesce hlower hupper =>
    have two : ¬ (word = "coalesce" ∧ 2 ≤ args.length) := by
      rintro ⟨rfl, hl⟩
      match args, hl with
      | a :: b :: rest, _ => exact hcoalesce a b rest rfl rfl
    have one : ¬ (word = "lower" ∧ args.length = 1) ∧ ¬ (word = "upper" ∧ args.length = 1) := by
      constructor
      · rintro ⟨rfl, hl⟩
        obtain ⟨a, rfl⟩ := List.length_eq_one_iff.mp hl
        exact hlower a rfl rfl
      · rintro ⟨rfl, hl⟩
        obtain ⟨a, rfl⟩ := List.length_eq_one_iff.mp hl
        exact hupper a rfl rfl
    cases t.dialect.function? name <;>
      simp only [if_neg hconcat, if_neg two, if_neg one.1, if_neg one.2]

end Compiler

end RowGraph
