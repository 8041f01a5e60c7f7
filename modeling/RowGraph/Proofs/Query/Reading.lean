import RowGraph.Fragment.Grouping

/-!
# How a row of conditions is read

A condition is read as operands between connectives: parentheses first, then `AND`, then `OR`. An
operand is a group in parentheses. It is taken as a whole, with a truth of its own, or its
parentheses are opened and the condition inside is read; `Reads` lists the operands that are taken
as wholes, in the order of the text, so every one has its own truth even where two are written
alike.

Where a group ends depends on what else a text holds: parentheses in a quoted name or a comment are
characters like any other. `Lexis` is any such rule, given by what a reader knows after each symbol.

Results:
* `IsGroup.eq_of_append`: no group goes on where another has ended.
* `isGroup_quotes_iff`: with the two usual quotes, a group is what `isParenthesized` says.
* `Reads.behind_append`: what can be read leaves no parenthesis and no quote open.
* **`Reads.unique`**: with these operands taken as wholes, a text is read in one way.
-/

namespace RowGraph

open Fragment (Symbol symbolsOf closesAtEnd)

/-! ## Groups -/

/-- A rule for what the symbols of a text are: the states of a reader, how it goes on, and in which
states a parenthesis counts. It does so between words, and connectives are words. -/
structure Lexis where
  State : Type
  /-- Between words, with nothing open. -/
  start : State
  next : State → Symbol → State
  counts : State → Bool
  counts_start : counts start = true
  next_start : ∀ char ∈ [' ', 'A', 'N', 'D', 'O', 'R'], next start (.char char) = start

namespace Lexis

/-- Names in double quotes and texts in single ones. -/
def quotes : Lexis where
  State := Option Char
  start := none
  next
    | some quote, x => if x = .char quote then none else some quote
    | none, .char c => if c = '\'' || c = '"' then some c else none
    | none, .hidden => none
  counts := Option.isNone
  counts_start := rfl
  next_start := by simp

variable (l : Lexis)

/-- What is left of a text behind the group that the reader is in, which lies in `depth` others
that end with it. -/
def behind : (depth : Nat) → l.State → List Symbol → Option (List Symbol)
  | _, _, [] => none
  | depth, state, x :: rest =>
    if l.counts state && x = .char '(' then behind (depth + 1) l.start rest
    else if l.counts state && x = .char ')' then
      if depth = 0 then some rest else behind (depth - 1) l.start rest
    else behind depth (l.next state x) rest

/-- One group in parentheses, from its first symbol to its last. -/
def IsGroup (text : List Symbol) : Prop :=
  ∃ inner, text = .char '(' :: inner ∧ l.behind 0 l.start inner = some []

variable {l}

theorem behind_open {depth : Nat} {rest : List Symbol} :
    l.behind depth l.start (.char '(' :: rest) = l.behind (depth + 1) l.start rest := by
  simp [behind, l.counts_start]

theorem behind_close {depth : Nat} {rest : List Symbol} :
    l.behind (depth + 1) l.start (.char ')' :: rest) = l.behind depth l.start rest := by
  simp [behind, l.counts_start]

/-- What follows a text stands behind the group that the text ends. -/
theorem behind_append {depth : Nat} {state : l.State} {text left : List Symbol}
    (h : l.behind depth state text = some left) (rest : List Symbol) :
    l.behind depth state (text ++ rest) = some (left ++ rest) := by
  induction text generalizing depth state with
  | nil => cases h
  | cons x text ih =>
    rw [behind] at h
    rw [List.cons_append, behind]
    split at h
    · next opening =>
      rw [if_pos opening]
      exact ih h
    · next notOpening =>
      rw [if_neg notOpening]
      split at h
      · next closing =>
        rw [if_pos closing]
        split at h
        · next outermost =>
          rw [if_pos outermost, Option.some.inj h]
        · next deeper =>
          rw [if_neg deeper]
          exact ih h
      · next notClosing =>
        rw [if_neg notClosing]
        exact ih h

/-- Inside more groups, the reader goes on in those where the inner ones end. -/
theorem behind_add {inner : Nat} {state : l.State} {text left : List Symbol}
    (h : l.behind inner state text = some left) (depth : Nat) :
    l.behind (inner + depth + 1) state text = l.behind depth l.start left := by
  induction text generalizing inner state with
  | nil => cases h
  | cons x text ih =>
    rw [behind] at h ⊢
    split at h
    · next opening =>
      rw [if_pos opening, ← ih h]
      congr 1
      omega
    · next notOpening =>
      rw [if_neg notOpening]
      split at h
      · next closing =>
        rw [if_pos closing, if_neg (by omega)]
        split at h
        · next outermost =>
          rw [outermost, Option.some.inj h]
          congr 1
          omega
        · next deeper =>
          rw [← ih h]
          congr 1
          omega
      · next notClosing =>
        rw [if_neg notClosing]
        exact ih h

/-- **No group goes on where another has ended**: where one text starts with a group in two ways,
the groups are the same. -/
theorem IsGroup.eq_of_append {text text' rest rest' : List Symbol} (h : l.IsGroup text)
    (k : l.IsGroup text') (same : text ++ rest = text' ++ rest') : text = text' := by
  obtain ⟨inner, rfl, closed⟩ := h
  obtain ⟨inner', rfl, closed'⟩ := k
  have left : inner ++ rest = inner' ++ rest' := (List.cons.inj same).2
  have ends := behind_append closed rest
  rw [left, behind_append closed' rest'] at ends
  obtain rfl : rest' = rest := by simpa using ends
  rw [List.append_cancel_right left]

/-- A reader between words is between words again after a group. -/
theorem IsGroup.behind_append {text : List Symbol} (h : l.IsGroup text) (depth : Nat)
    (rest : List Symbol) : l.behind depth l.start (text ++ rest) = l.behind depth l.start rest := by
  obtain ⟨inner, rfl, closed⟩ := h
  have deeper := behind_add (Lexis.behind_append closed rest) depth
  rw [Nat.zero_add, List.nil_append] at deeper
  rw [List.cons_append, behind_open, deeper]

theorem behind_quotes (depth : Nat) (quote : Option Char) (text : List Symbol) :
    quotes.behind depth quote text = some [] ↔ closesAtEnd depth quote text = true := by
  induction text generalizing depth quote with
  | nil => simp [behind, closesAtEnd]
  | cons x text ih =>
    match quote, x with
    | none, .hidden => simpa [behind, closesAtEnd, quotes] using ih depth none
    | some q, .hidden => simpa [behind, closesAtEnd, quotes] using ih depth (some q)
    | some q, .char c =>
      by_cases closing : c = q
      · simpa [behind, closesAtEnd, quotes, closing] using ih depth none
      · simpa [behind, closesAtEnd, quotes, closing] using ih depth (some q)
    | none, .char c =>
      by_cases opening : c = '('
      · simpa [behind, closesAtEnd, quotes, opening] using ih (depth + 1) none
      · by_cases closing : c = ')'
        · cases depth with
          | zero => simp [behind, closesAtEnd, quotes, closing]
          | succ depth => simpa [behind, closesAtEnd, quotes, closing] using ih depth none
        · by_cases quoted : c = '\'' ∨ c = '"'
          · simpa [behind, closesAtEnd, quotes, opening, closing, quoted] using ih depth (some c)
          · simpa [behind, closesAtEnd, quotes, opening, closing, quoted] using ih depth none

/-- With the usual quotes a fragment is one group if it says so of itself. -/
theorem isGroup_quotes_iff (f : Fragment) :
    quotes.IsGroup f.symbols ↔ f.isParenthesized = true := by
  rw [Fragment.isParenthesized_iff_closesAtEnd]
  exact exists_congr fun inner => and_congr_right fun _ => behind_quotes 0 none inner

end Lexis

/-! ## Readings -/

/-- What a text is read as. -/
inductive Level
  /-- A group in parentheses. -/
  | operand
  /-- Operands between `AND`. -/
  | conjunction
  /-- Conjunctions between `OR`. -/
  | condition

namespace Lexis

/-- A text is read at a level as true or false, when these groups are its operands in order, each
one true or false as a whole. -/
inductive Reads (l : Lexis) : Level → List (List Symbol × Bool) → List Symbol → Bool → Prop
  | group {text : List Symbol} (truth : Bool) (h : l.IsGroup text) :
    Reads l .operand [(text, truth)] text truth
  /-- The parentheses are opened. -/
  | inside {operands : List (List Symbol × Bool)} {text : List Symbol} {truth : Bool}
    (h : Reads l .condition operands text truth) :
    Reads l .operand operands (.char '(' :: text ++ [.char ')']) truth
  | single {operands : List (List Symbol × Bool)} {text : List Symbol} {truth : Bool}
    (h : Reads l .operand operands text truth) : Reads l .conjunction operands text truth
  | and {operands operands' : List (List Symbol × Bool)} {text text' : List Symbol}
    {truth truth' : Bool} (h : Reads l .operand operands text truth)
    (k : Reads l .conjunction operands' text' truth') :
    Reads l .conjunction (operands ++ operands') (text ++ (symbolsOf " AND " ++ text'))
      (truth && truth')
  | all {operands : List (List Symbol × Bool)} {text : List Symbol} {truth : Bool}
    (h : Reads l .conjunction operands text truth) : Reads l .condition operands text truth
  | or {operands operands' : List (List Symbol × Bool)} {text text' : List Symbol}
    {truth truth' : Bool} (h : Reads l .conjunction operands text truth)
    (k : Reads l .condition operands' text' truth') :
    Reads l .condition (operands ++ operands') (text ++ (symbolsOf " OR " ++ text'))
      (truth || truth')

namespace Reads

variable {l : Lexis} {operands : List (List Symbol × Bool)} {text : List Symbol} {truth : Bool}

/-! ### What a text is read from -/

theorem operand_iff : l.Reads .operand operands text truth ↔
    l.IsGroup text ∧ operands = [(text, truth)] ∨
      ∃ inner, text = .char '(' :: inner ++ [.char ')'] ∧
        l.Reads .condition operands inner truth := by
  constructor
  · intro h
    cases h with
    | group _ h => exact .inl ⟨h, rfl⟩
    | inside h => exact .inr ⟨_, rfl, h⟩
  · rintro (⟨h, rfl⟩ | ⟨inner, rfl, h⟩)
    · exact .group truth h
    · exact .inside h

theorem conjunction_iff : l.Reads .conjunction operands text truth ↔
    l.Reads .operand operands text truth ∨
      ∃ first second before after a b, operands = first ++ second ∧
        text = before ++ (symbolsOf " AND " ++ after) ∧ truth = (a && b) ∧
        l.Reads .operand first before a ∧ l.Reads .conjunction second after b := by
  constructor
  · intro h
    cases h with
    | single h => exact .inl h
    | and h k => exact .inr ⟨_, _, _, _, _, _, rfl, rfl, rfl, h, k⟩
  · rintro (h | ⟨first, second, before, after, a, b, rfl, rfl, rfl, h, k⟩)
    · exact .single h
    · exact .and h k

theorem condition_iff : l.Reads .condition operands text truth ↔
    l.Reads .conjunction operands text truth ∨
      ∃ first second before after a b, operands = first ++ second ∧
        text = before ++ (symbolsOf " OR " ++ after) ∧ truth = (a || b) ∧
        l.Reads .conjunction first before a ∧ l.Reads .condition second after b := by
  constructor
  · intro h
    cases h with
    | all h => exact .inl h
    | or h k => exact .inr ⟨_, _, _, _, _, _, rfl, rfl, rfl, h, k⟩
  · rintro (h | ⟨first, second, before, after, a, b, rfl, rfl, rfl, h, k⟩)
    · exact .all h
    · exact .or h k

/-! ### Where a text ends -/

/-- The connectives leave the reader between words. -/
theorem behind_word {word : String}
    (h : ∀ char ∈ word.toList, char ∈ [' ', 'A', 'N', 'D', 'O', 'R']) (depth : Nat)
    (rest : List Symbol) :
    l.behind depth l.start (symbolsOf word ++ rest) = l.behind depth l.start rest := by
  rw [symbolsOf]
  generalize word.toList = chars at h ⊢
  induction chars with
  | nil => rfl
  | cons char chars ih =>
    have known := h char List.mem_cons_self
    have opening : char ≠ '(' := by rintro rfl; revert known; decide
    have closing : char ≠ ')' := by rintro rfl; revert known; decide
    simp only [List.map_cons, List.cons_append, behind, l.next_start char known]
    simpa [opening, closing] using ih fun c hc => h c (List.mem_cons_of_mem char hc)

/-- **What can be read leaves nothing open.** -/
theorem behind_append {level : Level} (h : l.Reads level operands text truth) (depth : Nat)
    (rest : List Symbol) :
    l.behind depth l.start (text ++ rest) = l.behind depth l.start rest := by
  induction h generalizing depth rest with
  | group truth h => exact h.behind_append depth rest
  | inside h ih =>
    rw [List.cons_append, List.cons_append, List.append_assoc, behind_open, ih, List.cons_append,
      behind_close, List.nil_append]
  | single h ih => exact ih depth rest
  | and h k ihh ihk =>
    rw [List.append_assoc, List.append_assoc, ihh, behind_word (by simp), ihk]
  | all h ih => exact ih depth rest
  | or h k ihh ihk =>
    rw [List.append_assoc, List.append_assoc, ihh, behind_word (by simp), ihk]

/-- An operand is a group, whether its parentheses are opened or not. -/
theorem isGroup (h : l.Reads .operand operands text truth) : l.IsGroup text := by
  obtain ⟨group, -⟩ | ⟨inner, rfl, read⟩ := operand_iff.mp h
  · exact group
  · refine ⟨inner ++ [.char ')'], rfl, ?_⟩
    rw [read.behind_append]
    simp [behind, l.counts_start]

theorem not_and_of_or (rest : List Symbol) : ¬ symbolsOf " AND " <+: symbolsOf " OR " ++ rest := by
  rintro ⟨_, same⟩
  simp [symbolsOf] at same

/-- A conjunction ends where no `AND` follows: of two texts that start with one each, neither
followed by `AND`, the conjunctions are the same. -/
theorem conjunction_eq_of_append {operands' : List (List Symbol × Bool)}
    {text' rest rest' : List Symbol} {truth' : Bool}
    (h : l.Reads .conjunction operands text truth)
    (k : l.Reads .conjunction operands' text' truth') (same : text ++ rest = text' ++ rest')
    (ends : ¬ symbolsOf " AND " <+: rest) (ends' : ¬ symbolsOf " AND " <+: rest') :
    text = text' := by
  generalize hlevel : Level.conjunction = level at h
  induction h generalizing operands' text' truth' with
  | group | inside | all | or => cases hlevel
  | single h =>
    obtain k | ⟨_, _, before, after, _, _, -, rfl, -, k, -⟩ := conjunction_iff.mp k
    · exact h.isGroup.eq_of_append k.isGroup same
    · simp only [List.append_assoc] at same
      obtain rfl := h.isGroup.eq_of_append k.isGroup same
      exact absurd ⟨_, (List.append_cancel_left same).symm⟩ ends
  | and h _ _ ih =>
    simp only [List.append_assoc] at same
    obtain k | ⟨_, _, before, after, _, _, -, rfl, -, k, more⟩ := conjunction_iff.mp k
    · obtain rfl := h.isGroup.eq_of_append k.isGroup same
      exact absurd ⟨_, List.append_cancel_left same⟩ ends'
    · simp only [List.append_assoc] at same
      obtain rfl := h.isGroup.eq_of_append k.isGroup same
      rw [ih more (List.append_cancel_left (List.append_cancel_left same)) rfl]

/-! ### One reading -/

/-- Operands are no longer than what they are read from. -/
theorem length_le {level : Level} (h : l.Reads level operands text truth) :
    ∀ o ∈ operands, o.1.length ≤ text.length := by
  induction h with
  | group truth h => simp
  | single h ih | all h ih => exact ih
  | inside h ih =>
    intro o ho
    have short := ih o ho
    simp only [List.length_append, List.length_cons]
    omega
  | and h k ihh ihk | or h k ihh ihk =>
    intro o ho
    simp only [List.length_append]
    obtain ho | ho := List.mem_append.mp ho
    · have short := ihh o ho
      omega
    · have short := ihk o ho
      omega

theorem operands_ne_nil {level : Level} (h : l.Reads level operands text truth) :
    operands ≠ [] := by
  induction h with
  | group truth h => simp
  | inside h ih | single h ih | all h ih => exact ih
  | and h k ihh ihk | or h k ihh ihk => simp [ihh]

/-- A group that is taken as a whole is none whose parentheses are opened: the operands inside are
shorter. -/
theorem ne_whole {inner : List Symbol} {whole : Bool}
    {rest rest' : List (List Symbol × Bool)} (h : l.Reads .condition operands inner truth) :
    operands ++ rest ≠ (.char '(' :: inner ++ [.char ')'], whole) :: rest' := by
  intro same
  obtain ⟨first, others, rfl⟩ := List.exists_cons_of_ne_nil h.operands_ne_nil
  have short := h.length_le first List.mem_cons_self
  rw [List.cons_append, List.cons.injEq] at same
  rw [same.1] at short
  simp only [List.length_append, List.length_cons] at short
  omega

/-- Readings of one text agree, with the operands up to some others. -/
theorem eq_of_append {level : Level} (h : l.Reads level operands text truth)
    {operands' rest rest' : List (List Symbol × Bool)} {truth' : Bool}
    (k : l.Reads level operands' text truth') (same : operands ++ rest = operands' ++ rest') :
    operands = operands' ∧ truth = truth' := by
  induction h generalizing operands' truth' rest rest' with
  | group truth h =>
    obtain ⟨-, rfl⟩ | ⟨inner, rfl, read⟩ := operand_iff.mp k
    · obtain ⟨-, rfl⟩ := Prod.mk.inj (List.cons.inj same).1
      exact ⟨rfl, rfl⟩
    · exact absurd same.symm read.ne_whole
  | inside h ih =>
    obtain ⟨-, rfl⟩ | ⟨inner, texts, read⟩ := operand_iff.mp k
    · exact absurd same h.ne_whole
    · obtain rfl := List.append_cancel_right (List.cons.inj texts).2
      exact ih read same
  | single h ih =>
    obtain k | ⟨_, _, before, after, _, _, -, rfl, -, k, -⟩ := conjunction_iff.mp k
    · exact ih k same
    · have whole := h.isGroup.eq_of_append k.isGroup (List.append_nil _)
      simp [symbolsOf] at whole
  | all h ih =>
    obtain k | ⟨_, _, before, after, _, _, -, rfl, -, k, -⟩ := condition_iff.mp k
    · exact ih k same
    · have whole := h.conjunction_eq_of_append k (List.append_nil _) (by decide) (not_and_of_or _)
      simp [symbolsOf] at whole
  | and h more ihh ihk =>
    obtain k | ⟨first, second, before, after, a, b, rfl, texts, rfl, k, more'⟩ :=
      conjunction_iff.mp k
    · have whole := k.isGroup.eq_of_append h.isGroup (List.append_nil _)
      simp [symbolsOf] at whole
    · obtain rfl := h.isGroup.eq_of_append k.isGroup texts
      obtain rfl := List.append_cancel_left (List.append_cancel_left texts)
      rw [List.append_assoc, List.append_assoc] at same
      obtain ⟨rfl, rfl⟩ := ihh k same
      obtain ⟨rfl, rfl⟩ := ihk more' (List.append_cancel_left same)
      exact ⟨rfl, rfl⟩
  | or h more ihh ihk =>
    obtain k | ⟨first, second, before, after, a, b, rfl, texts, rfl, k, more'⟩ :=
      condition_iff.mp k
    · have whole := k.conjunction_eq_of_append h (List.append_nil _) (by decide) (not_and_of_or _)
      simp [symbolsOf] at whole
    · obtain rfl := h.conjunction_eq_of_append k texts (not_and_of_or _) (not_and_of_or _)
      obtain rfl := List.append_cancel_left (List.append_cancel_left texts)
      rw [List.append_assoc, List.append_assoc] at same
      obtain ⟨rfl, rfl⟩ := ihh k same
      obtain ⟨rfl, rfl⟩ := ihk more' (List.append_cancel_left same)
      exact ⟨rfl, rfl⟩

/-- **With these operands taken as wholes, a text is read in one way.** -/
theorem unique {level : Level} {truth' : Bool} (h : l.Reads level operands text truth)
    (k : l.Reads level operands text truth') : truth = truth' :=
  (h.eq_of_append k (rfl : operands ++ [] = operands ++ [])).2

end Reads

end Lexis

end RowGraph
