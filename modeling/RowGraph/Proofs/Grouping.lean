import RowGraph.Fragment.Grouping

/-!
# What one group in parentheses is

Whether a fragment is one group is found by a scan from left to right, which counts the parentheses
that are open and skips what stands in quotes. What it finds is said here without a scan: a group is
a body in parentheses, and a body is a row of groups, of quoted texts and of anything else that is
neither a parenthesis nor a quote. Literals and embedded queries are hidden symbols that can stand
anywhere inside, also in quotes.

The scan comes in two forms: `closesAtEnd` counts the groups around the one that it is in, and `Scan`
keeps a depth and marks for what it has seen, one symbol after the other. In the second form the
depth is any whole number, and it is the order of the tests that keeps it from going below zero.

Results:
* `IsBody`, `IsGroup`: the grammar.
* `closesAtEnd_eq_true_iff`: the scan accepts what closes all groups that it is in, and nothing more.
* `Scan.depth_of_step`, `Scan.depth_nonneg_of_run`: no scan goes below zero.
* `Scan.accepts_start`: both forms of the scan agree.
* **`isParenthesized_iff_isGroup`**: all of it, for every fragment and every text.
-/

namespace RowGraph.Fragment

/-! ## The grammar -/

/-- Not a parenthesis and not a quote. -/
def IsPlain (c : Char) : Prop := c ∉ ['(', ')', '\'', '"']

instance (c : Char) : Decidable (IsPlain c) := inferInstanceAs (Decidable (c ∉ _))

/-- What can stand between the parentheses of a group. -/
inductive IsBody : List Symbol → Prop
  | nil : IsBody []
  | hidden {rest : List Symbol} (h : IsBody rest) : IsBody (.hidden :: rest)
  | plain {c : Char} {rest : List Symbol} (hc : IsPlain c) (h : IsBody rest) :
    IsBody (.char c :: rest)
  /-- A group inside. -/
  | group {inner rest : List Symbol} (hi : IsBody inner) (h : IsBody rest) :
    IsBody (.char '(' :: inner ++ .char ')' :: rest)
  /-- From a quote to the next one like it, whatever is in between. -/
  | quoted {quote : Char} {inner rest : List Symbol} (hq : quote = '\'' ∨ quote = '"')
    (hi : .char quote ∉ inner) (h : IsBody rest) :
    IsBody (.char quote :: inner ++ .char quote :: rest)

/-- A body in parentheses. -/
def IsGroup (text : List Symbol) : Prop :=
  ∃ body, IsBody body ∧ text = .char '(' :: body ++ [.char ')']

/-- Closes the group that a reader is in and then `depth` others, with a body in front of each
closing parenthesis, and ends with the last one. -/
inductive Closes : (depth : Nat) → List Symbol → Prop
  | last {body : List Symbol} (h : IsBody body) : Closes 0 (body ++ [.char ')'])
  | next {depth : Nat} {body rest : List Symbol} (h : IsBody body) (k : Closes depth rest) :
    Closes (depth + 1) (body ++ .char ')' :: rest)

/-- The same behind an open quote: the quote ends first. -/
def ClosesFrom (depth : Nat) (quote : Option Char) (text : List Symbol) : Prop :=
  match quote with
  | none => Closes depth text
  | some q => ∃ inner rest, text = inner ++ .char q :: rest ∧ .char q ∉ inner ∧ Closes depth rest

/-! ## What the scan accepts -/

section Scanning

variable {depth : Nat} {quote : Option Char} {text : List Symbol}

/-- What can be put in front of every body can be put in front of the first one. -/
theorem Closes.behind (front : List Symbol) (h : Closes depth text)
    (hfront : ∀ body, IsBody body → IsBody (front ++ body)) : Closes depth (front ++ text) := by
  cases h with
  | last h =>
    rw [← List.append_assoc]
    exact .last (hfront _ h)
  | next h k =>
    rw [← List.append_assoc]
    exact .next (hfront _ h) k

/-- A closed group goes into the body around it. -/
theorem Closes.inside (h : Closes (depth + 1) text) : Closes depth (.char '(' :: text) := by
  cases h with
  | @next _ body rest h k =>
    have whole : Closes depth ((.char '(' :: body ++ [.char ')']) ++ rest) := by
      refine k.behind _ fun others ho => ?_
      simpa using IsBody.group h ho
    simpa using whole

theorem ClosesFrom.hidden (h : ClosesFrom depth quote text) :
    ClosesFrom depth quote (.hidden :: text) := by
  cases quote with
  | none => exact Closes.behind [.hidden] h fun _ => .hidden
  | some q =>
    obtain ⟨inner, rest, rfl, ends, closed⟩ := h
    exact ⟨.hidden :: inner, rest, rfl, by simpa using ends, closed⟩

/-- A quote ends at the first character like it. -/
theorem ClosesFrom.quoted {q c : Char}
    (h : ClosesFrom depth (if c = q then none else some q) text) :
    ClosesFrom depth (some q) (.char c :: text) := by
  by_cases same : c = q
  · rw [if_pos same] at h
    exact ⟨[], text, by rw [same]; rfl, by simp, h⟩
  · rw [if_neg same] at h
    obtain ⟨inner, rest, rfl, ends, closed⟩ := h
    refine ⟨.char c :: inner, rest, rfl, ?_, closed⟩
    rw [List.mem_cons, not_or]
    exact ⟨fun h => same (Symbol.char.inj h).symm, ends⟩

/-- A quoted text goes into the body that it begins. -/
theorem ClosesFrom.opened {q : Char} (hq : q = '\'' ∨ q = '"')
    (h : ClosesFrom depth (some q) text) : Closes depth (.char q :: text) := by
  obtain ⟨inner, rest, rfl, ends, closed⟩ := h
  have whole : Closes depth ((.char q :: inner ++ [.char q]) ++ rest) := by
    refine closed.behind _ fun others ho => ?_
    simpa using IsBody.quoted hq ends ho
  simpa using whole

theorem closesFrom_of_closesAtEnd (h : closesAtEnd depth quote text = true) :
    ClosesFrom depth quote text := by
  fun_induction closesAtEnd depth quote text with
  | case1 => cases h
  | case2 depth quote rest ih => exact (ih h).hidden
  | case3 depth q c rest ih => exact (ih h).quoted
  | case4 depth rest ih => exact Closes.inside (ih h)
  | case5 rest =>
    obtain rfl := List.isEmpty_iff.mp h
    exact .last .nil
  | case6 rest depth _ ih => exact .next .nil (ih h)
  | case7 depth c rest opening closing quoted ih =>
    exact (ih h).opened (by simpa using quoted)
  | case8 depth c rest opening closing quoted ih =>
    have plain : IsPlain c := by simpa [IsPlain, opening, closing] using quoted
    exact Closes.behind [.char c] (ih h) fun _ => .plain plain

/-- A quoted text leaves the scan where it was. -/
theorem closesAtEnd_quoted {q : Char} {inner : List Symbol} (hi : .char q ∉ inner) :
    closesAtEnd depth (some q) (inner ++ .char q :: text) = closesAtEnd depth none text := by
  induction inner with
  | nil => simp [closesAtEnd]
  | cons x inner ih =>
    rw [List.mem_cons, not_or] at hi
    cases x with
    | hidden => exact ih hi.2
    | char c =>
      have differ : c ≠ q := by
        rintro rfl
        exact hi.1 rfl
      simpa [closesAtEnd, differ] using ih hi.2

/-- **A body leaves the scan where it was.** -/
theorem IsBody.closesAtEnd_append {body : List Symbol} (h : IsBody body) (depth : Nat)
    (text : List Symbol) :
    closesAtEnd depth none (body ++ text) = closesAtEnd depth none text := by
  induction h generalizing depth text with
  | nil => rfl
  | hidden h ih => exact ih depth text
  | @plain c rest hc h ih =>
    simp only [IsPlain, List.mem_cons, List.not_mem_nil, or_false, not_or] at hc
    simpa [closesAtEnd, hc] using ih depth text
  | @group inner rest hi h ihi ih =>
    have opened : closesAtEnd depth none (.char '(' :: inner ++ .char ')' :: rest ++ text) =
        closesAtEnd (depth + 1) none (inner ++ .char ')' :: (rest ++ text)) := by
      simp [closesAtEnd]
    rw [opened, ihi]
    simpa [closesAtEnd] using ih depth text
  | @quoted q inner rest hq hi h ih =>
    have opened : closesAtEnd depth none (.char q :: inner ++ .char q :: rest ++ text) =
        closesAtEnd depth (some q) (inner ++ .char q :: (rest ++ text)) := by
      obtain rfl | rfl := hq <;> simp [closesAtEnd]
    rw [opened, closesAtEnd_quoted hi, ih]

theorem closesAtEnd_of_closes (h : Closes depth text) : closesAtEnd depth none text = true := by
  induction h with
  | last h => simp [h.closesAtEnd_append, closesAtEnd]
  | next h k ih => simpa [h.closesAtEnd_append, closesAtEnd] using ih

/-- **The scan accepts what closes all groups that it is in**, and nothing more. -/
theorem closesAtEnd_eq_true_iff : closesAtEnd depth none text = true ↔ Closes depth text :=
  ⟨closesFrom_of_closesAtEnd, closesAtEnd_of_closes⟩

theorem closes_zero_iff : Closes 0 text ↔ ∃ body, IsBody body ∧ text = body ++ [.char ')'] := by
  constructor
  · intro h
    cases h with
    | last h => exact ⟨_, h, rfl⟩
  · rintro ⟨body, h, rfl⟩
    exact .last h

end Scanning

/-- A text is one group if it opens one and then closes all that is open. -/
theorem isGroup_iff {text : List Symbol} :
    IsGroup text ↔ ∃ rest, text = .char '(' :: rest ∧ closesAtEnd 0 none rest = true := by
  constructor
  · rintro ⟨body, h, rfl⟩
    exact ⟨body ++ [.char ')'], rfl, closesAtEnd_eq_true_iff.mpr (.last h)⟩
  · rintro ⟨rest, rfl, closed⟩
    obtain ⟨body, h, rfl⟩ := closes_zero_iff.mp (closesAtEnd_eq_true_iff.mp closed)
    exact ⟨body, h, rfl⟩

theorem isParenthesized_eq_true_iff (f : Fragment) :
    f.isParenthesized = true ↔ IsGroup f.symbols := by
  rw [isGroup_iff, isParenthesized_iff_closesAtEnd]

instance (f : Fragment) : Decidable (IsGroup f.symbols) :=
  decidable_of_iff _ (isParenthesized_eq_true_iff f)

/-- A parenthesis in quotes opens and closes nothing, also where a literal stands in the quotes. -/
example : IsGroup (sql "(x = ')" ++ param .null ++ sql "(')").symbols := by decide

/-! ## The scan with a depth -/

/-- What a scan knows after some symbols. -/
structure Scan where
  /-- How many parentheses are open. -/
  depth : Int
  /-- The quote that is open. -/
  quote : Option Char
  /-- The last parenthesis that was open has been closed. -/
  hasEnded : Bool
  /-- A parenthesis has been opened. -/
  hasBegun : Bool
deriving DecidableEq, Repr

namespace Scan

/-- Before the first symbol. -/
def start : Scan := ⟨0, none, false, false⟩

/-- One symbol more, unless it rules out that the text is one group. -/
def step (s : Scan) : Symbol → Option Scan
  | .hidden => if s.depth = 0 then none else some s
  | .char c =>
    if s.hasEnded then none
    else match s.quote with
      | some q => some (if c = q then { s with quote := none } else s)
      | none =>
        if c = '(' then some { s with depth := s.depth + 1, hasBegun := true }
        else if s.depth = 0 then none
        else if c = ')' then some { s with depth := s.depth - 1, hasEnded := s.depth - 1 = 0 }
        else if c = '\'' || c = '"' then some { s with quote := some c }
        else some s

/-- All symbols of a text. -/
def run (s : Scan) (text : List Symbol) : Option Scan := text.foldlM step s

/-- Whether the text is one group, when the scan has come so far. -/
def accepts (s : Scan) (text : List Symbol) : Bool :=
  match s.run text with
  | some last => last.hasBegun && last.depth = 0
  | none => false

variable {s t : Scan}

theorem run_cons (x : Symbol) (rest : List Symbol) :
    s.run (x :: rest) = (s.step x).bind (run · rest) := List.foldlM_cons

/-- What a symbol does to the depth: nothing, or it opens a parenthesis, or it closes one where at
least one is open. -/
theorem depth_of_step {x : Symbol} (stepped : s.step x = some t) :
    t.depth = s.depth ∨ t.depth = s.depth + 1 ∨ s.depth ≠ 0 ∧ t.depth = s.depth - 1 := by
  cases x with
  | hidden => grind [step]
  | char c => grind [step]

/-- **No scan goes below zero**, whatever it reads. -/
theorem depth_nonneg_of_run {text : List Symbol} (h : 0 ≤ s.depth) (ran : s.run text = some t) :
    0 ≤ t.depth := by
  induction text generalizing s with
  | nil =>
    cases ran
    exact h
  | cons x rest ih =>
    rw [run_cons, Option.bind_eq_some_iff] at ran
    obtain ⟨next, stepped, ran⟩ := ran
    have above := depth_of_step stepped
    exact ih (by omega) ran

/-! ### Both forms of the scan -/

theorem accepts_cons (x : Symbol) (rest : List Symbol) :
    s.accepts (x :: rest) =
      match s.step x with
      | some next => next.accepts rest
      | none => false := by
  rw [accepts, run_cons]
  cases s.step x <;> rfl

/-- Nothing may follow a group that has ended. -/
theorem accepts_ended (text : List Symbol) : accepts ⟨0, none, true, true⟩ text = text.isEmpty := by
  cases text with
  | nil => rfl
  | cons x rest => cases x <;> simp [accepts_cons, step]

/-- Inside of the first parenthesis the depth counts one more than the groups around. -/
theorem accepts_inside (depth : Nat) (quote : Option Char) (text : List Symbol) :
    accepts ⟨depth + 1, quote, false, true⟩ text = closesAtEnd depth quote text := by
  have above (n : Nat) : (n : Int) + 1 ≠ 0 := by omega
  fun_induction closesAtEnd depth quote text with
  | case1 depth quote => simp [accepts, run, above]
  | case2 depth quote rest ih => simp [accepts_cons, step, above, ih]
  | case3 depth q c rest ih =>
    rw [accepts_cons, ← ih]
    by_cases same : c = q <;> simp [step, same]
  | case4 depth rest ih =>
    rw [accepts_cons, ← ih]
    rfl
  | case5 rest => exact accepts_ended rest
  | case6 rest depth _ ih =>
    have inner : (depth : Int) + 1 + 1 ≠ 0 := by omega
    rw [accepts_cons, ← ih]
    simp [step, above, inner]
  | case7 depth c rest opening closing quoted ih =>
    rw [accepts_cons, ← ih]
    simp [step, above, opening, closing, quoted]
  | case8 depth c rest opening closing quoted ih =>
    rw [accepts_cons, ← ih]
    simp [step, above, opening, closing, quoted]

/-- The scan with a depth answers as the fragment does. -/
theorem accepts_start (f : Fragment) : start.accepts f.symbols = f.isParenthesized := by
  rw [isParenthesized]
  cases f.symbols with
  | nil => rfl
  | cons x rest =>
    cases x with
    | hidden => rfl
    | char c =>
      by_cases opening : c = '('
      · simpa [accepts_cons, step, start, opening] using accepts_inside 0 none rest
      · simp [accepts_cons, step, start, opening]

end Scan

/-- **A fragment says that it is one group exactly if it is one**: a row of groups, of quoted texts
and of anything but parentheses and quotes, in parentheses from its first symbol to its last. The
scan with a depth says the same of it, and on no text whatsoever does its depth go below zero. -/
theorem isParenthesized_iff_isGroup :
    (∀ f : Fragment, (f.isParenthesized = true ↔ IsGroup f.symbols) ∧
      Scan.start.accepts f.symbols = f.isParenthesized) ∧
    ∀ text s, Scan.start.run text = some s → 0 ≤ s.depth :=
  ⟨fun f => ⟨isParenthesized_eq_true_iff f, Scan.accepts_start f⟩,
    fun _ _ ran => Scan.depth_nonneg_of_run (Int.le_refl 0) ran⟩

end RowGraph.Fragment
