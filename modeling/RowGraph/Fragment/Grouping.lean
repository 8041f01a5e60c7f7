import RowGraph.Fragment.Basic

/-!
# Fragments that are one group

Whether a fragment is a single group in parentheses decides whether it needs another pair before it
is combined with others. The test reads the fragment as a row of symbols: the characters of its
text, and one hidden symbol for each literal and each embedded query.

Main statements: `isParenthesized_iff_closesAtEnd`, what the test looks for, and `symbols_append`, the
symbols of two fragments follow each other.

Modelled: `is_parenthesized`.
-/

namespace RowGraph.Fragment

/-- What a fragment shows: a character, or something whose text is not known yet. -/
inductive Symbol
  | char (c : Char)
  | hidden
deriving DecidableEq, Repr

/-- The symbols of a text. -/
def symbolsOf (s : String) : List Symbol := s.toList.map .char

/-- The symbols of a fragment. -/
def symbols : Fragment → List Symbol
  | .empty => []
  | .text s rest => symbolsOf s ++ rest.symbols
  | .literal _ rest => .hidden :: rest.symbols
  | .subQuery _ rest => .hidden :: rest.symbols

/-- Reads on inside a group that itself lies in `depth` others, with the quote that is open. The
group that everything lies in must end with the last symbol. -/
def closesAtEnd : (depth : Nat) → (quote : Option Char) → List Symbol → Bool
  | _, _, [] => false
  | depth, quote, .hidden :: rest => closesAtEnd depth quote rest
  | depth, some q, .char c :: rest => closesAtEnd depth (if c = q then none else some q) rest
  | depth, none, .char c :: rest =>
    if c = '(' then closesAtEnd (depth + 1) none rest
    else if c = ')' then
      match depth with
      | 0 => rest.isEmpty
      | depth + 1 => closesAtEnd depth none rest
    else if c = '\'' || c = '"' then closesAtEnd depth (some c) rest
    else closesAtEnd depth none rest

/-- Whether the fragment is one group in parentheses, from its first symbol to its last. -/
def isParenthesized (f : Fragment) : Bool :=
  match f.symbols with
  | .char c :: rest => c = '(' && closesAtEnd 0 none rest
  | _ => false

/-- A fragment is one group if it opens one and then closes all that is open. -/
theorem isParenthesized_iff_closesAtEnd (f : Fragment) :
    f.isParenthesized = true ↔
      ∃ rest, f.symbols = .char '(' :: rest ∧ closesAtEnd 0 none rest = true := by
  rw [isParenthesized]
  match f.symbols with
  | [] => simp
  | .hidden :: _ => simp
  | .char c :: rest =>
    constructor
    · intro group
      obtain ⟨rfl, closed⟩ : c = '(' ∧ closesAtEnd 0 none rest = true := by simpa using group
      exact ⟨rest, rfl, closed⟩
    · rintro ⟨_, same, closed⟩
      cases same
      simpa using closed

@[simp] theorem symbolsOf_append (s t : String) :
    symbolsOf (s ++ t) = symbolsOf s ++ symbolsOf t := by
  simp [symbolsOf]

@[simp] theorem symbols_textThen (s : String) (f : Fragment) :
    (textThen s f).symbols = symbolsOf s ++ f.symbols := by
  unfold textThen
  split
  · next h => simp [String.isEmpty_iff.1 h, symbolsOf]
  · split <;> simp [symbols]

/-- The symbols of two fragments follow each other. -/
@[simp] theorem symbols_append (f g : Fragment) :
    (f ++ g).symbols = f.symbols ++ g.symbols := by
  induction f with
  | empty => rfl
  | text s rest ih => simp [text_append, symbols, ih]
  | literal v rest ih => simp [symbols, ih]
  | subQuery i rest _ ih => simp [symbols, ih]

@[simp] theorem symbols_sql (s : String) : (sql s).symbols = symbolsOf s := by
  simp [sql, symbols]

end RowGraph.Fragment
