import RowGraph.Proofs.Query.WellFormed
import RowGraph.Query.RawText

/-!
# Tokens are read as literals are

SQL written by hand holds tokens, names in braces, and the fragment made of it a literal in place of
each one. A reader of the SQL sees the characters of a token, a reader of the fragment one symbol
whose text is not known. Both are nothing to a reader who looks for parentheses and quotes: the
names of tokens hold neither, and a literal does not change what the reader knows.

Results:
* `symbols_fill`: the symbols of a filled text, piece by piece.
* `inertTokens_pieces`: no token holds a parenthesis or a quote of any dialect.
* `Lexis.skips_quotes`, `Lexis.skips_lexis`: neither the scan for parentheses nor the reader of a
  dialect sees more in a token than in a literal.
* **`Lexis.Skips.isGroup_pieces`**: so to them the fragment is one group if the SQL is.
-/

namespace RowGraph

open Fragment (Symbol symbolsOf)

/-! ## What stands in place of a text -/

namespace RawText

/-- What stands in a fragment for a piece. -/
def Piece.symbol : Piece → Symbol
  | .char c => .char c
  | .token _ => .hidden

theorem symbols_fill {ε : Type} {value : String → Except ε Value} {ps : List Piece} {f : Fragment}
    (h : fill value ps = .ok f) : f.symbols = ps.map Piece.symbol := by
  induction ps generalizing f with
  | nil =>
    cases h
    rfl
  | cons p rest ih =>
    cases p with
    | char c =>
      cases hg : fill value rest with
      | error why => simp [fill, hg, bind, Except.bind] at h
      | ok g =>
        obtain rfl : Fragment.textThen (String.singleton c) g = f := by
          simpa [fill, hg, bind, Except.bind, pure, Except.pure] using h
        simp [Piece.symbol, symbolsOf, ih hg]
    | token name =>
      cases hv : value (.ofList name) with
      | error why => simp [fill, hv, bind, Except.bind] at h
      | ok v =>
        cases hg : fill value rest with
        | error why => simp [fill, hv, hg, bind, Except.bind] at h
        | ok g =>
          obtain rfl : Fragment.literal v g = f := by
            simpa [fill, hv, hg, bind, Except.bind, pure, Except.pure] using h
          simp [Piece.symbol, Fragment.symbols, ih hg]

/-- The parentheses, and the quotes of all dialects. -/
def marks : List Char := ['(', ')', '\'', '"', '[', ']', '\x60']

/-- Neither a parenthesis nor a quote, in any dialect. -/
def IsInert (c : Char) : Prop := ∀ d : Dialect, d.IsPlain c

/-- Names of this alphabet hold no parenthesis and no quote. -/
def Alphabet.IsInert (a : Alphabet) : Prop :=
  ∀ c, a.first c = true ∨ a.other c = true → RawText.IsInert c

theorem isInert_of_not_mem {c : Char} (h : c ∉ marks) : IsInert c := by
  intro d
  simp only [marks, List.mem_cons, List.not_mem_nil, or_false, not_or] at h
  cases d <;> simp [Dialect.IsPlain, Dialect.openingQuote, Dialect.closingQuote, h]

theorem Alphabet.isInert_of_marks {a : Alphabet}
    (h : marks.all (fun c => !a.first c && !a.other c) = true) : a.IsInert := by
  intro c hc
  refine isInert_of_not_mem fun mark => ?_
  have other := List.all_eq_true.mp h c mark
  rw [Bool.and_eq_true, Bool.not_eq_true', Bool.not_eq_true'] at other
  simp [other] at hc

theorem isInert_numbers : numbers.IsInert := Alphabet.isInert_of_marks (by decide)

theorem isInert_identifiers : identifiers.IsInert := Alphabet.isInert_of_marks (by decide)

theorem name_of_token? {a : Alphabet} {cs name after : List Char}
    (h : token? a cs = some (name, after)) : ∀ c ∈ name, a.first c = true ∨ a.other c = true := by
  unfold token? at h
  split at h
  · next first rest =>
    split at h
    · next starts =>
      split at h
      · cases h
        intro c hc
        rcases List.mem_cons.mp hc with rfl | hc
        · exact .inl starts
        · exact .inr (List.all_eq_true.mp List.all_takeWhile c hc)
      · cases h
    · cases h
  · cases h

/-- The tokens of a text have names of the alphabet. -/
theorem name_of_mem_pieces {a : Alphabet} {cs name : List Char} (h : .token name ∈ pieces a cs) :
    ∀ c ∈ name, a.first c = true ∨ a.other c = true := by
  induction cs using pieces.induct a with
  | case1 cs name' after ht _ ih =>
    rw [pieces] at h
    split at h
    · next ht' =>
      rw [ht] at ht'
      cases ht'
      rcases List.mem_cons.mp h with same | h
      · cases same
        exact name_of_token? ht
      · exact ih h
    · next ht' => simp [ht] at ht'
  | case2 ht =>
    rw [pieces] at h
    simp [token?] at h
  | case3 c rest ht ih =>
    rw [pieces] at h
    split at h
    · next ht' => simp [ht] at ht'
    · exact ih (by simpa using h)

/-- The names of these tokens hold no parenthesis and no quote. -/
def InertTokens (ps : List Piece) : Prop := ∀ name, .token name ∈ ps → ∀ c ∈ name, IsInert c

theorem inertTokens_pieces {a : Alphabet} (ha : a.IsInert) (cs : List Char) :
    InertTokens (pieces a cs) :=
  fun _ h c hc => ha c (name_of_mem_pieces h c hc)

theorem isInert_braced {name : List Char} (h : ∀ c ∈ name, IsInert c) :
    ∀ c ∈ braced name, IsInert c := by
  have braces : IsInert '\x7b' ∧ IsInert '\x7d' :=
    ⟨isInert_of_not_mem (by decide), isInert_of_not_mem (by decide)⟩
  intro c hc
  rcases List.mem_cons.mp hc with rfl | hc
  · exact braces.1
  · rcases List.mem_append.mp hc with hc | hc
    · exact h c hc
    · obtain rfl := List.mem_singleton.mp hc
      exact braces.2

end RawText

/-! ## Readers that skip tokens -/

namespace Lexis

open RawText (Piece IsInert)

theorem isGroup_cons {l : Lexis} {x : Symbol} {rest : List Symbol} :
    l.IsGroup (x :: rest) ↔ x = .char '(' ∧ l.behind 0 l.start rest = some [] := by
  constructor
  · rintro ⟨inner, same, closed⟩
    cases same
    exact ⟨rfl, closed⟩
  · rintro ⟨rfl, closed⟩
    exact ⟨rest, rfl, closed⟩

/-- A reader, in the states that it can be in, sees no more in an inert character than in a literal,
and no more in two literals than in one. -/
structure Skips (l : Lexis) (known : l.State → Prop) : Prop where
  start : known l.start
  next : ∀ {state : l.State} (x : Symbol), known state → known (l.next state x)
  inert : ∀ {state : l.State} {c : Char}, known state → IsInert c →
    l.next state (.char c) = l.next state .hidden
  again : ∀ {state : l.State}, known state →
    l.next (l.next state .hidden) .hidden = l.next state .hidden

/-- The quote that is open, if any, is one of the two. -/
def IsUsual (quote : Option Char) : Prop := ∀ q, quote = some q → q = '\'' ∨ q = '"'

theorem skips_quotes : quotes.Skips IsUsual where
  start := fun _ none => by cases none
  next := by
    rintro (_ | q) (c | _) usual q' opened
    · by_cases quote : c = '\'' ∨ c = '"'
      · obtain rfl : c = q' := by simpa [quotes, quote] using opened
        exact quote
      · simp [quotes, quote] at opened
    · cases opened
    · by_cases closing : c = q
      · simp [quotes, closing] at opened
      · exact usual q' (by simpa [quotes, closing] using opened)
    · exact usual q' opened
  inert := by
    rintro (_ | q) c usual inert
    · have plain := inert .sqlite
      simp only [Dialect.IsPlain, List.mem_cons, List.not_mem_nil, or_false, not_or] at plain
      simp [quotes, plain]
    · have other : c ≠ q := by
        have plain := inert .sqlite
        rintro rfl
        rcases usual c rfl with rfl | rfl <;> simp [Dialect.IsPlain] at plain
      simp [quotes, other]
  again := by
    rintro (_ | q) _ <;> rfl

theorem skips_lexis (d : Dialect) : d.lexis.Skips fun _ => True where
  start := trivial
  next _ _ := trivial
  inert := by
    intro state c _ inert
    have opened := Dialect.Place.opened_plain (inert d)
    have other (e : Dialect.Enclosure) : Symbol.char c ≠ .char (e.closing d) := fun same =>
      Dialect.closing_ne_plain e (inert d) (Symbol.char.inj same)
    cases state with
    | outside => exact opened
    | inside e => exact if_neg (other e)
    | behind e => exact (if_neg (other e)).trans opened
  again := by
    rintro (_ | e | e) _ <;> rfl

variable {l : Lexis} {known : l.State → Prop}

/-- Behind a literal, inert characters change nothing. -/
theorem Skips.behind_inert (skips : l.Skips known) {state : l.State} (hs : known state)
    {cs : List Char} (hc : ∀ c ∈ cs, IsInert c) (depth : Nat) (rest : List Symbol) :
    l.behind depth (l.next state .hidden) (cs.map .char ++ rest) =
      l.behind depth (l.next state .hidden) rest := by
  induction cs with
  | nil => rfl
  | cons c cs ih =>
    have inert := hc c List.mem_cons_self
    have same : l.next (l.next state .hidden) (.char c) = l.next state .hidden :=
      (skips.inert (skips.next .hidden hs) inert).trans (skips.again hs)
    rw [List.map_cons, List.cons_append,
      behind_symbol fun _ => Dialect.not_paren_of_isPlain (inert .sqlite), same]
    exact ih fun x hx => hc x (List.mem_cons_of_mem c hx)

/-- A token is read as the literal that takes its place. -/
theorem Skips.behind_token (skips : l.Skips known) {state : l.State} (hs : known state)
    {name : List Char} (hn : ∀ c ∈ name, IsInert c) (depth : Nat) (rest : List Symbol) :
    l.behind depth state ((RawText.braced name).map .char ++ rest) =
      l.behind depth (l.next state .hidden) rest := by
  obtain ⟨opening, others⟩ := List.forall_mem_cons.mp (RawText.isInert_braced hn)
  rw [RawText.braced, List.cons_append, List.map_cons, List.cons_append,
    behind_symbol fun _ => Dialect.not_paren_of_isPlain (opening .sqlite), skips.inert hs opening]
  exact skips.behind_inert hs others depth rest

/-- **Tokens and literals are the same** to a reader who skips both: the groups around end with the
text if they end with the symbols of the fragment. -/
theorem Skips.behind_pieces (skips : l.Skips known) {ps : List Piece} (hp : RawText.InertTokens ps)
    {state : l.State} (hs : known state) (depth : Nat) :
    l.behind depth state (ps.map Piece.symbol) = some [] ↔
      l.behind depth state ((ps.flatMap Piece.text).map .char) = some [] := by
  induction ps generalizing depth state with
  | nil => rfl
  | cons p ps ih =>
    have others : RawText.InertTokens ps := fun name h => hp name (List.mem_cons_of_mem p h)
    cases p with
    | char c =>
      simp only [List.map_cons, List.flatMap_cons, Piece.symbol, Piece.text, List.cons_append,
        List.nil_append, behind]
      split
      · exact ih others skips.start _
      · split
        · split
          -- The group that everything lies in ends here, so nothing may follow in either form.
          · cases ps with
            | nil => rfl
            | cons next _ => cases next <;> simp [Piece.text, RawText.braced]
          · exact ih others skips.start _
        · exact ih others (skips.next _ hs) _
    | token name =>
      rw [List.flatMap_cons, List.map_append, Piece.text,
        skips.behind_token hs (hp name List.mem_cons_self), List.map_cons, Piece.symbol,
        behind_symbol (by simp)]
      exact ih others (skips.next _ hs) _

/-- So the symbols are one group if the text is. -/
theorem Skips.isGroup_pieces (skips : l.Skips known) {ps : List Piece}
    (hp : RawText.InertTokens ps) :
    l.IsGroup (ps.map Piece.symbol) ↔ l.IsGroup ((ps.flatMap Piece.text).map .char) := by
  cases ps with
  | nil => rfl
  | cons p ps =>
    cases p with
    | token name => simp [isGroup_cons, Piece.symbol, Piece.text, RawText.braced]
    | char c =>
      have others : RawText.InertTokens ps := fun name h => hp name (List.mem_cons_of_mem _ h)
      exact isGroup_cons.trans ((and_congr_right fun _ =>
        skips.behind_pieces others skips.start 0).trans isGroup_cons.symm)

end Lexis

end RowGraph
