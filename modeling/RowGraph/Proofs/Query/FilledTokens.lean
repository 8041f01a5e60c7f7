import Mathlib.Data.List.Forall2
import RowGraph.Proofs.Numbering
import RowGraph.Proofs.Query.Handwritten
import RowGraph.Proofs.Text.Numerals

/-!
# Tokens and their values

SQL written by hand is read from left to right: where a token begins it is taken as a whole, and
anywhere else a character stands for itself. What is found in this way is what the scan finds. A
condition can be made of the SQL if every token has a value; then its literals are the values of the
tokens, and the tokens put back in their places give the SQL again.

Results:
* `Alphabet.Reads`: the pieces that a text is read as; `reads_iff` says that they are `pieces`.
* `exists_fill_iff`: when a text can be filled.
* `weave_gaps_fill`, `forall₂_literals_fill`: the texts between the literals, and the literals.
* **`handwritten_tokens_filled`**: both kinds of tokens, and the calls.
-/

namespace RowGraph

namespace RawText

/-- A name of the alphabet: a character that begins one, and others after it. -/
def Alphabet.IsName (a : Alphabet) : List Char → Prop
  | [] => False
  | c :: rest => a.first c = true ∧ ∀ x ∈ rest, a.other x = true

/-- A text is read from left to right as these pieces. -/
inductive Alphabet.Reads (a : Alphabet) : List Char → List Piece → Prop
  | nil : a.Reads [] []
  /-- A token begins here. -/
  | token {name after : List Char} {ps : List Piece} (isName : a.IsName name)
      (rest : a.Reads after ps) : a.Reads (braced name ++ after) (.token name :: ps)
  /-- No token begins here. -/
  | char {c : Char} {cs : List Char} {ps : List Piece}
      (bare : ∀ name after, a.IsName name → braced name ++ after ≠ c :: cs)
      (rest : a.Reads cs ps) : a.Reads (c :: cs) (.char c :: ps)

/-- The names of the tokens, in order. -/
def names (ps : List Piece) : List (List Char) := ps.filterMap Piece.name?

/-! ## The scan -/

section Scan

variable {a : Alphabet}

theorem isName_of_token? {cs name after : List Char} (h : token? a cs = some (name, after)) :
    a.IsName name := by
  unfold token? at h
  split at h
  · next first rest =>
    split at h
    · next starts =>
      split at h
      · cases h
        exact ⟨starts, List.all_eq_true.mp List.all_takeWhile⟩
      · cases h
    · cases h
  · cases h

/-- A token at the front of a text is found, if a closing brace cannot belong to its name. -/
theorem token?_braced (closing : a.other '\x7d' = false) {name : List Char} (h : a.IsName name)
    (after : List Char) : token? a (braced name ++ after) = some (name, after) := by
  cases name with
  | nil => exact h.elim
  | cons c rest =>
    have behind : (rest ++ '\x7d' :: after).dropWhile a.other = '\x7d' :: after := by
      rw [List.dropWhile_append_of_pos h.2, List.dropWhile_cons_of_neg (by simp [closing])]
    have within : (rest ++ '\x7d' :: after).takeWhile a.other = rest := by
      rw [List.takeWhile_append_of_pos h.2, List.takeWhile_cons_of_neg (by simp [closing]),
        List.append_nil]
    simp [braced, token?, h.1, behind, within]

theorem token?_eq_none_iff (closing : a.other '\x7d' = false) {cs : List Char} :
    token? a cs = none ↔ ∀ name after, a.IsName name → braced name ++ after ≠ cs := by
  constructor
  · rintro none name after isName rfl
    rw [token?_braced closing isName] at none
    cases none
  · intro bare
    cases h : token? a cs with
    | none => rfl
    | some found => exact absurd (braced_append_of_token? h) (bare _ _ (isName_of_token? h))

theorem pieces_of_token? {cs name after : List Char} (h : token? a cs = some (name, after)) :
    pieces a cs = .token name :: pieces a after := by
  rw [pieces]
  split
  · next found =>
    rw [h] at found
    cases found
    rfl
  · next none => simp [h] at none

theorem pieces_cons_of_token? {c : Char} {cs : List Char} (h : token? a (c :: cs) = none) :
    pieces a (c :: cs) = .char c :: pieces a cs := by
  rw [pieces]
  split
  · next found => simp [h] at found
  · rfl

theorem reads_pieces (closing : a.other '\x7d' = false) (cs : List Char) :
    a.Reads cs (pieces a cs) := by
  induction cs using pieces.induct a with
  | case1 cs name after h _ ih =>
    rw [pieces_of_token? h, ← braced_append_of_token? h]
    exact .token (isName_of_token? h) ih
  | case2 h =>
    rw [pieces]
    exact .nil
  | case3 c cs h ih =>
    rw [pieces_cons_of_token? h]
    exact .char ((token?_eq_none_iff closing).mp h) ih

/-- **A text is read in one way, which is the one in which it is scanned.** -/
theorem reads_iff (closing : a.other '\x7d' = false) {cs : List Char} {ps : List Piece} :
    a.Reads cs ps ↔ ps = pieces a cs := by
  refine ⟨fun h => ?_, fun h => h ▸ reads_pieces closing cs⟩
  induction h with
  | nil => simp [pieces, token?]
  | token isName _ ih => rw [pieces_of_token? (token?_braced closing isName _), ih]
  | char bare _ ih =>
    rw [pieces_cons_of_token? ((token?_eq_none_iff closing).mpr bare), ih]

/-- Braces around a token stand for themselves, and so do those of an incomplete one. -/
example : pieces numbers "\x7b\x7b10\x7d\x7b1".toList =
    [.char '\x7b', .token ['1', '0'], .char '\x7b', .char '1'] := by
  cbv

end Scan

/-! ## Filling -/

section Fill

variable {ε : Type} {value : String → Except ε Value}

theorem fill_char_eq_ok_iff {c : Char} {rest : List Piece} {f : Fragment} :
    fill value (.char c :: rest) = .ok f ↔
      ∃ g, fill value rest = .ok g ∧ .textThen (String.singleton c) g = f := by
  rw [fill]
  cases fill value rest <;> simp [bind, Except.bind, pure, Except.pure]

theorem fill_token_eq_ok_iff {name : List Char} {rest : List Piece} {f : Fragment} :
    fill value (.token name :: rest) = .ok f ↔
      ∃ v g, value (.ofList name) = .ok v ∧ fill value rest = .ok g ∧ .literal v g = f := by
  rw [fill]
  cases value (.ofList name) <;> cases fill value rest <;>
    simp [bind, Except.bind, pure, Except.pure]

/-- A text can be filled exactly if all its tokens have values. -/
theorem exists_fill_iff {ps : List Piece} :
    (∃ f, fill value ps = .ok f) ↔ ∀ name ∈ names ps, ∃ v, value (.ofList name) = .ok v := by
  induction ps with
  | nil => simp [fill, names]
  | cons p rest ih =>
    cases p with
    | char c =>
      have same : names (.char c :: rest) = names rest := rfl
      rw [same, ← ih]
      simp only [fill_char_eq_ok_iff]
      constructor
      · rintro ⟨_, g, hg, -⟩
        exact ⟨g, hg⟩
      · rintro ⟨g, hg⟩
        exact ⟨_, g, hg, rfl⟩
    | token name =>
      have more : names (.token name :: rest) = name :: names rest := rfl
      rw [more, List.forall_mem_cons, ← ih]
      simp only [fill_token_eq_ok_iff]
      constructor
      · rintro ⟨_, v, g, hv, hg, -⟩
        exact ⟨⟨v, hv⟩, g, hg⟩
      · rintro ⟨⟨v, hv⟩, g, hg⟩
        exact ⟨_, v, g, hv, hg, rfl⟩

theorem weave_gaps_textThen (s : String) (f : Fragment) (marks : List String) :
    weave (Fragment.textThen s f).gaps marks = s ++ weave f.gaps marks := by
  unfold Fragment.textThen
  split
  · next h => simp [String.isEmpty_iff.mp h]
  · cases f <;> simp [String.append_assoc]

/-- The tokens put back between the texts of the fragment. -/
theorem weave_gaps_fill {ps : List Piece} {f : Fragment} (h : fill value ps = .ok f) :
    weave f.gaps ((names ps).map fun name => String.ofList (braced name)) =
      String.ofList (ps.flatMap Piece.text) := by
  induction ps generalizing f with
  | nil =>
    cases h
    rfl
  | cons p rest ih =>
    cases p with
    | char c =>
      obtain ⟨g, hg, rfl⟩ := fill_char_eq_ok_iff.mp h
      change weave _ ((names rest).map _) = _
      rw [weave_gaps_textThen, ih hg, List.flatMap_cons, String.ofList_append]
      rfl
    | token name =>
      obtain ⟨v, g, -, hg, rfl⟩ := fill_token_eq_ok_iff.mp h
      change weave _ (_ :: (names rest).map _) = _
      rw [Fragment.weave_gaps_literal, ih hg, List.flatMap_cons, String.ofList_append]
      rfl

/-- The literals of the fragment are the values of the tokens, one for each. -/
theorem forall₂_literals_fill {ps : List Piece} {f : Fragment} (h : fill value ps = .ok f) :
    List.Forall₂ (fun name v => value (.ofList name) = .ok v) (names ps) f.literals := by
  induction ps generalizing f with
  | nil =>
    cases h
    exact .nil
  | cons p rest ih =>
    cases p with
    | char c =>
      obtain ⟨g, hg, rfl⟩ := fill_char_eq_ok_iff.mp h
      rw [Fragment.literals_textThen]
      exact ih hg
    | token name =>
      obtain ⟨v, g, hv, hg, rfl⟩ := fill_token_eq_ok_iff.mp h
      exact .cons hv (ih hg)

end Fill

/-- A condition is SQL with its tokens filled in: the SQL is read in one way, the condition can be
made exactly if the name of every token is `good`, its text with the tokens put back is the SQL, and
its literals are what the names mean. -/
structure FilledIn (a : Alphabet) (sql : String) (good : List Char → Prop)
    (means : List Char → Value → Prop) (made : Except QueryError Fragment) (ps : List Piece) :
    Prop where
  reads : a.Reads sql.toList ps
  only : ∀ others, a.Reads sql.toList others → others = ps
  exists_iff : (∃ f, made = .ok f) ↔ ∀ name ∈ names ps, good name
  text : ∀ f, made = .ok f →
    weave f.gaps ((names ps).map fun name => String.ofList (braced name)) = sql
  literals : ∀ f, made = .ok f → List.Forall₂ means (names ps) f.literals

theorem filledIn_fill {a : Alphabet} (closing : a.other '\x7d' = false) (sql : String)
    {value : String → Except QueryError Value} {good : List Char → Prop}
    {means : List Char → Value → Prop}
    (hgood : ∀ name, (∃ v, value (.ofList name) = .ok v) ↔ good name)
    (hmeans : ∀ name v, value (.ofList name) = .ok v → means name v) :
    FilledIn a sql good means (fill value (pieces a sql.toList)) (pieces a sql.toList) where
  reads := reads_pieces closing _
  only _ h := (reads_iff closing).mp h
  exists_iff := exists_fill_iff.trans (forall₂_congr fun name _ => hgood name)
  text f h := by rw [weave_gaps_fill h, text_pieces, String.ofList_toList]
  literals f h := (forall₂_literals_fill h).imp hmeans

end RawText

namespace Query

/-! ## The values of tokens -/

/-- A numbered token has the value of the parameter that its digits denote. -/
theorem positionalValue_eq_ok_iff {sql : String} {params : List Value} {name : List Char}
    {v : Value} :
    positionalValue sql params (.ofList name) = .ok v ↔
      ∃ i, Text.Denotes name i ∧ i < UInt64.size ∧ params[i]? = some v := by
  have chosen : ((Text.digitsNumber? name).filter (· < UInt64.size)).bind (params[·]?) = some v ↔
      ∃ i, Text.Denotes name i ∧ i < UInt64.size ∧ params[i]? = some v := by
    simp only [Option.bind_eq_some_iff, Option.filter_eq_some_iff, Text.digitsNumber?_eq_some_iff,
      decide_eq_true_iff, and_assoc]
  rw [← chosen, positionalValue, String.toList_ofList]
  cases ((Text.digitsNumber? name).filter (· < UInt64.size)).bind (params[·]?) <;> simp

/-- It has one exactly if the digits denote the index of a parameter. -/
theorem exists_positionalValue_iff {sql : String} {params : List Value} {name : List Char} :
    (∃ v, positionalValue sql params (.ofList name) = .ok v) ↔
      ∃ i, Text.Denotes name i ∧ i < UInt64.size ∧ i < params.length := by
  simp only [positionalValue_eq_ok_iff]
  constructor
  · rintro ⟨v, i, denotes, bound, hv⟩
    exact ⟨i, denotes, bound, (List.getElem?_eq_some_iff.mp hv).1⟩
  · rintro ⟨i, denotes, bound, hi⟩
    exact ⟨params[i], i, denotes, bound, List.getElem?_eq_getElem hi⟩

section Named

variable {parameterName : String → String} {params : List (String × Json)} {name : String}

/-- A named token has the value of a parameter whose name has the same form. -/
theorem exists_mem_of_namedValue {v : Value} (h : namedValue parameterName params name = .ok v) :
    ∃ p ∈ params, parameterName p.1 = parameterName name ∧ v = .ofJson p.2 := by
  rw [namedValue] at h
  split at h
  · next found =>
    cases h
    have same := List.find?_some (p := fun p : String × Json =>
      parameterName p.1 == parameterName name) found
    exact ⟨_, List.mem_reverse.mp (List.mem_of_find?_eq_some found), beq_iff_eq.mp same, rfl⟩
  · cases h

/-- It has one exactly if there is such a parameter. -/
theorem exists_namedValue_iff :
    (∃ v, namedValue parameterName params name = .ok v) ↔
      ∃ p ∈ params, parameterName p.1 = parameterName name := by
  constructor
  · rintro ⟨v, h⟩
    obtain ⟨p, hp, same, -⟩ := exists_mem_of_namedValue h
    exact ⟨p, hp, same⟩
  · rintro ⟨p, hp, same⟩
    rw [namedValue]
    cases found : params.reverse.find? fun p => parameterName p.1 == parameterName name with
    | none =>
      have other := List.find?_eq_none.mp found p (List.mem_reverse.mpr hp)
      exact absurd (beq_iff_eq.mpr same) other
    | some p => exact ⟨_, rfl⟩

end Named

end Query

open RawText in
/-- **Tokens are filled in where they stand.** SQL is read from left to right, each token as a
whole, in one way. A condition with numbered tokens can be made of it exactly if the digits of each
token are those of ASCII and denote a number of 64 bits that is the index of a parameter, and its
literals are these parameters, in the order of the tokens. With named tokens each name has to have
the form of a parameter's name, and its literal is such a parameter. Between the literals stands the
text around the tokens. The calls add the condition to the query if it can be made, and fail
otherwise. -/
theorem handwritten_tokens_filled (sql : String) :
    (∀ params : List Value, ∃ ps,
      FilledIn numbers sql
        (fun name => ∃ i, Text.Denotes name i ∧ i < UInt64.size ∧ i < params.length)
        (fun name v => ∃ i, Text.Denotes name i ∧ i < UInt64.size ∧ params[i]? = some v)
        (Query.positionalFragment sql params) ps) ∧
    (∀ (parameterName : String → String) (params : List (String × Json)), ∃ ps,
      FilledIn identifiers sql
        (fun name => ∃ p ∈ params, parameterName p.1 = parameterName (.ofList name))
        (fun name v => ∃ p ∈ params, parameterName p.1 = parameterName (.ofList name) ∧
          v = .ofJson p.2)
        (Query.namedFragment parameterName sql params) ps) ∧
    ∀ (c : Catalog) (env : Environment) (q : Query c),
      (∀ params, (Call.filterRaw sql params).apply env q =
        match Query.positionalFragment sql params with
        | .ok f => (.ok (), { q with filter := q.filter.push f .and })
        | .error why => (.error why, q)) ∧
      ∀ params, (Call.filterNamed sql params).apply env q =
        match Query.namedFragment env.parameterName sql params with
        | .ok f => (.ok (), { q with filter := q.filter.push f .and })
        | .error why => (.error why, q) := by
  refine ⟨fun params => ?_, fun parameterName params => ?_, fun c env q =>
    ⟨fun params => (Handwritten.positional sql params).apply_call env q,
      fun params => (Handwritten.named sql params).apply_call env q⟩⟩
  · exact ⟨_, filledIn_fill (by decide) sql (fun _ => Query.exists_positionalValue_iff)
      fun _ _ => Query.positionalValue_eq_ok_iff.mp⟩
  · exact ⟨_, filledIn_fill (by decide) sql (fun _ => Query.exists_namedValue_iff)
      fun _ _ => Query.exists_mem_of_namedValue⟩

end RowGraph
